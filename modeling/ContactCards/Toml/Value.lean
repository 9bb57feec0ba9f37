/-!
Values of TOML documents, and tables as they grow line by line. How a table came to be decides what
may still be added to it.
-/

namespace ContactCards

/-- How a table came to be. -/
inductive TableKind where
  /-- On the way to the table of a header. -/
  | implicit
  /-- By its own header. -/
  | header
  /-- On the way to the last part of a dotted key. -/
  | dotted
  /-- As a value, which nothing can be added to. -/
  | inline
  deriving DecidableEq, Repr

inductive Toml where
  | string (text : String)
  | integer (value : Int)
  | float (value : Float)
  | boolean (value : Bool)
  | array (items : List Toml)
  | table (kind : TableKind) (entries : List (String × Toml))
  /-- The tables under one header of an array. -/
  | tables (items : List Toml)
  deriving Inhabited

/-- The entries of a table, in order. -/
abbrev Entries := List (String × Toml)

namespace Entries

/-- Gives an entry another value. -/
def replace (es : Entries) (key : String) (value : Toml) : Entries :=
  es.map fun (k, v) => if k == key then (k, value) else (k, v)

/-- Sets a dotted key, which must be new, and whose tables must come from dotted keys too. -/
def setKey : (path : List String) → Toml → Entries → Option Entries
  | [], _, _ => none
  | [key], value, es =>
    match es.lookup key with
    | none => some (es ++ [(key, value)])
    | some _ => none
  | key :: path, value, es =>
    match es.lookup key with
    | none => (setKey path value []).map fun sub => es ++ [(key, .table .dotted sub)]
    | some (.table .dotted sub) =>
      (setKey path value sub).map fun sub => es.replace key (.table .dotted sub)
    | some _ => none

/-- Changes the table that a header names, creating those on the way. The last table of an array
stands for the array; `last` deals with the last part of the header. -/
def alongHeader (last : String → Entries → Option Entries) :
    (path : List String) → Entries → Option Entries
  | [], _ => none
  | [key], es => last key es
  | key :: path, es =>
    match es.lookup key with
    | none => (alongHeader last path []).map fun sub => es ++ [(key, .table .implicit sub)]
    | some (.table kind sub) =>
      if kind = .inline then none
      else (alongHeader last path sub).map fun sub => es.replace key (.table kind sub)
    | some (.tables items) =>
      match items.getLast? with
      | some (.table kind sub) =>
        (alongHeader last path sub).map fun sub =>
          es.replace key (.tables (items.dropLast ++ [.table kind sub]))
      | _ => none
    | some _ => none

/-- Opens the table of a header, which must not have been opened before. -/
def openTable : (path : List String) → Entries → Option Entries :=
  alongHeader fun key es =>
    match es.lookup key with
    | none => some (es ++ [(key, .table .header [])])
    | some (.table .implicit sub) => some (es.replace key (.table .header sub))
    | some _ => none

/-- Adds a table to the array of a header. -/
def openArrayTable : (path : List String) → Entries → Option Entries :=
  alongHeader fun key es =>
    match es.lookup key with
    | none => some (es ++ [(key, .tables [.table .header []])])
    | some (.tables items) => some (es.replace key (.tables (items ++ [.table .header []])))
    | some _ => none

/-- Sets a dotted key in the table that the last header opened. -/
def setUnder (header path : List String) (value : Toml) (es : Entries) : Option Entries :=
  if header.isEmpty then setKey path value es
  else alongHeader (fun key es =>
    match es.lookup key with
    | some (.table kind sub) =>
      (setKey path value sub).map fun sub => es.replace key (.table kind sub)
    | some (.tables items) =>
      match items.getLast? with
      | some (.table kind sub) =>
        (setKey path value sub).map fun sub =>
          es.replace key (.tables (items.dropLast ++ [.table kind sub]))
      | _ => none
    | _ => none) header es

end Entries

end ContactCards
