import ContactCards.Text.Caseless
import ContactCards.Text.Numeral

/-!
The parameters of a property. A parameter has one name, whatever the case of its letters, and the
values put under that name in order; parameters stand in the order in which they first appear.
-/

namespace ContactCards

/-- A parameter, its name in upper case. -/
structure Parameter where
  name : String
  values : List String
  deriving DecidableEq, Repr

namespace Parameter

def ofValues (name : String) (values : List String) : Parameter :=
  ⟨upper name, values⟩

def ofValue (name value : String) : Parameter :=
  ofValues name [value]

/-- The first value. -/
def first? (p : Parameter) : Option String :=
  p.values.head?

/-- Whether a value occurs, whatever the case of its letters. -/
def hasValue (p : Parameter) (value : String) : Bool :=
  p.values.any (sameIgnoringCase · value)

def render (p : Parameter) : String :=
  p.name ++ "=" ++ ",".intercalate p.values

end Parameter

/-- The parameters of one property. -/
structure Parameters where
  toList : List Parameter
  deriving DecidableEq, Repr

namespace Parameters

def empty : Parameters := ⟨[]⟩

/-- Adds a value to the parameter with this name, or a new parameter at the end. -/
def putList (name value : String) : List Parameter → List Parameter
  | [] => [.ofValue name value]
  | p :: ps =>
    if sameIgnoringCase p.name name then ⟨p.name, p.values ++ [value]⟩ :: ps
    else p :: putList name value ps

/-- Puts a value under a name. -/
def put (ps : Parameters) (name value : String) : Parameters :=
  ⟨putList name value ps.toList⟩

/-- Puts values under names, one after another. -/
def ofPuts (puts : List (String × String)) : Parameters :=
  puts.foldl (fun ps (name, value) => ps.put name value) empty

/-- The parameter with a name. -/
def get? (ps : Parameters) (name : String) : Option Parameter :=
  ps.toList.find? (sameIgnoringCase ·.name name)

/-- The values under a name. -/
def values (ps : Parameters) (name : String) : List String :=
  ((ps.get? name).map Parameter.values).getD []

/-- The first value under a name. -/
def first? (ps : Parameters) (name : String) : Option String :=
  (ps.get? name).bind Parameter.first?

/-- Whether one of the types of the property is the given one. -/
def hasType (ps : Parameters) (value : String) : Bool :=
  ((ps.get? "TYPE").map (·.hasValue value)).getD false

/-- The preference, a number of 8 bits. -/
def preference? (ps : Parameters) : Option Nat :=
  (ps.first? "PREF").bind fun s => (Numeral.readSigned 10 255 s.toList).toOption

def size (ps : Parameters) : Nat :=
  ps.toList.length

def isEmpty (ps : Parameters) : Bool :=
  ps.toList.isEmpty

def render (ps : Parameters) : String :=
  ";".intercalate (ps.toList.map Parameter.render)

end Parameters

end ContactCards
