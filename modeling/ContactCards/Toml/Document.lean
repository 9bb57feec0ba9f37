import ContactCards.Toml.Quoted
import ContactCards.Toml.Scalar

/-!
TOML documents: lines of keys with values, under headers. A document that breaks a rule anywhere has
no entries at all.
-/

namespace ContactCards.Toml

def dropSpaces (cs : List Char) : List Char :=
  cs.dropWhile fun c => c == ' ' || c == '\t'

/-- Characters of a key without quotes. -/
def isBareKeyChar (c : Char) : Bool :=
  c.isAlphanum || c == '-' || c == '_'

/-- One part of a key, and what is left. -/
def keyPart? (cs : List Char) : Option (String × List Char) :=
  match lineString? cs with
  | some (text, rest) => some (String.ofList text, rest)
  | none =>
    let bare := cs.takeWhile isBareKeyChar
    if bare.isEmpty then none else some (String.ofList bare, cs.dropWhile isBareKeyChar)

/-- A key with its parts between dots, and what is left. -/
def key? : (fuel : Nat) → List Char → Option (List String × List Char)
  | 0, _ => none
  | fuel + 1, cs => do
    let (part, rest) ← keyPart? (dropSpaces cs)
    match dropSpaces rest with
    | '.' :: rest =>
      let (parts, rest) ← key? fuel rest
      return (part :: parts, rest)
    | rest => return ([part], rest)

/-- What follows a comment, which goes on to the end of the line. -/
def afterComment? (cs : List Char) : Option (List Char) :=
  let line := cs.takeWhile (· != '\n')
  let text := if line.getLast? = some '\r' then line.dropLast else line
  if text.any isControl then none else some (cs.dropWhile (· != '\n'))

/-- What follows blanks, line ends and comments. -/
def skipLines : (fuel : Nat) → List Char → Option (List Char)
  | 0, _ => none
  | fuel + 1, cs =>
    match dropSpaces cs with
    | '#' :: rest => (afterComment? rest).bind (skipLines fuel)
    | '\n' :: rest => skipLines fuel rest
    | '\r' :: '\n' :: rest => skipLines fuel rest
    | rest => some rest

/-- Characters of numbers, days, times and truth values. -/
def isTokenChar (c : Char) : Bool :=
  c.isAlphanum || c == '+' || c == '-' || c == '_' || c == '.' || c == ':'

/-- A token without quotes, and what is left. A day and a time may stand apart. -/
def token (cs : List Char) : List Char × List Char :=
  let first := cs.takeWhile isTokenChar
  let rest := cs.dropWhile isTokenChar
  match rest with
  | ' ' :: c :: after =>
    if day first = some [] ∧ c.isDigit then
      (first ++ ' ' :: (c :: after).takeWhile isTokenChar, (c :: after).dropWhile isTokenChar)
    else (first, rest)
  | _ => (first, rest)

mutual

/-- A value, and what is left. -/
def value? : (fuel : Nat) → List Char → Option (Toml × List Char)
  | 0, _ => none
  | fuel + 1, '[' :: cs => do
    let (items, rest) ← items? fuel cs
    return (.array items, rest)
  | fuel + 1, '\x7b' :: cs => inlineEntries? fuel [] cs
  | _ + 1, cs =>
    match string? cs with
    | some (text, rest) => some (.string (String.ofList text), rest)
    | none =>
      let (first, rest) := token cs
      (scalar? first).map (·, rest)

/-- The items of an array up to its end, with or without a comma after the last. -/
def items? : (fuel : Nat) → List Char → Option (List Toml × List Char)
  | 0, _ => none
  | fuel + 1, cs => do
    match ← skipLines (cs.length + 1) cs with
    | ']' :: rest => return ([], rest)
    | rest =>
      let (item, rest) ← value? fuel rest
      match ← skipLines (rest.length + 1) rest with
      | ',' :: rest =>
        let (items, rest) ← items? fuel rest
        return (item :: items, rest)
      | ']' :: rest => return ([item], rest)
      | _ => none

/-- The entries of a table that is a value up to its end, with or without a comma after the
last. -/
def inlineEntries? : (fuel : Nat) → Entries → List Char → Option (Toml × List Char)
  | 0, _, _ => none
  | fuel + 1, entries, cs => do
    match ← skipLines (cs.length + 1) cs with
    | '\x7d' :: rest => return (.table .inline entries, rest)
    | rest =>
      let (key, rest) ← key? (rest.length + 1) rest
      match rest with
      | '=' :: rest =>
        let (value, rest) ← value? fuel (dropSpaces rest)
        let entries ← entries.setKey key value
        match ← skipLines (rest.length + 1) rest with
        | ',' :: rest => inlineEntries? fuel entries rest
        | '\x7d' :: rest => return (.table .inline entries, rest)
        | _ => none
      | _ => none

end

/-- What follows the end of a line that has come to its end but for a comment. -/
def endLine? (cs : List Char) : Option (List Char) :=
  match dropSpaces cs with
  | [] => some []
  | '\n' :: rest => some rest
  | '\r' :: '\n' :: rest => some rest
  | '#' :: rest => (afterComment? rest).map (·.drop 1)
  | _ => none

/-- The lines that are left, under the given header. -/
def lines? : (fuel : Nat) → (header : List String) → Entries → List Char → Option Entries
  | 0, _, _, _ => none
  | fuel + 1, header, entries, cs => do
    match ← skipLines (cs.length + 1) cs with
    | [] => return entries
    | '[' :: '[' :: rest =>
      let (path, rest) ← key? (rest.length + 1) rest
      match rest with
      | ']' :: ']' :: rest => lines? fuel path (← entries.openArrayTable path) (← endLine? rest)
      | _ => none
    | '[' :: rest =>
      let (path, rest) ← key? (rest.length + 1) rest
      match rest with
      | ']' :: rest => lines? fuel path (← entries.openTable path) (← endLine? rest)
      | _ => none
    | rest =>
      let (path, rest) ← key? (rest.length + 1) rest
      match rest with
      | '=' :: rest =>
        let (value, rest) ← value? (rest.length + 1) (dropSpaces rest)
        lines? fuel header (← entries.setUnder header path value) (← endLine? rest)
      | _ => none

/-- The entries of a document. -/
def parse? (document : String) : Option Entries :=
  lines? (document.length + 1) [] [] document.toList

end ContactCards.Toml
