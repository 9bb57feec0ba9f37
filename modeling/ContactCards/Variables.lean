import ContactCards.Markup.Token
import ContactCards.Text.Blank

/-!
Files of variables. An entry gives a name and a value; in quotes the value may go on over several
lines, and it may refer to other variables. A file is read up to the first entry that is malformed,
and it never changes a variable that is there already.
-/

namespace ContactCards.Variables

/-- The value of the variable with a name, nothing if there is none. -/
def lookUp (environment : List (String × String)) (name : List Char) : List Char :=
  ((environment.lookup (String.ofList name)).getD "").toList

/-- The characters of a name that a value refers to. Beyond ASCII all count as letters. -/
def isReferenceChar (c : Char) : Bool :=
  c.isAlphanum || 128 ≤ c.toNat

/-- A place in a value. In single quotes every character stands for itself; `quoted` is about double
quotes. -/
inductive Place where
  | plain (quoted : Bool)
  | single
  | escape (quoted : Bool)
  | reference (quoted : Bool) (name : List Char)
  | braced (quoted : Bool) (name : List Char)
  /-- Behind the value, where only a comment may follow. -/
  | behind
  | comment
  deriving DecidableEq, Repr

/-- Reads a character of a value: the place after it, and the characters that it adds. -/
def Place.step (environment : List (String × String)) (place : Place) (c : Char) :
    Option (Place × List Char) :=
  match place with
  | plain quoted =>
    if c = '$' then some (reference quoted [], [])
    else if c = '\\' then some (escape quoted, [])
    else if c = '"' then some (plain (! quoted), [])
    else if quoted then some (plain true, [c])
    else if c = '\'' then some (single, [])
    else if c = ' ' ∨ c = '\t' then some (behind, [])
    else some (plain false, [c])
  | single => some (if c = '\'' then (plain false, []) else (single, [c]))
  | escape quoted =>
    if c = 'n' then some (plain quoted, ['\n'])
    else if ['\\', '\'', '"', '$', ' '].contains c then some (plain quoted, [c])
    else none
  | reference quoted name =>
    if isReferenceChar c then some (reference quoted (name ++ [c]), [])
    else if c = '{' ∧ name = [] then some (braced quoted [], [])
    else if c = '$' then some (reference quoted [], lookUp environment name)
    else some (plain quoted, lookUp environment name ++ [c])
  | braced quoted name =>
    some (if c = '}' then (plain quoted, lookUp environment name)
      else (braced quoted (name ++ [c]), []))
  | behind =>
    if c = ' ' ∨ c = '\t' then some (behind, [])
    else if c = '#' then some (comment, [])
    else none
  | comment => some (comment, [])

/-- What the end of a value adds. Quotes and braces have to be closed. -/
def Place.finish (environment : List (String × String)) : Place → Option (List Char)
  | plain false | escape false | behind | comment => some []
  | reference false name => some (lookUp environment name)
  | _ => none

/-- The value that characters stand for. -/
def Place.read (environment : List (String × String)) (place : Place) :
    List Char → Option (List Char)
  | [] => place.finish environment
  | c :: cs => do
    let (place, added) ← place.step environment c
    return added ++ (← place.read environment cs)

/-- In single quotes every text that has none stands for itself. -/
theorem Place.read_single (environment : List (String × String)) {cs : List Char}
    (h : '\'' ∉ cs) : (plain false).read environment ('\'' :: cs ++ ['\'']) = some cs := by
  have hinside : single.read environment (cs ++ ['\'']) = some cs := by
    induction cs with
    | nil => rfl
    | cons c cs ih =>
      rw [List.mem_cons, not_or] at h
      have hc : c ≠ '\'' := fun heq => h.1 heq.symm
      simp [Place.read, Place.step, hc, ih h.2]
  rw [List.cons_append, Place.read]
  simp [Place.step, hinside]

/-- What an entry comes to. -/
inductive Entry where
  | nothing
  | assignment (name value : String)
  | malformed
  deriving DecidableEq, Repr

/-- The name at the start of characters, and what follows it and the blanks after it. -/
def splitName? (cs : List Char) : Option (List Char × List Char) :=
  match cs with
  | [] => none
  | c :: _ =>
    if c.isAlpha || c == '_' then
      some (cs.takeWhile isNameChar, dropBlanks (cs.dropWhile isNameChar))
    else none
where
  isNameChar (c : Char) : Bool := c.isAlphanum || c == '_' || c == '.'

/-- What follows an equals sign and the blanks after it. -/
def splitEquals? : List Char → Option (List Char)
  | '=' :: cs => some (dropBlanks cs)
  | _ => none

/-- The name and the characters of the value of an assignment, which may start with the word
`export`. -/
def splitAssignment? (cs : List Char) : Option (List Char × List Char) := do
  let (name, rest) ← splitName? cs
  match splitEquals? rest with
  | some value => return (name, value)
  | none =>
    if name ≠ "export".toList then none
    else
      let (name, rest) ← splitName? rest
      return (name, ← splitEquals? rest)

/-- Reads an entry without blanks at its ends. -/
def Entry.read (environment : List (String × String)) (cs : List Char) : Entry :=
  if cs.isEmpty ∨ cs.head? = some '#' then nothing
  else match splitAssignment? cs with
  | none => malformed
  | some (name, value) =>
    let value := if value.head? = some '#' then some []
      else (Place.plain false).read environment value
    match value with
    | none => malformed
    | some value => assignment (String.ofList name) (String.ofList value)

/-- Where a line leaves an entry, which goes on in the next line unless it ends in a word. -/
inductive Ending where
  | word
  | blank
  | escape
  | quoted (quote : Char)
  | quotedEscape (quote : Char)
  deriving DecidableEq, Repr

def Ending.step (ending : Ending) (c : Char) : Ending :=
  match ending with
  | escape => word
  | quoted quote =>
    if c = '\\' then quotedEscape quote else if c = quote then word else quoted quote
  | quotedEscape quote => quoted quote
  | word | blank =>
    if c = '\\' then escape
    else if c = '"' ∨ c = '\'' then quoted c
    else if ending = word ∧ isBlank c ∧ c ≠ '\n' ∧ c ≠ '\r' then blank
    else word

/-- Reads a line of an entry: what of it counts, and where it leaves the entry, unless a comment
ends it. -/
def Ending.read (ending : Ending) : List Char → List Char × Option Ending
  | [] => ([], some ending)
  | c :: cs =>
    if ending = blank ∧ c = '#' then ([], none)
    else
      let (kept, last) := (ending.step c).read cs
      (c :: kept, last)

/-- Adds a variable unless there is one with its name. -/
def add (environment : List (String × String)) (name value : String) : List (String × String) :=
  if (environment.lookup name).isSome then environment else environment ++ [(name, value)]

/-- Reads the lines that are left, `held` being the entry as far as it has been read. Each variable
holds for the entries after it. -/
def readLines (environment : List (String × String)) (ending : Ending) (held : List Char) :
    List (List Char) → List (String × String)
  | [] => environment
  | line :: lines =>
    if (dropBlanks (held ++ line)).head? = some '#' then readLines environment .word [] lines
    else
      let last := (ending.read line).2.getD .word
      if last ≠ .word then readLines environment last (held ++ line) lines
      else match Entry.read environment (trimChars (held ++ (ending.read line).1)) with
      | .nothing => readLines environment .word [] lines
      | .assignment name value => readLines (add environment name value) .word [] lines
      | .malformed => environment

/-- The lines of a file, their ends included, up to the first that is not UTF-8. -/
def linesOf (file : List UInt8) : List (List Char) :=
  let parts := (Token.unmarked file).splitOn 10
  let lines := parts.dropLast.map (· ++ [10]) ++ parts.getLast?.toList.filter (! ·.isEmpty)
  (lines.map Utf8.decode).takeWhile Except.isOk |>.filterMap fun line =>
    line.toOption.map String.toList

/-- The variables that hold once those of a file are there too. -/
def load (file : List UInt8) (environment : List (String × String)) : List (String × String) :=
  readLines environment .word [] (linesOf file)

theorem lookup_add {environment : List (String × String)} {name : String}
    (h : (environment.lookup name).isSome) (name' value : String) :
    (add environment name' value).lookup name = environment.lookup name := by
  rw [add]
  split
  · rfl
  · rw [List.lookup_append, Option.or_of_isSome h]

/-- A file does not change the variables that are there. -/
theorem lookup_load {environment : List (String × String)} {name : String}
    (h : (environment.lookup name).isSome) (file : List UInt8) :
    (load file environment).lookup name = environment.lookup name := by
  rw [load]
  generalize linesOf file = lines
  generalize Ending.word = ending
  generalize ([] : List Char) = held
  induction lines generalizing environment ending held with
  | nil => rfl
  | cons line lines ih =>
    rw [readLines]
    split
    · exact ih h ..
    · dsimp only
      split
      · exact ih h ..
      · split
        · exact ih h ..
        · next name' value _ =>
          have hadd := lookup_add h name' value
          rw [← hadd]
          apply ih
          rwa [hadd]
        · rfl

/-- A value over two lines refers to a variable before it. The second value of a name does not
count, and neither does what follows an entry that is malformed. -/
example : load (Utf8.encode "A=1\nexport B='$A' # two\nC=\"${A}\nb\"\nA=2\nD E\nF=3") [] =
    [("A", "1"), ("B", "$A"), ("C", "1\nb")] := by decide +kernel

end ContactCards.Variables
