import ContactCards.Text.Caseless
import ContactCards.Text.Shortest
import ContactCards.Toml.Document

/-!
Settings, laid over each other: defaults, then a file, then variables. Values are converted where
their text allows it.
-/

namespace ContactCards

structure Settings where
  /-- Which messages are logged. -/
  level : String
  /-- How many cards are read from an input at most. -/
  limit : Option Nat
  showWarnings : Bool
  deriving DecidableEq, Repr

namespace Settings

/-- Why there are no settings. -/
inductive Fault where
  /-- A file that cannot be read, or a value that cannot be converted. -/
  | invalid
  /-- A limit of no cards. -/
  | limitZero
  deriving DecidableEq, Repr

def Fault.message : Fault → String
  | .invalid => "Configuration error"
  | .limitZero => "Invalid configuration: reader.max_cards must be at least 1"

mutual

/-- Lays a value over another one. Tables are joined, anything else takes the place of what was
there. -/
def overlay (base : Option Toml) : Toml → Toml
  | .table kind es =>
    match base with
    | some (.table _ old) => .table kind (overlayEntries old es)
    | _ => .table kind (overlayEntries [] es)
  | value => value

/-- Lays the entries of a table over those of another one. -/
def overlayEntries (old : Entries) : Entries → Entries
  | [] => old
  | (key, value) :: es =>
    let value := overlay (old.lookup key) value
    let old := if (old.lookup key).isSome then old.replace key value else old ++ [(key, value)]
    overlayEntries old es

end

/-- A value as the only leaf below a path. -/
def nested (path : List String) (value : Toml) : Toml :=
  path.foldr (fun key value => .table .implicit [(key, value)]) value

/-- The parts of a key that names a place: letters, digits, dashes and underscores between dots. -/
def keyPath (key : String) : List String :=
  let parts := key.toList.splitOn '.'
  if parts.all fun part => ! part.isEmpty && part.all Toml.isBareKeyChar
  then parts.map String.ofList else [key]

/-- Lays entries over a table, their keys naming places. -/
def layer (base : Toml) (es : Entries) : Toml :=
  es.foldl (fun base (key, value) => overlay (some base) (nested (keyPath key) value)) base

/-- The settings that hold unless others are given. -/
def defaults : Toml :=
  .table .implicit [("logging", .table .implicit [("level", .string "info")]),
    ("reader", .table .implicit [("show_warnings", .boolean true)])]

/-- The value at a place of a table, whose tables above it must be there. -/
def valueAt? (outer key : String) : Toml → Option (Option Toml)
  | .table _ es =>
    match es.lookup outer with
    | some (.table _ sub) => some (sub.lookup key)
    | _ => none
  | _ => none

/-- A value as text. -/
def asText? : Toml → Option String
  | .string s => some s
  | .boolean b => some (toString b)
  | .integer n => some (toString n)
  | .float x => some (renderFloat x)
  | _ => none

/-- A value as a count. A fraction is rounded, half up, and what is out of range is cut off. -/
def asCount? : Toml → Option Nat
  | .string s =>
    if ["true", "on", "yes"].contains (lower s) then some 1
    else if ["false", "off", "no"].contains (lower s) then some 0
    else (Numeral.readSigned 10 Numeral.max64 s.toList).toOption
  | .boolean b => some b.toNat
  | .integer n => if 0 ≤ n then some n.toNat else none
  | .float x => some x.round.toUInt64.toNat
  | _ => none

/-- A value as a choice. -/
def asChoice? : Toml → Option Bool
  | .string s =>
    if ["1", "true", "on", "yes"].contains (lower s) then some true
    else if ["0", "false", "off", "no"].contains (lower s) then some false
    else none
  | .boolean b => some b
  | .integer n => some (n != 0)
  | .float x => some (x != 0.0)
  | _ => none

/-- The settings of a table of values. -/
def ofTable (table : Toml) : Except Fault Settings := do
  let some (some level) := (valueAt? "logging" "level" table).map (·.bind asText?)
    | throw .invalid
  let some (some showWarnings) := (valueAt? "reader" "show_warnings" table).map (·.bind asChoice?)
    | throw .invalid
  match valueAt? "reader" "max_cards" table with
  | some none => return ⟨level, none, showWarnings⟩
  | some (some value) =>
    match asCount? value with
    | none => throw .invalid
    | some 0 => throw .limitZero
    | some most => return ⟨level, some most, showWarnings⟩
  | none => throw .invalid

/-- What starts the names of variables. -/
def variableOpening : List Char := "xcard_".toList

/-- The dots of a name, each written as two underscores. -/
def dotted : List Char → List Char
  | '_' :: '_' :: cs => '.' :: dotted cs
  | c :: cs => c :: dotted cs
  | [] => []

/-- A number with a point, an exponent or both, or a word for a special number. -/
def readFloat? (cs : List Char) : Option Float :=
  let (negative, cs) := Toml.splitSign cs
  let word := lower (String.ofList cs)
  let whole := cs.takeWhile Char.isDigit
  let afterWhole := cs.dropWhile Char.isDigit
  let (places, rest) := match afterWhole with
    | '.' :: rest => (rest.takeWhile Char.isDigit, rest.dropWhile Char.isDigit)
    | rest => ([], rest)
  let exponent := match rest with
    | [] => some 0
    | mark :: rest =>
      let (negative, digits) := Toml.splitSign rest
      if (mark = 'e' ∨ mark = 'E') ∧ ! digits.isEmpty ∧ digits.all Char.isDigit then
        some (if negative then -(Toml.naturalOf 10 digits : Int) else Toml.naturalOf 10 digits)
      else none
  if word = "inf" ∨ word = "infinity" then some (if negative then -(1.0 / 0.0) else 1.0 / 0.0)
  else if word = "nan" then some (0.0 / 0.0)
  else if whole.isEmpty ∧ places.isEmpty then none
  else exponent.map fun e => Toml.floatOf negative (whole ++ places) (e - places.length)

/-- What the text of a variable stands for: a truth value, a whole number, another number, or
itself. -/
def ofVariableText (s : String) : Toml :=
  if lower s = "true" then .boolean true
  else if lower s = "false" then .boolean false
  else
    let whole : Option Int := match s.toList with
      | '-' :: cs => (Numeral.read 10 (Numeral.maxSigned64 + 1) cs).toOption.map fun n => -(n : Int)
      | cs => (Numeral.readSigned 10 Numeral.maxSigned64 cs).toOption.map fun n => (n : Int)
    match whole with
    | some n => .integer n
    | none => ((readFloat? s.toList).map Toml.float).getD (.string s)

/-- The entry of a variable, unless it is empty or is none of ours. -/
def ofVariable? (name value : String) : Option (String × Toml) :=
  let chars := (lower name).toList
  if value.isEmpty ∨ ¬ variableOpening.isPrefixOf chars then none
  else some (String.ofList (dotted (chars.drop variableOpening.length)), ofVariableText value)

/-- The settings that a file, if there is one, and variables change. -/
def load (file : Option String) (environment : List (String × String)) : Except Fault Settings :=
  match (file.map Toml.parse?).getD (some []) with
  | none => .error .invalid
  | some es =>
    let vs := environment.filterMap fun (name, value) => ofVariable? name value
    ofTable (layer (layer defaults es) vs)

/-- The settings that a file alone changes. -/
def ofFile (file : String) : Except Fault Settings :=
  load (some file) []

end Settings

end ContactCards
