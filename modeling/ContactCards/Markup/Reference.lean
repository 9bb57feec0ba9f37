import ContactCards.Text.Numeral

/-!
References to characters, by name or by number, and their inverse, escaping. Running text and
attribute values follow different rules: a numeral in running text may have a plus sign and may
name the character zero, one in a value may not.
-/

namespace ContactCards.Reference

/-- The characters that every document may call by name. -/
def named : String → Option Char
  | "amp" => some '&'
  | "lt" => some '<'
  | "gt" => some '>'
  | "apos" => some '\''
  | "quot" => some '"'
  | _ => none

/-- The character with a code point; surrogates are none. -/
def scalar (code : Nat) : Option Char :=
  if code.isValidChar then some (Char.ofNat code) else none

/-- The character that `&name;` stands for in running text. -/
def expand (name : String) : Option Char :=
  match name.toList with
  | '#' :: 'x' :: digits => (Numeral.readSigned 16 Numeral.max32 digits).toOption.bind scalar
  | '#' :: digits => (Numeral.readSigned 10 Numeral.max32 digits).toOption.bind scalar
  | _ => named name

/-- Why the references of an attribute value have no meaning. Positions are in bytes. -/
inductive Fault where
  | unterminated (first last : Nat)
  | unknown (first last : Nat) (name : String)
  | sign
  | zero
  | notScalar (code : Nat)
  | numeral (fault : Numeral.Fault)
  deriving DecidableEq, Repr

/-- The text of a fault that lies in the numeral of a reference. -/
def Fault.numeralMessage? : Fault → Option String
  | .sign => some "unexpected number sign"
  | .zero => some "0x0 character is not permitted in XML"
  | .notScalar code => some ("`" ++ toString code ++ "` is not a valid codepoint")
  | .numeral fault => some fault.message
  | .unterminated .. | .unknown .. => none

def Fault.message : Fault → String
  | .unterminated first last =>
    s!"Error while escaping character at range {first}..{last}: Cannot find ';' after '&'"
  | .unknown first last name => s!"at {first}..{last}: unrecognized entity `{name}`"
  | fault => "invalid character reference: " ++ fault.numeralMessage?.getD ""

/-- The texts of a fault and of what caused it, outermost first. -/
def Fault.chain (fault : Fault) : List String :=
  fault.message :: match fault with
    | .numeral inner => [inner.message, inner.message]
    | fault => fault.numeralMessage?.toList

/-- The character with the numeral `digits` in an attribute value. -/
def readCode (base : Nat) (digits : List Char) : Except Fault Char :=
  if digits.head? = some '+' ∨ digits.head? = some '-' then .error .sign
  else match Numeral.read base Numeral.max32 digits with
    | .error fault => .error (.numeral fault)
    | .ok 0 => .error .zero
    | .ok code => ((scalar code).map Except.ok).getD (.error (.notScalar code))

/-- The character that `&name;` stands for in an attribute value, the name starting at byte
`first` of the value. -/
def expandInValue (first last : Nat) (name : List Char) : Except Fault Char :=
  match name with
  | '#' :: 'x' :: digits => readCode 16 digits
  | '#' :: digits => readCode 10 digits
  | _ => ((named (String.ofList name)).map Except.ok).getD
      (.error (.unknown first last (String.ofList name)))

/-- The bytes that characters take. -/
def byteLength : List Char → Nat
  | [] => 0
  | c :: cs => c.utf8Size + byteLength cs

/-- Ends the name of a reference in an attribute value. -/
def isNameChar (c : Char) : Bool :=
  c != '&' && c != ';'

/-- Expands the references of what is left of a value that is `total` bytes long. -/
def unescapeFrom (total : Nat) : (position : Nat) → List Char → Except Fault (List Char)
  | _, [] => .ok []
  | position, c :: cs =>
    if c = '&' then
      let name := cs.takeWhile isNameChar
      let last := position + 1 + byteLength name
      match _h : cs.dropWhile isNameChar with
      | ';' :: rest => do
        let expanded ← expandInValue (position + 1) last name
        return expanded :: (← unescapeFrom total (last + 1) rest)
      | _ => .error (.unterminated position total)
    else (unescapeFrom total (position + c.utf8Size) cs).map (c :: ·)
termination_by _ cs => cs.length
decreasing_by
  · have := (cs.dropWhile_suffix isNameChar).length_le
    simp only [_h, List.length_cons] at this ⊢
    omega
  · simp

/-- Expands the references of an attribute value. -/
def unescape (value : String) : Except Fault String :=
  (unescapeFrom value.utf8ByteSize 0 value.toList).map String.ofList

/-- A character as it is written into a document. -/
def escapeChar : Char → List Char
  | '<' => "&lt;".toList
  | '>' => "&gt;".toList
  | '&' => "&amp;".toList
  | '\'' => "&apos;".toList
  | '"' => "&quot;".toList
  | c => [c]

/-- Writes a text so that it can stand anywhere in a document. -/
def escape (s : String) : String :=
  String.ofList (s.toList.flatMap escapeChar)

end ContactCards.Reference
