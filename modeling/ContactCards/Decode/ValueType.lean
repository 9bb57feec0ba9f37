import ContactCards.Card.Property

/-!
Value types: the elements that wrap the text of a property's value and say how to read it.
-/

namespace ContactCards

/-- Why an element gives no property. -/
inductive DecodeFault where
  | skip (reason : String)
  | unreadable (reason : String)
  | embeddedCard
  deriving DecidableEq, Repr

def DecodeFault.message : DecodeFault → String
  | .skip reason => "skipped: " ++ reason
  | .unreadable reason => "cannot parse: " ++ reason
  | .embeddedCard => "embedded vCard"

/-- How to read a text as a value. -/
inductive ValueType where
  | text
  | uri
  | languageTag
  | utcOffset
  | dateAndOrTime
  | date
  | dateTime
  | time
  | timestamp
  deriving DecidableEq, Repr

namespace ValueType

/-- The local name of the element for a value type. -/
def element : ValueType → String
  | text => "text"
  | uri => "uri"
  | languageTag => "language-tag"
  | utcOffset => "utc-offset"
  | dateAndOrTime => "date-and-or-time"
  | date => "date"
  | dateTime => "date-time"
  | time => "time"
  | timestamp => "timestamp"

def all : List ValueType :=
  [text, uri, languageTag, utcOffset, dateAndOrTime, date, dateTime, time, timestamp]

def ofElement? (element : String) : Option ValueType :=
  all.find? (·.element == element)

/-- A sign, then hours or hours and minutes in two digits each. -/
def isUtcOffset : List Char → Bool
  | c :: digits =>
    (c == '+' || c == '-') && (digits.length == 2 || digits.length == 4) &&
      digits.all Char.isDigit
  | [] => false

/-- Reads a text as a value. Only free text keeps the blanks around it. -/
def decode (type : ValueType) (s : String) : Except DecodeFault Value :=
  match type with
  | text => .ok (.text s)
  | uri => .ok (.uri (trim s))
  | languageTag => .ok (.languageTag (trim s))
  | utcOffset =>
    if isUtcOffset (trimChars s.toList) then .ok (.text (trim s))
    else .error (.unreadable ("invalid UTC offset: " ++ trim s))
  | dateAndOrTime | date | dateTime | time =>
    match DateOrTime.parse? s with
    | some d => .ok (.dateOrTime d)
    | none => .error (.unreadable ("invalid date/time: " ++ trim s))
  | timestamp =>
    match Timestamp.parse? s with
    | some t => .ok (.timestamp t)
    | none => .error (.unreadable ("invalid timestamp: " ++ trim s))

/-- The first child element of one of the types, the types tried in order. -/
def first? (e : Element) : List ValueType → Option (ValueType × Element)
  | [] => none
  | type :: types =>
    match e.firstCardElement? type.element with
    | some child => some (type, child)
    | none => first? e types

/-- What is wrong with an element that has no child of any of the types. -/
def missing (e : Element) (types : List ValueType) : DecodeFault :=
  .unreadable ("<" ++ e.localName ++ "> has no " ++
    " or ".intercalate (types.map fun type => "<" ++ type.element ++ ">") ++ " element")

end ValueType

end ContactCards
