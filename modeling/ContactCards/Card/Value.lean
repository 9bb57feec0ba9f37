import ContactCards.Calendar.Timestamp
import ContactCards.Card.Structured
import ContactCards.Markup.Element

/-!
Values of properties, and the line of text that shows each of them.
-/

namespace ContactCards

/-- A date, time or both. Only complete dates are taken apart; reduced, truncated and combined forms
are kept as they were written. -/
inductive DateOrTime where
  | date (date : Date)
  | partly (written : String)
  | text (free : String)
  deriving DecidableEq, Repr

namespace DateOrTime

/-- Characters of the forms of dates and times. -/
def isFormChar (c : Char) : Bool :=
  c.isDigit || c == '-' || c == 'T' || c == 'Z' || c == '+' || c == ':'

/-- Reads a date or time, blanks around it not counting. -/
def parse? (s : String) : Option DateOrTime :=
  let cs := trimChars s.toList
  if cs.isEmpty then none
  else match Date.parse? cs with
    | some d => some (.date d)
    | none => if cs.all isFormChar then some (.partly (String.ofList cs)) else none

/-- The complete date, if there is one. -/
def date? : DateOrTime → Option Date
  | date d => some d
  | _ => none

def render : DateOrTime → String
  | date d => d.render
  | partly s => s
  | text s => s

end DateOrTime

/-- The value of a property. -/
inductive Value where
  | text (text : String)
  | textList (texts : List String)
  | uri (uri : String)
  | dateOrTime (value : DateOrTime)
  | timestamp (value : Timestamp)
  | name (value : PersonName)
  | address (value : Address)
  | organization (value : Organization)
  | gender (value : Gender)
  | languageTag (tag : String)
  | xml (element : Element)
  deriving DecidableEq, Repr

namespace Value

/-- The value as text, if it is a text or a language tag. -/
def asText? : Value → Option String
  | text s => some s
  | languageTag s => some s
  | _ => none

def asUri? : Value → Option String
  | uri s => some s
  | _ => none

/-- The text that shows a value. -/
def render : Value → String
  | text s => s
  | textList texts => ",".intercalate texts
  | uri s => s
  | dateOrTime d => d.render
  | timestamp t => t.render
  | name n => n.display
  | address a => a.display
  | organization o => o.render
  | gender g => g.render
  | languageTag s => s
  | xml e => e.render

end Value

end ContactCards
