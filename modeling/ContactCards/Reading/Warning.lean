/-!
Warnings about single properties, which never keep a card from being read.
-/

namespace ContactCards

/-- The reader's own warnings. -/
inductive WarningCode where
  | skipped
  | unreadable
  | embeddedCard
  deriving DecidableEq, Repr

namespace WarningCode

def all : List WarningCode := [skipped, unreadable, embeddedCard]

def number : WarningCode → Nat
  | skipped => 22
  | unreadable => 33
  | embeddedCard => 34

def ofNumber? (n : Nat) : Option WarningCode :=
  all.find? (·.number == n)

def summary : WarningCode → String
  | skipped => "Property has requested that it be skipped"
  | unreadable =>
    "Property value could not be parsed and was stored as an XML property instead"
  | embeddedCard => "Embedded vCards are not supported in xCard documents"

end WarningCode

/-- A warning, with the local name of the property that it is about. -/
structure Warning where
  property : Option String
  code : Option WarningCode
  message : String
  detail : Option String
  deriving DecidableEq, Repr

namespace Warning

/-- One of the reader's own warnings, with a reason unless that is empty. -/
def coded (property : Option String) (code : WarningCode) (reason : Option String) : Warning :=
  let message := match reason.filter (· != "") with
    | some reason => code.summary ++ ": " ++ reason
    | none => code.summary
  ⟨property, some code, message, none⟩

/-- A decoder's remark. -/
def remark (property : Option String) (message : String) : Warning :=
  ⟨property, none, message, none⟩

def withDetail (w : Warning) (detail : String) : Warning :=
  { w with detail := some detail }

def render (w : Warning) : String :=
  (w.property.map (· ++ " property: ")).getD "" ++
    (w.code.map fun code => "(code " ++ toString code.number ++ ") ").getD "" ++
    w.message ++ (w.detail.map fun detail => " [" ++ detail ++ "]").getD ""

end Warning

end ContactCards
