import ContactCards.Decode.ValueType

/-!
Decoders: one for each kind of property element. A decoder is told the element, without its
parameter block, and the parameters.
-/

namespace ContactCards

/-- A property, and remarks on how it was read. -/
structure Decoded where
  property : Property
  remarks : List String
  deriving DecidableEq, Repr

/-- Reads the elements of one name as properties. -/
structure Decoder where
  element : ExpandedName
  decode : Element → Parameters → Except DecodeFault Decoded

namespace Decoder

/-- A property without remarks. -/
def plain (name : String) (value : Value) (raw : String) (ps : Parameters) : Decoded :=
  ⟨{ Property.ofValue name value raw with parameters := ps }, []⟩

/-- What to say of values after the first. -/
def ignoredRemark (type : ValueType) (extra : Nat) : List String :=
  if 0 < extra then [toString extra ++ " additional <" ++ type.element ++ "> value(s) ignored"]
  else []

/-- One value of the first of the given types that occurs. -/
def single (element name : String) (types : List ValueType) : Decoder where
  element := .card element
  decode e ps :=
    match ValueType.first? e types with
    | none => .error (ValueType.missing e types)
    | some (type, child) => do
      let value ← type.decode child.text
      let extra := (e.cardElementsNamed type.element).length - 1
      return ⟨(plain name value child.text ps).property, ignoredRemark type extra⟩

def text (element name : String) : Decoder :=
  single element name [.text]

def uri (element name : String) : Decoder :=
  single element name [.uri]

def uriOrText (element name : String) : Decoder :=
  single element name [.uri, .text]

/-- All texts of an element, in order. -/
def textList (element name : String) : Decoder where
  element := .card element
  decode e ps :=
    let texts := (e.cardElementsNamed ValueType.text.element).map Element.text
    if texts.isEmpty then .error (ValueType.missing e [.text])
    else .ok (plain name (.textList texts) (",".intercalate texts) ps)

/-- The types of a date, the most precise first. -/
def dateTypes : List ValueType :=
  [.date, .dateTime, .dateAndOrTime, .time, .text]

/-- A date, or free text in its place. -/
def date (element name : String) : Decoder where
  element := .card element
  decode e ps :=
    match ValueType.first? e dateTypes with
    | none => .error (ValueType.missing e dateTypes)
    | some (.text, child) => .ok (plain name (.dateOrTime (.text child.text)) child.text ps)
    | some (type, child) => do
      return plain name (← type.decode child.text) child.text ps

/-- The time of the last change. -/
def revision : Decoder where
  element := .card "rev"
  decode e ps :=
    match ValueType.first? e [.timestamp] with
    | none => .error (ValueType.missing e [.timestamp])
    | some (type, child) => do
      return plain "REV" (← type.decode child.text) child.text ps

/-- Adds the texts of child elements to the components that they name. Nothing is left to add if
no child names one; an empty text names its component and adds nothing. -/
def collect {α Part : Type} (ofElement? : String → Option Part) (add : α → Part → String → α)
    (empty : α) (children : List Element) : Option α :=
  children.foldl step none
where
  step (found : Option α) (child : Element) : Option α :=
    match ofElement? child.localName with
    | none => found
    | some part =>
      let value := found.getD empty
      some (if child.text.isEmpty then value else add value part child.text)

/-- What is wrong with an element without any component. -/
def noComponents (e : Element) : DecodeFault :=
  .unreadable ("<" ++ e.localName ++ "> has no component elements")

def personName : Decoder where
  element := .card "n"
  decode e ps :=
    match collect NamePart.ofElement? PersonName.add .empty e.cardElements with
    | none => .error (noComponents e)
    | some n => .ok (plain "N" (.name n) n.render ps)

def address : Decoder where
  element := .card "adr"
  decode e ps :=
    match collect AddressPart.ofElement? Address.add .empty e.cardElements with
    | none => .error (noComponents e)
    | some a => .ok (plain "ADR" (.address a) a.render ps)

def organization : Decoder where
  element := .card "org"
  decode e ps :=
    match Organization.ofComponents?
        ((e.cardElementsNamed ValueType.text.element).map Element.text) with
    | none => .error (ValueType.missing e [.text])
    | some o => .ok (plain "ORG" (.organization o) o.render ps)

/-- A sex, which may be blank, and an identity, which is none if it is empty. -/
def gender : Decoder where
  element := .card "gender"
  decode e ps :=
    match e.firstCardElement? "sex" with
    | none => .error (.unreadable "<gender> has no <sex> element")
    | some child => do
      let letter := trim child.text
      let sex ← if letter.isEmpty then pure none else
        match Sex.parse? child.text with
        | some sex => pure (some sex)
        | none => throw (.unreadable ("unknown sex value: " ++ letter))
      let identity := ((e.firstCardElement? "identity").map Element.text).filter (! ·.isEmpty)
      return plain "GENDER" (.gender ⟨sex, identity⟩)
        (letter ++ (identity.map (";" ++ ·)).getD "") ps

/-- Keeps an element as it is. -/
def keep (e : Element) (ps : Parameters) : Decoded :=
  plain "XML" (.xml e) e.render ps

/-- Keeps every element as it is. -/
def raw : Decoder where
  element := .card "xml"
  decode e ps := .ok (keep e ps)

end Decoder

end ContactCards
