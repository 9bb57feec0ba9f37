import ContactCards.Decode.Registry
import ContactCards.Markup.Draft
import ContactCards.Reading.ParameterBlock
import ContactCards.Reading.Path
import ContactCards.Reading.Warning

/-!
From events to cards. A reader is the place between two events: the path of open elements, the
character data since the last tag, and the card, group and property being read. Elements around the
collection are transparent, and elements in the collection that are no cards are passed over.
-/

namespace ContactCards

/-- Where a property stands: in the card, or in a group with a label or without. -/
inductive Place where
  | card
  | group (label : Option String)
  deriving DecidableEq, Repr

/-- The group label of the properties at a place. -/
def Place.label : Place → Option String
  | card => none
  | group label => label

/-- A property element that has not ended yet. -/
structure OpenProperty where
  name : ExpandedName
  /-- The path up to the property element. -/
  base : List ExpandedName
  place : Place
  draft : Draft
  block : ParameterBlock
  deriving DecidableEq, Repr

/-- A property element that has ended: what its decoder is told, and the label of its group. -/
structure PropertyElement where
  name : ExpandedName
  label : Option String
  /-- The element without its parameter block. -/
  element : Element
  parameters : Parameters
  deriving DecidableEq, Repr

/-- Ends a property element, `text` being the character data since the last tag. -/
def OpenProperty.close (p : OpenProperty) (text : String) : PropertyElement :=
  ⟨p.name, p.place.label, (p.draft.addText text).finish, p.block.parameters⟩

/-- Where a reader stands inside a card. -/
inductive Scope where
  | between (place : Place)
  | property (p : OpenProperty)
  deriving DecidableEq, Repr

/-- Where a reader stands in a document. -/
inductive Stage where
  | outside
  | collection
  | card (card : Card) (scope : Scope)
  deriving DecidableEq, Repr

/-- A card as it is delivered. -/
structure Delivery where
  card : Card
  warnings : List Warning
  deriving DecidableEq, Repr

structure Reader where
  path : Path
  /-- The character data since the last tag. -/
  text : String
  /-- The warnings about the card being read. -/
  warnings : List Warning
  stage : Stage
  deriving DecidableEq, Repr

namespace Reader

def empty : Reader := ⟨.empty, "", [], .outside⟩

/-- What a property element comes to: a property or none, and warnings. Failure of a decoder is
never an error: what cannot be read is kept as it is. -/
def outcome (r : Registry) (name : ExpandedName) (e : Element) (ps : Parameters) :
    Option Property × List Warning :=
  let about := some name.localName
  match r.get? name with
  | none => (some (Decoder.keep e ps).property, [])
  | some d =>
    match d.decode e ps with
    | .ok found => (some found.property, found.remarks.map (Warning.remark about))
    | .error (.skip reason) => (none, [.coded about .skipped (some reason)])
    | .error (.unreadable reason) =>
      (some (Decoder.keep e ps).property,
        [(Warning.coded about .unreadable (some reason)).withDetail e.render])
    | .error .embeddedCard => (none, [.coded about .embeddedCard none])

/-- Adds what a finished property element comes to. Its group is the one it stands in. -/
def conclude (r : Registry) (card : Card) (warnings : List Warning) (p : PropertyElement) :
    Card × List Warning :=
  let (found, more) := outcome r p.name p.element p.parameters
  let card := match found with
    | some q => card.add { q with group := p.label }
    | none => card
  (card, warnings ++ more)

/-- Opens a property element; its path is `base`. -/
def openProperty (place : Place) (base : List ExpandedName) (name : ExpandedName)
    (attributes : List Attribute) : OpenProperty :=
  ⟨name, base, place, Draft.start name attributes, .empty⟩

/-- An element starts inside a property. Nothing of the parameter block becomes part of the
property's own content. -/
def startInProperty (path : Path) (text : String) (p : OpenProperty) (name : ExpandedName)
    (attributes : List Attribute) : OpenProperty :=
  if path.leadsThrough p.base [.parameters] then
    { p with block := p.block.start ((path.push name).below (p.base.length + 1)) }
  else if path.isAt p.base ∧ name = .parameters then
    { p with draft := p.draft.addText text }
  else
    { p with draft := (p.draft.addText text).openChild name attributes }

/-- An element starts inside a card. -/
def startInCard (path : Path) (text : String) (scope : Scope) (name : ExpandedName)
    (attributes : List Attribute) : Scope :=
  match scope with
  | .between .card =>
    if name = .group then .between (.group (attribute? attributes "name"))
    else .property (openProperty .card (path.push name).names name attributes)
  | .between place => .property (openProperty place (path.push name).names name attributes)
  | .property p => .property (startInProperty path text p name attributes)

/-- An element starts. -/
def start (reader : Reader) (name : ExpandedName) (attributes : List Attribute) : Reader :=
  match reader.stage with
  | .outside =>
    if name = .vcards then
      { reader with path := reader.path.push name, text := "", stage := .collection }
    else { reader with text := "" }
  | .collection =>
    let stage := if reader.path.isAt [.vcards] ∧ name = .vcard
      then .card (.empty .four) (.between .card) else .collection
    { reader with path := reader.path.push name, text := "", stage := stage }
  | .card card scope =>
    let scope := startInCard reader.path reader.text scope name attributes
    { reader with path := reader.path.push name, text := "", stage := .card card scope }

/-- An element ends inside a property, but not the property itself. -/
def finishInProperty (path : Path) (text : String) (p : OpenProperty) : OpenProperty :=
  if path.isInside p.base [.parameters] then p
  else if path.leadsThrough p.base [.parameters] then
    { p with block := p.block.finish (path.below (p.base.length + 1)) text }
  else
    { p with draft := (p.draft.addText text).closeChild }

/-- The innermost element ends, and a card may be complete with it. -/
def finish (r : Registry) (reader : Reader) : Reader × Option Delivery :=
  let path := reader.path.pop
  match reader.stage with
  | .outside => ({ reader with text := "" }, none)
  | .collection =>
    let stage := if path.isEmpty then .outside else .collection
    ({ reader with path, text := "", stage }, none)
  | .card card (.between .card) =>
    (⟨path, "", [], .collection⟩, some ⟨card, reader.warnings⟩)
  | .card card (.between (.group _)) =>
    ({ reader with path, text := "", stage := .card card (.between .card) }, none)
  | .card card (.property p) =>
    if reader.path.isAt p.base then
      let (card, warnings) := conclude r card reader.warnings (p.close reader.text)
      (⟨path, "", warnings, .card card (.between p.place)⟩, none)
    else
      let p := finishInProperty reader.path reader.text p
      ({ reader with path, text := "", stage := .card card (.property p) }, none)

/-- Reads an event: the place after it, and the card that it completes. -/
def step (r : Registry) (reader : Reader) : Event → Reader × Option Delivery
  | .start name attributes => (reader.start name attributes, none)
  | .characters s => ({ reader with text := reader.text ++ s }, none)
  | .finish => reader.finish r

end Reader

end ContactCards
