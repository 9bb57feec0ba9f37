import ContactCards.Card.Parameter
import ContactCards.Card.Value

/-!
Properties, and cards as lists of them. Names are in upper case, and are looked up whatever the case
of their letters.
-/

namespace ContactCards

/-- A property of a card: its decoded value, and the raw text that it was decoded from. -/
structure Property where
  group : Option String
  name : String
  parameters : Parameters
  value : Value
  raw : String
  deriving DecidableEq, Repr

namespace Property

/-- A property outside any group and without parameters. -/
def ofValue (name : String) (value : Value) (raw : String) : Property :=
  ⟨none, upper name, .empty, value, raw⟩

def ofText (name text : String) : Property :=
  ofValue name (.text text) text

def ofUri (name uri : String) : Property :=
  ofValue name (.uri uri) uri

/-- Whether a property has a name. -/
def isNamed (p : Property) (name : String) : Bool :=
  sameIgnoringCase p.name name

end Property

/-- The version of the card format. -/
inductive Version where
  | three
  | four
  deriving DecidableEq, Repr

def Version.render : Version → String
  | three => "3.0"
  | four => "4.0"

/-- A contact card. -/
structure Card where
  version : Version
  properties : List Property
  deriving DecidableEq, Repr

namespace Card

def empty (version : Version) : Card := ⟨version, []⟩

/-- Adds a property at the end. -/
def add (card : Card) (p : Property) : Card :=
  ⟨card.version, card.properties ++ [p]⟩

/-- The properties with a name. -/
def all (card : Card) (name : String) : List Property :=
  card.properties.filter (·.isNamed name)

/-- The first property with a name. -/
def get? (card : Card) (name : String) : Option Property :=
  card.properties.find? (·.isNamed name)

/-- The properties of a group, whose label counts as it is written. -/
def inGroup (card : Card) (label : String) : List Property :=
  card.properties.filter (·.group == some label)

/-- The formatted name of the card. -/
def formattedName? (card : Card) : Option String :=
  (card.get? "FN").bind (·.value.asText?)

/-- The identifier of the card, a text or a URI. -/
def uid? (card : Card) : Option String :=
  (card.get? "UID").bind fun p =>
    match p.value with
    | .text s => some s
    | .uri s => some s
    | _ => none

def size (card : Card) : Nat :=
  card.properties.length

end Card

end ContactCards
