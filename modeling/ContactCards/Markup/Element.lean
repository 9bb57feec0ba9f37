import ContactCards.Markup.Event

/-!
Elements as trees. The content of an element is its character data and its child elements in
order; an element can be listed as events, and written as text that declares every namespace it
needs itself.
-/

namespace ContactCards

/-- What stands between the start and the end of an element, from the first item on. -/
inductive Content where
  | empty
  | text (text : String) (rest : Content)
  | element (name : ExpandedName) (attributes : List Attribute) (inner rest : Content)
  deriving DecidableEq, Repr, Inhabited

structure Element where
  name : ExpandedName
  attributes : List Attribute
  content : Content
  deriving DecidableEq, Repr, Inhabited

/-- One item of an element's content. -/
inductive Child where
  | text (text : String)
  | element (element : Element)
  deriving DecidableEq, Repr

namespace Content

/-- One content after another; runs of text are not joined. -/
def append : Content → Content → Content
  | empty, after => after
  | text s rest, after => text s (append rest after)
  | element name attributes inner rest, after =>
    element name attributes inner (append rest after)

/-- The items of a content. -/
def children : Content → List Child
  | empty => []
  | text s rest => .text s :: rest.children
  | element name attributes inner rest => .element ⟨name, attributes, inner⟩ :: rest.children

/-- The child elements of a content. -/
def elements : Content → List Element
  | empty => []
  | text _ rest => rest.elements
  | element name attributes inner rest => ⟨name, attributes, inner⟩ :: rest.elements

/-- All character data of a content, however deep. -/
def allText : Content → String
  | empty => ""
  | text s rest => s ++ rest.allText
  | element _ _ inner rest => inner.allText ++ rest.allText

/-- The events of a content. -/
def events : Content → List Event
  | empty => []
  | text s rest => .characters s :: rest.events
  | element name attributes inner rest =>
    .start name attributes :: inner.events ++ .finish :: rest.events

def isEmpty : Content → Bool
  | empty => true
  | _ => false

end Content

/-- A text in the quotes of an attribute. -/
def quotedValue (value : String) : String :=
  "\"" ++ Reference.escape value ++ "\""

/-- An attribute as it is written. -/
def Attribute.render (a : Attribute) : String :=
  " " ++ a.name ++ "=" ++ quotedValue a.value

/-- The declaration that an element needs inside the namespace `outer`, which is none at all
around the root. -/
def namespaceDeclaration (outer : Option String) (uri : String) : String :=
  if outer = some uri ∨ outer = none ∧ uri = "" then "" else " xmlns=" ++ quotedValue uri

/-- The inside of a start tag. -/
def openingTag (outer : Option String) (name : ExpandedName) (attributes : List Attribute) :
    String :=
  name.localName ++ namespaceDeclaration outer name.uri ++
    String.join (attributes.map Attribute.render)

/-- A content as it is written inside the namespace `outer`. An element without content is one
tag. -/
def Content.render (outer : String) : Content → String
  | .empty => ""
  | .text s rest => Reference.escape s ++ rest.render outer
  | .element name attributes inner rest =>
    "<" ++ openingTag (some outer) name attributes ++
      (if inner.isEmpty then "/>"
        else ">" ++ inner.render name.uri ++ "</" ++ name.localName ++ ">") ++
      rest.render outer

namespace Element

/-- An element as it is written by itself. -/
def render (e : Element) : String :=
  "<" ++ openingTag none e.name e.attributes ++
    if e.content.isEmpty then "/>"
    else ">" ++ e.content.render e.name.uri ++ "</" ++ e.name.localName ++ ">"

def localName (e : Element) : String :=
  e.name.localName

/-- The value of an attribute. -/
def attribute? (e : Element) (name : String) : Option String :=
  ContactCards.attribute? e.attributes name

def children (e : Element) : List Child :=
  e.content.children

/-- The child elements. -/
def elements (e : Element) : List Element :=
  e.content.elements

/-- The child elements in the namespace of cards. -/
def cardElements (e : Element) : List Element :=
  e.elements.filter (·.name.isCard)

/-- The child elements in the namespace of cards that have a local name. -/
def cardElementsNamed (e : Element) (localName : String) : List Element :=
  e.cardElements.filter (·.localName == localName)

/-- The first child element in the namespace of cards that has a local name. -/
def firstCardElement? (e : Element) (localName : String) : Option Element :=
  (e.cardElementsNamed localName).head?

/-- All character data of an element, however deep. -/
def text (e : Element) : String :=
  e.content.allText

/-- The events of an element. -/
def events (e : Element) : List Event :=
  .start e.name e.attributes :: e.content.events ++ [.finish]

end Element

end ContactCards
