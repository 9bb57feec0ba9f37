import ContactCards.Proofs.Reading.Journal

/-! What a tree means: which of its elements are cards and which are properties, and what happens
at the end of each. Nothing here mentions events or places between them. -/
namespace ContactCards

variable {r : Registry} {c : Content} {label : Option String}

/-- The character data of a content after its last element, `s` standing before the content. -/
def Content.lastText (s : String) : Content → String
  | .empty => s
  | .text t rest => rest.lastText (s ++ t)
  | .element _ _ _ rest => rest.lastText ""

/-- The content that is one element. -/
def Element.asContent (e : Element) : Content :=
  .element e.name e.attributes e.content .empty

/-- A content without its parameter blocks. -/
def Content.withoutBlocks : Content → Content
  | .empty => .empty
  | .text s rest => .text s rest.withoutBlocks
  | .element name attributes inner rest =>
    if name = .parameters then rest.withoutBlocks
    else .element name attributes inner rest.withoutBlocks

namespace Element

/-- The values of one parameter element, under its name. -/
def puts (parameter : Element) : List (String × String) :=
  parameter.cardElements.map fun value => (parameter.localName, value.content.lastText "")

/-- The parameter values that a property element lists in its parameter blocks. -/
def parameterPuts (e : Element) : List (String × String) :=
  (e.elements.filter (·.name = .parameters)).flatMap fun block => block.cardElements.flatMap puts

/-- A property element as its decoder is told of it. -/
def asProperty (label : Option String) (e : Element) : PropertyElement :=
  ⟨e.name, label, ⟨e.name, e.attributes, e.content.withoutBlocks.tidy⟩, .ofPuts e.parameterPuts⟩

/-- The property elements of a card, those of its groups in their place. -/
def propertyElements (card : Element) : List PropertyElement :=
  card.elements.flatMap fun e =>
    if e.name = .group then e.elements.map (asProperty (e.attribute? "name"))
    else [e.asProperty none]

theorem propertyElements_group (name : ExpandedName) (attributes ns : List Attribute)
    (inner rest : Content) :
    propertyElements ⟨name, attributes, .element .group ns inner rest⟩ =
      inner.elements.map (asProperty (ContactCards.attribute? ns "name")) ++
        propertyElements ⟨name, attributes, rest⟩ := by
  simp [propertyElements, elements, Content.elements, attribute?]

theorem propertyElements_property {n : ExpandedName} (h : n ≠ .group) (name : ExpandedName)
    (attributes ns : List Attribute) (inner rest : Content) :
    propertyElements ⟨name, attributes, .element n ns inner rest⟩ =
      asProperty none ⟨n, ns, inner⟩ :: propertyElements ⟨name, attributes, rest⟩ := by
  simp [propertyElements, elements, Content.elements, h]

end Element

namespace Delivery

def empty : Delivery := ⟨.empty .four, []⟩

/-- Adds what a property element comes to. -/
def conclude (r : Registry) (d : Delivery) (p : PropertyElement) : Delivery :=
  ⟨(Reader.conclude r d.card d.warnings p).1, (Reader.conclude r d.card d.warnings p).2⟩

/-- Adds what property elements come to, one after another. -/
def concludeAll (r : Registry) (d : Delivery) (ps : List PropertyElement) : Delivery :=
  ps.foldl (conclude r) d

/-- What property elements come to together. -/
def ofProperties (r : Registry) (ps : List PropertyElement) : Delivery :=
  empty.concludeAll r ps

theorem concludeAll_append (d : Delivery) (ps qs : List PropertyElement) :
    d.concludeAll r (ps ++ qs) = (d.concludeAll r ps).concludeAll r qs :=
  List.foldl_append

end Delivery

/-- What an element is, by the elements around it. -/
inductive Role where
  | outside
  | collection
  | card
  | group (label : Option String)
  | property (label : Option String)
  /-- Inside a property, or in a collection without being a card. -/
  | within
  deriving DecidableEq, Repr

namespace Role

/-- What a child element is. -/
def child (role : Role) (name : ExpandedName) (attributes : List Attribute) : Role :=
  match role with
  | outside => if name = .vcards then collection else outside
  | collection => if name = .vcard then card else within
  | card => if name = .group then group (attribute? attributes "name") else property none
  | group label => property label
  | property _ => within
  | within => within

/-- What happens at the end of an element. -/
def act? (r : Registry) (role : Role) (e : Element) : Option Act :=
  match role with
  | card => some (.deliver (.ofProperties r e.propertyElements))
  | property label => some (.decode (e.asProperty label))
  | _ => none

end Role

namespace Content

/-- What happens at each tag of a content inside an element with the given role. -/
def acts (r : Registry) (role : Role) : Content → List (Option Act)
  | .empty => []
  | .text _ rest => rest.acts r role
  | .element name attributes inner rest =>
    none :: (inner.acts r (role.child name attributes) ++
      (role.child name attributes).act? r ⟨name, attributes, inner⟩ :: rest.acts r role)

/-- The collections that stand in no other collection. -/
def collections : Content → List Element
  | .empty => []
  | .text _ rest => rest.collections
  | .element name attributes inner rest =>
    (if name = .vcards then [⟨name, attributes, inner⟩] else inner.collections) ++
      rest.collections

/-- The cards of a document: the child elements of its collections that are cards. -/
def cards (c : Content) : List Element :=
  c.collections.flatMap fun collection => collection.elements.filter (·.name = .vcard)

end Content

namespace Act

variable {js js' : List (Option Act)}

@[simp] theorem decoded_nil : decoded [] = [] := rfl

@[simp] theorem delivered_nil : delivered [] = [] := rfl

@[simp] theorem decoded_none : decoded (none :: js) = decoded js := rfl

@[simp] theorem delivered_none : delivered (none :: js) = delivered js := rfl

@[simp] theorem decoded_some (a : Act) :
    decoded (some a :: js) = a.property?.toList ++ decoded js := by
  cases a <;> rfl

@[simp] theorem delivered_some (a : Act) :
    delivered (some a :: js) = a.delivery?.toList ++ delivered js := by
  cases a <;> rfl

@[simp] theorem decoded_append : decoded (js ++ js') = decoded js ++ decoded js' :=
  List.filterMap_append

@[simp] theorem delivered_append : delivered (js ++ js') = delivered js ++ delivered js' :=
  List.filterMap_append

end Act

namespace Content

/-- Inside a property there is neither a property nor a card. -/
theorem acts_within (c : Content) :
    Act.decoded (c.acts r .within) = [] ∧ Act.delivered (c.acts r .within) = [] := by
  induction c with
  | empty => exact ⟨rfl, rfl⟩
  | text s rest ih => exact ih
  | element name attributes inner rest ihi ihr =>
    simp [acts, Role.child, Role.act?, ihi, ihr]

theorem acts_property (c : Content) : c.acts r (.property label) = c.acts r .within := by
  induction c with
  | empty => rfl
  | text s rest ih => exact ih
  | element name attributes inner rest ihi ihr =>
    simp only [acts, ihr]
    rfl

theorem acts_group (c : Content) :
    Act.decoded (c.acts r (.group label)) = c.elements.map (Element.asProperty label) ∧
      Act.delivered (c.acts r (.group label)) = [] := by
  induction c with
  | empty => exact ⟨rfl, rfl⟩
  | text s rest ih => exact ih
  | element name attributes inner rest _ ih =>
    simp [acts, Role.child, Role.act?, acts_property, acts_within, ih, elements, Act.property?,
      Act.delivery?]

theorem acts_card (c : Content) (name : ExpandedName) (attributes : List Attribute) :
    Act.decoded (c.acts r .card) = Element.propertyElements ⟨name, attributes, c⟩ ∧
      Act.delivered (c.acts r .card) = [] := by
  induction c with
  | empty => exact ⟨rfl, rfl⟩
  | text s rest ih => exact ih
  | element n as inner rest _ ih =>
    by_cases hn : n = .group
    · subst n
      simp [acts, Role.child, Role.act?, acts_group, ih, Element.propertyElements_group]
    · simp [acts, Role.child, Role.act?, acts_property, acts_within, ih, hn,
        Element.propertyElements_property hn, Act.property?, Act.delivery?]

theorem acts_collection (c : Content) :
    Act.decoded (c.acts r .collection) =
        (c.elements.filter (·.name = .vcard)).flatMap Element.propertyElements ∧
      Act.delivered (c.acts r .collection) =
        (c.elements.filter (·.name = .vcard)).map (.ofProperties r ·.propertyElements) := by
  induction c with
  | empty => exact ⟨rfl, rfl⟩
  | text s rest ih => exact ih
  | element n as inner rest _ ih =>
    by_cases hn : n = .vcard
    · simp [acts, Role.child, Role.act?, acts_card inner n as, ih, elements, hn, Act.property?,
        Act.delivery?]
    · simp [acts, Role.child, Role.act?, acts_within, ih, elements, hn]

/-- What happens in a document: its cards are delivered and their properties decoded. -/
theorem acts_outside (c : Content) :
    Act.decoded (c.acts r .outside) = c.cards.flatMap Element.propertyElements ∧
      Act.delivered (c.acts r .outside) = c.cards.map (.ofProperties r ·.propertyElements) := by
  induction c with
  | empty => exact ⟨rfl, rfl⟩
  | text s rest ih => exact ih
  | element n as inner rest ihi ihr =>
    by_cases hn : n = .vcards
    · simp [acts, Role.child, Role.act?, acts_collection, ihr, hn, cards, collections,
        Element.elements]
    · simp [acts, Role.child, Role.act?, ihi, ihr, hn, cards, collections]

end Content
end ContactCards
