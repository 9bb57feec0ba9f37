import ContactCards.Proofs.Decode.Outline
import ContactCards.Proofs.Markup.Acceptance

/-! Trees with other attributes. Nothing but the attributes of a tree changes, and its outline and
the cuts of its character data stay. -/
namespace ContactCards

variable {f g : ExpandedName → List Attribute → List Attribute} {c c' : Content}
  {t t' : Transcript}

/-- An event with other attributes. -/
def Event.mapAttributes (f : ExpandedName → List Attribute → List Attribute) : Event → Event
  | start name attributes => start name (f name attributes)
  | characters s => characters s
  | finish => finish

/-- A content with other attributes, however deep. -/
def Content.mapAttributes (f : ExpandedName → List Attribute → List Attribute) :
    Content → Content
  | empty => empty
  | text s rest => text s (rest.mapAttributes f)
  | element name attributes inner rest =>
    element name (f name attributes) (inner.mapAttributes f) (rest.mapAttributes f)

/-- An element with other attributes, its own and those inside it. -/
def Element.mapAttributes (f : ExpandedName → List Attribute → List Attribute) (e : Element) :
    Element :=
  ⟨e.name, f e.name e.attributes, e.content.mapAttributes f⟩

/-- An element without attributes, its own or those inside it. -/
def Element.bare (e : Element) : Element :=
  e.mapAttributes fun _ _ => []

namespace Content

theorem events_mapAttributes (c : Content) :
    (c.mapAttributes f).events = c.events.map (Event.mapAttributes f) := by
  induction c with
  | empty => rfl
  | text s rest ih => exact congrArg (Event.characters s :: ·) ih
  | element name attributes inner rest ihi ihr =>
    simp [mapAttributes, events, ihi, ihr, Event.mapAttributes]

@[simp] theorem elements_mapAttributes (c : Content) :
    (c.mapAttributes f).elements = c.elements.map (Element.mapAttributes f) := by
  induction c with
  | empty => rfl
  | text s rest ih => exact ih
  | element name attributes inner rest _ ih => exact congrArg (Element.mk _ _ _ :: ·) ih

@[simp] theorem allText_mapAttributes (c : Content) :
    (c.mapAttributes f).allText = c.allText := by
  induction c with
  | empty => rfl
  | text s rest ih => exact congrArg (s ++ ·) ih
  | element name attributes inner rest ihi ihr => simp only [mapAttributes, allText, ihi, ihr]

theorem mapAttributes_mapAttributes (c : Content) :
    (c.mapAttributes f).mapAttributes g =
      c.mapAttributes fun name attributes => g name (f name attributes) := by
  induction c with
  | empty => rfl
  | text s rest ih => exact congrArg (text s) ih
  | element name attributes inner rest ihi ihr => simp only [mapAttributes, ihi, ihr]

theorem mapAttributes_prependText (s : String) (c : Content) :
    (prependText s c).mapAttributes f = prependText s (c.mapAttributes f) := by
  cases c with
  | text t rest => rfl
  | empty => by_cases hs : s = "" <;> simp [prependText, mapAttributes, hs]
  | element => by_cases hs : s = "" <;> simp [prependText, mapAttributes, hs]

theorem mapAttributes_tidy (c : Content) : c.tidy.mapAttributes f = (c.mapAttributes f).tidy := by
  induction c with
  | empty => rfl
  | text s rest ih => simp only [tidy, mapAttributes, mapAttributes_prependText, ih]
  | element name attributes inner rest ihi ihr => simp only [tidy, mapAttributes, ihi, ihr]

end Content

namespace Element

@[simp] theorem elements_mapAttributes (e : Element) :
    (e.mapAttributes f).elements = e.elements.map (mapAttributes f) :=
  e.content.elements_mapAttributes

@[simp] theorem cardElements_mapAttributes (e : Element) :
    (e.mapAttributes f).cardElements = e.cardElements.map (mapAttributes f) := by
  simp only [cardElements, elements_mapAttributes, List.filter_map]
  rfl

@[simp] theorem text_mapAttributes (e : Element) : (e.mapAttributes f).text = e.text :=
  e.content.allText_mapAttributes

/-- Attributes are no part of the outline. -/
theorem outline_mapAttributes (e : Element) : (e.mapAttributes f).outline = e.outline := by
  rw [outline, outline, cardElements_mapAttributes, List.map_map]
  refine Prod.ext rfl (List.map_congr_left fun child _ => ?_)
  exact congrArg (child.localName, ·) child.text_mapAttributes

/-- Attributes are lost for good. -/
theorem bare_mapAttributes (e : Element) : (e.mapAttributes f).bare = e.bare :=
  congrArg (Element.mk e.name []) e.content.mapAttributes_mapAttributes

end Element

/-- Attributes open and close nothing. -/
theorem Event.depth?_map (d : Nat) (events : List Event) :
    depth? d (events.map (mapAttributes f)) = depth? d events := by
  induction events generalizing d with
  | nil => rfl
  | cons event events ih =>
    cases event with
    | start => exact ih (d + 1)
    | characters => exact ih d
    | finish =>
      cases d with
      | zero => rfl
      | succ d => exact ih d

/-- Transcripts that differ in what a change of attributes hides are completed by contents that do
so too. -/
theorem Content.Completes.mapAttributes_eq (h : c.Completes t) (h' : c'.Completes t')
    (hevents : t'.events.map (Event.mapAttributes f) = t.events.map (Event.mapAttributes f)) :
    c'.mapAttributes f = c.mapAttributes f := by
  obtain ⟨n, hc, -⟩ := h
  obtain ⟨n', hc', -⟩ := h'
  have hn : some n' = some n := by
    calc some n'
      _ = Event.depth? 0 t'.events := (depth?_of_completed hc').symm
      _ = Event.depth? 0 t.events := by
        rw [← Event.depth?_map (f := f), hevents, Event.depth?_map]
      _ = some n := depth?_of_completed hc
  obtain rfl := Option.some.inj hn
  apply events_inj
  rw [events_mapAttributes, events_mapAttributes, hc, hc', List.map_append, List.map_append,
    hevents]

end ContactCards
