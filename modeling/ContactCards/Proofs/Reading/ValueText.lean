import ContactCards.Proofs.Reading.InputRun
import Mathlib

/-! The text of a value. The value of a property keeps all character data of its wrapper, but the
value of a parameter is cut off at the last element in its wrapper: what the wrapper itself holds
before that is lost. -/
namespace ContactCards

variable {c d : Content}

namespace Content

/-- The character data that a content holds itself, outside of its elements. -/
def ownText : Content → String
  | .empty => ""
  | .text s rest => s ++ rest.ownText
  | .element _ _ _ rest => rest.ownText

/-- The character data that a content holds itself before its last element. -/
def earlierText : Content → String
  | .empty => ""
  | .text s rest => if rest.elements = [] then "" else s ++ rest.earlierText
  | .element _ _ _ rest => rest.earlierText

theorem lastText_eq (c : Content) (s : String) :
    c.lastText s = if c.elements = [] then s ++ c.ownText else c.lastText "" := by
  induction c generalizing s with
  | empty => simp [lastText, elements, ownText]
  | text t rest ih =>
    rw [lastText, lastText, ih (s ++ t), ih ("" ++ t), elements, ownText]
    by_cases h : rest.elements = []
    · simp [h, String.append_assoc]
    · simp [h]
  | element name attributes inner rest => simp [lastText, elements]

/-- What is left of the text that a content holds itself is the end of it. -/
theorem ownText_eq (c : Content) : c.ownText = c.earlierText ++ c.lastText "" := by
  induction c with
  | empty => rfl
  | text s rest ih =>
    rw [ownText, earlierText, lastText, String.empty_append, lastText_eq]
    by_cases h : rest.elements = []
    · simp [h]
    · simp [h, ih, String.append_assoc]
  | element name attributes inner rest _ ih => exact ih

/-- Nothing is lost only if there is nothing before the last element. -/
theorem ownText_sublist_lastText :
    c.ownText.toList.Sublist (c.lastText "").toList ↔ c.earlierText = "" := by
  rw [ownText_eq, String.toList_append]
  constructor
  · intro h
    have hlength := h.length_le
    rw [List.length_append] at hlength
    have hnone : c.earlierText.toList.length = 0 := by omega
    exact String.toList_eq_nil_iff.mp (List.length_eq_zero_iff.mp hnone)
  · intro h
    rw [h]
    exact List.Sublist.refl _

theorem ownText_sublist_allText (c : Content) : c.ownText.toList.Sublist c.allText.toList := by
  induction c with
  | empty => exact List.Sublist.refl _
  | text s rest ih =>
    rw [ownText, allText, String.toList_append, String.toList_append]
    exact ih.append_left s.toList
  | element name attributes inner rest _ ih =>
    rw [ownText, allText, String.toList_append]
    exact ih.trans (List.sublist_append_right _ _)

theorem allText_prependText (s : String) (c : Content) :
    (prependText s c).allText = s ++ c.allText := by
  cases c with
  | text t rest => simp [prependText, allText, String.append_assoc]
  | empty => by_cases hs : s = "" <;> simp [prependText, allText, hs]
  | element => by_cases hs : s = "" <;> simp [prependText, allText, hs]

theorem elements_prependText (s : String) (c : Content) :
    (prependText s c).elements = c.elements := by
  cases c with
  | text t rest => rfl
  | empty => by_cases hs : s = "" <;> simp [prependText, elements, hs]
  | element => by_cases hs : s = "" <;> simp [prependText, elements, hs]

theorem allText_tidy (c : Content) : c.tidy.allText = c.allText := by
  induction c with
  | empty => rfl
  | text s rest ih => rw [tidy, allText_prependText, ih, allText]
  | element name attributes inner rest ihi ihr => rw [tidy, allText, ihi, ihr, allText]

theorem texts_tidy (c : Content) :
    c.tidy.elements.map Element.text = c.elements.map Element.text := by
  induction c with
  | empty => rfl
  | text s rest ih =>
    rw [tidy, elements_prependText]
    exact ih
  | element name attributes inner rest _ ih =>
    rw [tidy, elements, elements, List.map_cons, List.map_cons, ih, Element.text, Element.text,
      allText_tidy]

theorem elements_withoutBlocks (c : Content) :
    c.withoutBlocks.elements = c.elements.filter (·.name ≠ .parameters) := by
  induction c with
  | empty => rfl
  | text s rest ih => exact ih
  | element name attributes inner rest _ ih =>
    by_cases h : name = .parameters <;> simp [withoutBlocks, elements, h, ih]

end Content

namespace Element

/-- The wrappers of the values in the parameter blocks of a property element, each with the name of
its parameter. -/
def wrappers (e : Element) : List (String × Content) :=
  (e.elements.filter (·.name = .parameters)).flatMap fun block =>
    block.cardElements.flatMap fun parameter =>
      parameter.cardElements.map fun value => (parameter.localName, value.content)

theorem parameterPuts_eq (e : Element) :
    e.parameterPuts = e.wrappers.map fun (name, c) => (name, c.lastText "") := by
  simp only [parameterPuts, wrappers, List.map_flatMap, List.map_map]
  rfl

/-- The property elements of a card as they stand in it, each with the label of its group. -/
def labelled (card : Element) : List (Option String × Element) :=
  card.elements.flatMap fun e =>
    if e.name = .group then e.elements.map (e.attribute? "name", ·) else [(none, e)]

theorem propertyElements_eq (card : Element) :
    card.propertyElements = card.labelled.map fun (label, e) => e.asProperty label := by
  rw [propertyElements, labelled, List.map_flatMap]
  congr 1
  funext e
  by_cases h : e.name = .group <;> simp [h, Function.comp_def]

end Element

/-- A property element as it is decoded, against the element that it was read from. Of what a
wrapper in a parameter block holds itself, the end is put under the name of its parameter; the other
elements keep all their character data. -/
structure PropertyElement.HasValuesOf (p : PropertyElement) (e : Element) : Prop where
  parameters : p.parameters = .ofPuts (e.wrappers.map fun (name, c) => (name, c.lastText ""))
  elements : p.element.elements.map Element.text =
    (e.elements.filter (·.name ≠ .parameters)).map Element.text

theorem Element.asProperty_hasValuesOf (e : Element) (label : Option String) :
    (e.asProperty label).HasValuesOf e := by
  constructor
  · rw [← e.parameterPuts_eq]
    rfl
  · have htexts := e.content.withoutBlocks.texts_tidy
    rw [Content.elements_withoutBlocks] at htexts
    exact htexts

/-- What is decoded of an input are the first property elements of a tree that completes it. -/
theorem Content.Completes.decoded_prefix {input : Input} (h : c.Completes input.transcript)
    (r : Registry) : Act.decoded (Reader.empty.journal r input.transcript.events) <+:
      (c.cards.flatMap Element.labelled).map fun (label, e) => e.asProperty label := by
  have hcards : (c.cards.flatMap Element.labelled).map (fun (label, e) => e.asProperty label) =
      Act.decoded (c.acts r .outside) := by
    rw [c.acts_outside.1, List.map_flatMap]
    exact List.flatMap_congr fun card _ => card.propertyElements_eq.symm
  rw [hcards, h.journal_eq]
  exact (List.take_prefix _ _).filterMap _

/-- The property elements of an input are decoded in order, each with the values that it has. The
value of a parameter is everything that its wrapper holds itself just if that has no text before
its last element. -/
theorem values_from_wrappers (r : Registry) (input : Input) :
    (∃ tree : Content, tree.Completes input.transcript ∧
      let decoded := Act.decoded (Reader.empty.journal r input.transcript.events)
      List.Forall₂ (fun p (_, e) => p.HasValuesOf e) decoded
        ((tree.cards.flatMap Element.labelled).take decoded.length)) ∧
    ∀ c : Content, c.ownText = c.earlierText ++ c.lastText "" ∧
      (c.ownText.toList.Sublist (c.lastText "").toList ↔ c.earlierText = "") ∧
      c.ownText.toList.Sublist c.allText.toList := by
  constructor
  · obtain ⟨tree, htree⟩ := input.exists_completes
    refine ⟨tree, htree, ?_⟩
    intro decoded
    have hdecoded := List.prefix_iff_eq_take.mp (htree.decoded_prefix r)
    rw [← List.map_take] at hdecoded
    change decoded = _ at hdecoded
    generalize (tree.cards.flatMap Element.labelled).take decoded.length = es at hdecoded ⊢
    rw [hdecoded, List.forall₂_map_left_iff, List.forall₂_same]
    intro (label, e) _
    exact e.asProperty_hasValuesOf label
  · intro c
    exact ⟨c.ownText_eq, Content.ownText_sublist_lastText, c.ownText_sublist_allText⟩

set_option maxRecDepth 4000 in
/-- One wrapper as the value of a parameter and of a property. The parameter has lost the first of
the two texts that the wrapper holds. -/
theorem values_from_same_wrapper :
    let wrapper : Content := .text "a" (.element (.card "b") [] .empty (.text "c" .empty))
    let tree : Content := .element .vcards [] (.element .vcard [] (.element (.card "note") []
      (.element .parameters [] (.element (.card "type") []
        (.element (.card "text") [] wrapper .empty) .empty)
        (.element (.card "text") [] wrapper .empty)) .empty) .empty) .empty
    let input := Input.document (Utf8.encode
      ("<vcards xmlns=\"urn:ietf:params:xml:ns:vcard-4.0\"><vcard><note>" ++
        "<parameters><type><text>a<b/>c</text></type></parameters><text>a<b/>c</text>" ++
        "</note></vcard></vcards>"))
    wrapper.ownText = "ac" ∧ wrapper.earlierText = "a" ∧
      input.transcript = ⟨tree.events, none⟩ ∧
      input.read .standard .collect [] = ([⟨⟨.four, [⟨none, "NOTE", ⟨[⟨"TYPE", ["c"]⟩]⟩,
        .text "ac", "ac"⟩]⟩, []⟩], none) := by
  intro wrapper tree input
  have htranscript : input.transcript = ⟨tree.events, none⟩ := by
    cbv
  have hdeliveries : Reader.empty.deliveries .standard tree.events =
      [⟨⟨.four, [⟨none, "NOTE", ⟨[⟨"TYPE", ["c"]⟩]⟩, .text "ac", "ac"⟩]⟩, []⟩] := by
    have hrun := (Reader.runs_outside (r := .standard) tree "").journal
    calc Reader.empty.deliveries .standard tree.events
      _ = Act.delivered (tree.acts .standard .outside) := congrArg Act.delivered hrun
      _ = tree.cards.map (.ofProperties .standard ·.propertyElements) := tree.acts_outside.2
      _ = [⟨⟨.four, [⟨none, "NOTE", ⟨[⟨"TYPE", ["c"]⟩]⟩, .text "ac", "ac"⟩]⟩, []⟩] := by cbv
  refine ⟨rfl, rfl, htranscript, ?_⟩
  rw [Input.read_collect, Input.deliveries, htranscript, hdeliveries]

end ContactCards
