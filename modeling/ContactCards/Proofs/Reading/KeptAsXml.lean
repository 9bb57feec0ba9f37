import ContactCards.Proofs.Markup.ReadBack
import ContactCards.Proofs.Reading.Conservation
import Mathlib

/-! Elements that are kept as they are, and which of them their text gives back. -/
namespace ContactCards

variable {r : Registry} {p : PropertyElement}

namespace PropertyElement

/-- The element is kept as it is: it has no decoder, or one that cannot read it. -/
def IsKept (r : Registry) (p : PropertyElement) : Prop :=
  (∀ d ∈ r.decoders, d.element ≠ p.name) ∨ ∃ d reason, r.Assigns p.name d ∧
    d.decode p.element p.parameters = .error (.unreadable reason)

/-- A property that holds an element and its text. Where no name in the element has a colon, the
text gives the element back just if this can be written with its names as they are. -/
structure Holds (p : PropertyElement) (q : Property) : Prop extends p.KeptIn q where
  readBack : p.element.Named → (Element.parse q.raw = .ok p.element ↔ p.element.WellNamed)

end PropertyElement

/-- Property elements are tidy. -/
theorem Element.tidy_of_mem {card : Element} (h : p ∈ card.propertyElements) :
    p.element.content.tidy = p.element.content := by
  obtain ⟨e, -, he⟩ := List.mem_flatMap.mp h
  split at he
  · obtain ⟨inner, -, rfl⟩ := List.mem_map.mp he
    exact inner.content.withoutBlocks.tidy_tidy
  · obtain rfl := List.mem_singleton.mp he
    exact e.content.withoutBlocks.tidy_tidy

theorem PropertyElement.exists_holds (h : p.IsKept r)
    (htidy : p.element.content.tidy = p.element.content) :
    ∃ q, p.property? r = some q ∧ p.Holds q := by
  have hread : p.element.Named →
      (Element.parse p.element.render = .ok p.element ↔ p.element.WellNamed) := by
    intro hnamed
    have hiff := Element.parse_render_iff hnamed
    rwa [htidy] at hiff
  have hkept : p.property? r =
      some { (Decoder.keep p.element p.parameters).property with group := p.label } := by
    rw [property?, Reader.outcome]
    rcases h with hnone | ⟨d, reason, hassigns, hdecode⟩
    · simp [Registry.get?_eq_none_iff.mpr hnone]
    · simp [Registry.get?_eq_some_iff.mpr hassigns, hdecode]
  exact ⟨_, hkept, p.keptIn_keep, hread⟩

/-- A card whose properties are what its property elements become, those that are kept as they are
being held. -/
structure Delivery.HoldsKept (r : Registry) (ps : List PropertyElement) (d : Delivery) : Prop where
  properties : d.card.properties = ps.filterMap (·.property? r)
  kept : ∀ p ∈ ps, p.IsKept r → ∃ q, p.property? r = some q ∧ p.Holds q

/-- What property elements come to holds those that are kept as they are. -/
theorem Delivery.ofProperties_holdsKept (r : Registry) (card : Element) :
    (ofProperties r card.propertyElements).HoldsKept r card.propertyElements :=
  ⟨(ofProperties_accounts r card.propertyElements).properties, fun _ hp hkept =>
    PropertyElement.exists_holds hkept (Element.tidy_of_mem hp)⟩

/-- Whatever the input, the decoders and the listener, each property element that is kept as it is
becomes a property that holds it, in its place. A listener that never stops gets all cards of an
input without a fault. -/
theorem kept_read_back (r : Registry) (input : Input) :
    ∃ tree : Content, tree.Completes input.transcript ∧
      ∀ {σ : Type} (listener : Listener σ) (s : σ),
        let read := input.read r listener.recording (s, [])
        let taken := read.1.2
        List.Forall₂ (fun d card => d.HoldsKept r card.propertyElements) taken
            (tree.cards.take taken.length) ∧
          (listener.NeverStops → read.2 = none → taken.length = tree.cards.length) :=
  input.forall₂_taken r (Delivery.ofProperties_holdsKept r)

set_option maxRecDepth 4000 in
/-- A namespace is kept as it is declared, escapes included. As it is escaped once more, the text of
an element without a decoder gives back another namespace. -/
theorem kept_in_escaped_namespace :
    let input := Input.document (Utf8.encode
      ("<vcards xmlns=\"urn:ietf:params:xml:ns:vcard-4.0\">" ++
        "<vcard><x xmlns=\"urn:a&amp;b\"/></vcard></vcards>"))
    let e : Element := ⟨⟨"urn:a&amp;b", "x"⟩, [], .empty⟩
    let q : Property := ⟨none, "XML", .empty, .xml e, "<x xmlns=\"urn:a&amp;amp;b\"/>"⟩
    input.read .standard .collect [] = ([⟨⟨.four, [q]⟩, []⟩], none) ∧
      Element.parse q.raw = .ok ⟨⟨"urn:a&amp;amp;b", "x"⟩, [], .empty⟩ ∧
      Element.parse q.raw ≠ .ok e := by
  intro input e q
  have htranscript : input.transcript = ⟨[.start .vcards [], .start .vcard [],
      .start ⟨"urn:a&amp;b", "x"⟩ [], .finish, .finish, .finish], none⟩ := by cbv
  have hdeliveries : Reader.empty.deliveries .standard [.start .vcards [], .start .vcard [],
      .start ⟨"urn:a&amp;b", "x"⟩ [], .finish, .finish, .finish] =
      [⟨⟨.four, [⟨none, "XML", .empty, .xml ⟨⟨"urn:a&amp;b", "x"⟩, [], .empty⟩,
        "<x xmlns=\"urn:a&amp;amp;b\"/>"⟩]⟩, []⟩] := by cbv
  have hparsed : Transcript.ofDocument (Utf8.encode "<x xmlns=\"urn:a&amp;amp;b\"/>") =
      ⟨[.start ⟨"urn:a&amp;amp;b", "x"⟩ [], .finish], none⟩ := by cbv
  have hparse : Element.parse q.raw = .ok ⟨⟨"urn:a&amp;amp;b", "x"⟩, [], .empty⟩ := by
    rw [Element.parse, Element.ofDocument, hparsed]
    cbv
  refine ⟨?_, hparse, ?_⟩
  · rw [Input.read_collect, Input.deliveries, htranscript, hdeliveries]
  · rw [hparse]
    decide

end ContactCards
