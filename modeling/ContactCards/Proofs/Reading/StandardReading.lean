import ContactCards.Proofs.Decode.Standard
import ContactCards.Proofs.Reading.Conservation
import Mathlib

/-! Reading with the standard decoders. Every property element becomes a property, and the only
warnings with a code are about elements that have a decoder and are kept as they are. -/
namespace ContactCards

variable {r : Registry} {d : Decoder} {w : Warning} {p : PropertyElement} {q : Property}
  {ps : List PropertyElement}

theorem WarningCode.number_injective : Function.Injective number := by
  intro code code' h
  cases code <;> cases code' <;> first | rfl | cases h

theorem Warning.Says.code_eq {about message : String} (code : WarningCode)
    {detail : Option String} (h : w.Says about (some code.number) message detail) :
    w.code = some code :=
  Option.map_injective WarningCode.number_injective h.code

namespace PropertyElement

/-- There is a decoder for the element. -/
def isRegistered (r : Registry) (p : PropertyElement) : Bool :=
  r.contains p.name

/-- There is a decoder for the element, and it reads it. -/
def isDecoded (r : Registry) (p : PropertyElement) : Bool :=
  r.decoders.any fun d => d.element == p.name && (d.decode p.element p.parameters).isOk

/-- There is a decoder for the element, but the element is kept as it is. -/
def isRefused (r : Registry) (p : PropertyElement) : Bool :=
  p.isRegistered r && !p.isDecoded r

/-- What a property element becomes with the standard decoders. -/
structure Becomes (p : PropertyElement) (q : Property) : Prop where
  property : p.property? .standard = some q
  group : q.group = p.label
  parameters : q.parameters = p.parameters
  name : q.name = if p.name.isCard ∧ p.isRegistered .standard ∧ p.isDecoded .standard
    then upper p.name.localName else "XML"
  decoded : p.isDecoded .standard = true → ∃ d ∈ Registry.standard.decoders, ∃ found,
    d.element = p.name ∧ d.decode p.element p.parameters = .ok found ∧
      q.value = found.property.value ∧ q.raw = found.property.raw
  kept : p.isDecoded .standard = false → q.value = .xml p.element ∧ q.raw = p.element.render

/-- A warning that a property element cannot be read. -/
structure Blames (p : PropertyElement) (w : Warning) : Prop where
  property : w.property = some p.name.localName
  code : w.code = some .unreadable
  detail : w.detail = some p.element.render

theorem isRegistered_of_assigns (h : r.Assigns p.name d) : p.isRegistered r = true := by
  obtain ⟨before, after, hr, hname, -⟩ := h
  exact Registry.contains_iff.mpr ⟨d, by simp [hr], hname⟩

/-- Without repeated names an element is decoded just if the decoder for its name reads it. -/
theorem isDecoded_eq (hr : r.Distinct) (h : r.Assigns p.name d) :
    p.isDecoded r = (d.decode p.element p.parameters).isOk := by
  have hmem := hr.assigns_iff.mp h
  rw [isDecoded, Bool.eq_iff_iff, List.any_eq_true]
  constructor
  · rintro ⟨d', hd', hread⟩
    rw [Bool.and_eq_true, beq_iff_eq] at hread
    obtain rfl := h.unique (hr.assigns_iff.mpr ⟨hd', hread.1⟩)
    exact hread.2
  · exact fun hread => ⟨d, hmem.1, by simp [hmem.2, hread]⟩

/-- What an element is kept in. -/
theorem KeptIn.becomes (h : p.KeptIn q) (hproperty : p.property? .standard = some q)
    (hdecoded : p.isDecoded .standard = false) : p.Becomes q := by
  refine ⟨hproperty, h.group, h.parameters, ?_, ?_, fun _ => ⟨h.value, h.raw⟩⟩
  · rw [h.name, if_neg (by simp [hdecoded])]
  · rw [hdecoded]
    exact nofun

theorem distinct_standard : Registry.standard.Distinct :=
  Registry.distinct_ofDecoders _

theorem faithful_of_assigns (h : Registry.standard.Assigns p.name d) : d.Faithful :=
  (Registry.get?_standard (Registry.get?_eq_some_iff.mpr h)).2

/-- What a standard decoder finds. -/
theorem Grouped.becomes {found : Decoded} (h : p.Grouped found.property q)
    (hproperty : p.property? .standard = some q) (hassigns : Registry.standard.Assigns p.name d)
    (hd : d.decode p.element p.parameters = .ok found) (hdecoded : p.isDecoded .standard = true) :
    p.Becomes q := by
  have hfaithful := faithful_of_assigns hassigns
  have hanswer := hfaithful.answers p.element p.parameters
  rw [hd] at hanswer
  obtain ⟨hmem, hname⟩ := distinct_standard.assigns_iff.mp hassigns
  refine ⟨hproperty, h.group, h.parameters.trans hanswer.2, ?_, ?_, ?_⟩
  · rw [if_pos ⟨hname ▸ hfaithful.isCard, isRegistered_of_assigns hassigns, hdecoded⟩, h.name,
      ← hname]
    exact hanswer.1
  · exact fun _ => ⟨d, hmem, found, hname, hd, h.value, h.raw⟩
  · rw [hdecoded]
    exact nofun

/-- With the standard decoders a property element is decoded, or it is kept as it is. There is a
warning with a code about it just if it is kept although there is a decoder. -/
theorem standard_cases (p : PropertyElement) :
    (∃ q, p.Becomes q) ∧
    (p.isRefused .standard = false ∧ (∀ w ∈ p.warnings .standard, w.code = none) ∨
      p.isRefused .standard = true ∧ ∃ w, p.warnings .standard = [w] ∧ p.Blames w) := by
  have hshare := p.share .standard
  generalize hq : p.property? .standard = q at hshare
  generalize p.warnings .standard = ws at hshare ⊢
  cases hshare with
  | unregistered h hkept =>
    have hdecoded : p.isDecoded .standard = false := by
      rw [isDecoded, List.any_eq_false]
      exact fun d hd hread => h d hd (eq_of_beq (Bool.and_eq_true_iff.mp hread).1)
    have hregistered : p.isRegistered .standard = false := by
      rw [isRegistered, Bool.eq_false_iff, ne_eq, Registry.contains_iff]
      exact fun ⟨d, hd, hname⟩ => h d hd hname
    exact ⟨⟨_, hkept.becomes hq hdecoded⟩, Or.inl ⟨by simp [isRefused, hregistered], nofun⟩⟩
  | @decoded d found q ws h hd hgrouped hws =>
    have hdecoded : p.isDecoded .standard = true := by
      rw [isDecoded_eq distinct_standard h, hd]
      rfl
    exact ⟨⟨q, hgrouped.becomes hq h hd hdecoded⟩,
      Or.inl ⟨by simp [isRefused, hdecoded], Warning.code_of_remarks hws⟩⟩
  | @unreadable d reason q w h hd hkept hw =>
    have hdecoded : p.isDecoded .standard = false := by
      rw [isDecoded_eq distinct_standard h, hd]
      rfl
    have hrefused : p.isRefused .standard = true := by
      simp [isRefused, isRegistered_of_assigns h, hdecoded]
    exact ⟨⟨q, hkept.becomes hq hdecoded⟩, Or.inr ⟨hrefused, w, rfl, hw.property,
      Warning.Says.code_eq .unreadable hw, hw.detail.trans (congrArg some hkept.raw)⟩⟩
  | @skipped d reason w h hd hw =>
    have hanswer := (faithful_of_assigns h).answers p.element p.parameters
    rw [hd] at hanswer
    obtain ⟨reason', he⟩ := hanswer
    cases he
  | @embeddedCard d w h hd hw =>
    have hanswer := (faithful_of_assigns h).answers p.element p.parameters
    rw [hd] at hanswer
    obtain ⟨reason', he⟩ := hanswer
    cases he

end PropertyElement

namespace Delivery

/-- A card that keeps all its property elements: each has become a property, in order, and the
warnings with a code are about those that were refused, in order. -/
structure KeepsAll (ps : List PropertyElement) (d : Delivery) : Prop where
  properties : List.Forall₂ PropertyElement.Becomes ps d.card.properties
  codes : ∀ w ∈ d.warnings, w.code = none ∨ w.code = some .unreadable
  refused : List.Forall₂ PropertyElement.Blames (ps.filter (·.isRefused .standard))
    (d.warnings.filter (·.code = some .unreadable))

theorem forall₂_becomes (ps : List PropertyElement) :
    List.Forall₂ PropertyElement.Becomes ps (ps.filterMap (·.property? .standard)) := by
  induction ps with
  | nil => exact .nil
  | cons p ps ih =>
    obtain ⟨q, hq⟩ := p.standard_cases.1
    rw [List.filterMap_cons_some hq.property]
    exact .cons hq ih

theorem forall₂_blames (ps : List PropertyElement) :
    List.Forall₂ PropertyElement.Blames (ps.filter (·.isRefused .standard))
      ((ps.flatMap (·.warnings .standard)).filter (·.code = some .unreadable)) := by
  induction ps with
  | nil => exact .nil
  | cons p ps ih =>
    rw [List.flatMap_cons, List.filter_append]
    rcases p.standard_cases.2 with ⟨hread, hcodes⟩ | ⟨hrefused, w, hw, hblames⟩
    · have hnone : (p.warnings .standard).filter (·.code = some .unreadable) = [] :=
        List.filter_eq_nil_iff.mpr fun w hw => by simp [hcodes w hw]
      rw [List.filter_cons_of_neg (by simp [hread]), hnone]
      exact ih
    · have hone : [w].filter (·.code = some .unreadable) = [w] := by simp [hblames.code]
      rw [List.filter_cons_of_pos hrefused, hw, hone]
      exact .cons hblames ih

theorem code_of_mem_warnings {w : Warning} (h : w ∈ p.warnings .standard) :
    w.code = none ∨ w.code = some .unreadable := by
  rcases p.standard_cases.2 with ⟨-, hcodes⟩ | ⟨-, w', hw, hblames⟩
  · exact Or.inl (hcodes w h)
  · rw [hw, List.mem_singleton] at h
    exact Or.inr (h ▸ hblames.code)

theorem ofProperties_keepsAll (ps : List PropertyElement) :
    (ofProperties .standard ps).KeepsAll ps := by
  have heq := concludeAll_eq .standard empty ps
  rw [← ofProperties] at heq
  rw [heq]
  refine ⟨forall₂_becomes ps, fun w hw => ?_, forall₂_blames ps⟩
  obtain ⟨p, -, hp⟩ := List.mem_flatMap.mp hw
  exact code_of_mem_warnings hp

end Delivery

/-- Whatever the input and the listener, with the standard decoders the cards that the listener
gets keep all property elements of the cards in their place. A listener that never stops gets all
cards of an input without a fault. -/
theorem standard_keeps_all (input : Input) :
    ∃ tree : Content, tree.Completes input.transcript ∧
      ∀ {σ : Type} (listener : Listener σ) (s : σ),
        let read := input.read .standard listener.recording (s, [])
        let taken := read.1.2
        List.Forall₂ (fun d card => d.KeepsAll card.propertyElements) taken
            (tree.cards.take taken.length) ∧
          (listener.NeverStops → read.2 = none → taken.length = tree.cards.length) :=
  input.forall₂_taken .standard fun card => Delivery.ofProperties_keepsAll card.propertyElements

/-- A card with a note in a group, which is decoded, and a time of the last change, which is refused
and kept as it is. -/
theorem standard_keeps_all_refused :
    let note : Element := ⟨.card "note", [], .element (.card "text") [] (.text "Hi" .empty) .empty⟩
    let rev : Element :=
      ⟨.card "rev", [], .element (.card "timestamp") [] (.text "never" .empty) .empty⟩
    let content : Content := .element .group [⟨"name", "work"⟩]
      (.element note.name [] note.content .empty) (.element rev.name [] rev.content .empty)
    let root : Element := ⟨.vcards, [], .element .vcard [] content .empty⟩
    let d : Delivery := ⟨⟨.four,
      [⟨some "work", "NOTE", .empty, .text "Hi", "Hi"⟩,
        ⟨none, "XML", .empty, .xml rev, "<rev xmlns=\"urn:ietf:params:xml:ns:vcard-4.0\">" ++
          "<timestamp>never</timestamp></rev>"⟩]⟩,
      [⟨some "rev", some .unreadable,
        "Property value could not be parsed and was stored as an XML property instead: " ++
          "invalid timestamp: never",
        some ("<rev xmlns=\"urn:ietf:params:xml:ns:vcard-4.0\">" ++
          "<timestamp>never</timestamp></rev>")⟩]⟩
    (Input.tree root).read .standard Listener.collect.recording ([], []) = (([d], [d]), none) ∧
    d.KeepsAll (Element.propertyElements ⟨.vcard, [], content⟩) ∧
    (Element.propertyElements ⟨.vcard, [], content⟩).map (·.isRefused .standard) =
      [false, true] := by
  intro note rev content root d
  have hcards : root.asContent.cards = [⟨.vcard, [], content⟩] := rfl
  have hproperties : Element.propertyElements ⟨.vcard, [], content⟩ =
      [⟨.card "note", some "work", note, .empty⟩, ⟨.card "rev", none, rev, .empty⟩] := rfl
  have hget : Registry.standard.get? (.card "note") = some (.text "note" "NOTE") := by cbv
  have hgetRev : Registry.standard.get? (.card "rev") = some .revision := by cbv
  have hdecode : (Decoder.text "note" "NOTE").decode note .empty =
      .ok ⟨⟨none, "NOTE", .empty, .text "Hi", "Hi"⟩, []⟩ := by decide +kernel
  have hrefused : Decoder.revision.decode rev .empty =
      .error (.unreadable "invalid timestamp: never") := by decide +kernel
  have hrender : rev.render = "<rev xmlns=\"urn:ietf:params:xml:ns:vcard-4.0\">" ++
      "<timestamp>never</timestamp></rev>" := by decide +kernel
  have hdelivery : Delivery.ofProperties .standard
      (Element.propertyElements ⟨.vcard, [], content⟩) = d := by
    rw [hproperties, Delivery.ofProperties, Delivery.concludeAll_eq]
    simp only [List.filterMap_cons, List.filterMap_nil, List.flatMap_cons, List.flatMap_nil,
      PropertyElement.property?, PropertyElement.warnings, Reader.outcome, hget, hgetRev, hdecode,
      hrefused, Option.map_some, Decoder.keep_eq, hrender]
    rfl
  have hread := Input.read_tree_of_cards hcards .standard
  rw [hdelivery] at hread
  obtain ⟨tree, htree, hall⟩ := standard_keeps_all (.tree root)
  obtain ⟨htaken, -⟩ := hall Listener.collect []
  rw [hread, htree.eq_asContent, hcards] at htaken
  exact ⟨hread, (List.forall₂_cons.mp htaken).1, by cbv⟩

end ContactCards
