import ContactCards.Proofs.Decode.Registration
import ContactCards.Proofs.Reading.InputRun

/-! Every property element of a card is accounted for, whatever the decoders do: it becomes a
property, or a warning says why it does not. No warning comes from anywhere else. -/
namespace ContactCards

variable {r : Registry} {p : PropertyElement}

namespace Warning

/-- A warning about a property: the number of its code, if it has one, its message and its
detail. -/
structure Says (w : Warning) (about : String) (code : Option Nat) (message : String)
    (detail : Option String) : Prop where
  property : w.property = some about
  code : w.code.map WarningCode.number = code
  message : w.message = message
  detail : w.detail = detail

/-- A message with a reason, unless that is empty. -/
def explained (message reason : String) : String :=
  if reason = "" then message else message ++ ": " ++ reason

theorem says_coded (about : String) (code : WarningCode) (reason : String) :
    (coded (some about) code (some reason)).Says about (some code.number)
      (explained code.summary reason) none := by
  refine ⟨rfl, rfl, ?_, rfl⟩
  by_cases h : reason = "" <;> simp [coded, explained, h, Option.filter]

/-- The number of warnings whose code has a number. -/
def count (number : Nat) (warnings : List Warning) : Nat :=
  warnings.countP (·.code.map WarningCode.number = some number)

theorem count_append (number : Nat) (ws ws' : List Warning) :
    count number (ws ++ ws') = count number ws + count number ws' :=
  List.countP_append

theorem count_singleton (number : Nat) (w : Warning) :
    count number [w] = if w.code.map WarningCode.number = some number then 1 else 0 := by
  rw [count, List.countP_singleton]
  simp only [decide_eq_true_eq]

theorem code_of_remarks {about : String} {ws : List Warning} {remarks : List String}
    (h : List.Forall₂ (fun w remark => w.Says about none remark none) ws remarks) :
    ∀ w ∈ ws, w.code = none := by
  induction h with
  | nil => exact nofun
  | cons hw _ ih => exact List.forall_mem_cons.mpr ⟨Option.map_eq_none_iff.mp hw.code, ih⟩

/-- What is said without a code does not count. -/
theorem count_remarks {about : String} {ws : List Warning} {remarks : List String}
    (h : List.Forall₂ (fun w remark => w.Says about none remark none) ws remarks) (number : Nat) :
    count number ws = 0 :=
  List.countP_eq_zero.mpr fun w hw => by simp [code_of_remarks h w hw]

theorem forall₂_remark (about : String) (remarks : List String) :
    List.Forall₂ (fun w remark => w.Says about none remark none)
      (remarks.map (remark (some about))) remarks := by
  rw [List.forall₂_map_left_iff, List.forall₂_same]
  exact fun _ _ => ⟨rfl, rfl, rfl, rfl⟩

end Warning

theorem Decoder.keep_eq (e : Element) (ps : Parameters) :
    keep e ps = ⟨⟨none, "XML", ps, .xml e, e.render⟩, []⟩ := by
  rw [keep, plain, Property.ofValue, upper_eq_self (by decide)]

namespace PropertyElement

/-- The element is kept as it is in a property, with its parameters. -/
structure KeptIn (p : PropertyElement) (q : Property) : Prop where
  group : q.group = p.label
  name : q.name = "XML"
  parameters : q.parameters = p.parameters
  value : q.value = .xml p.element
  raw : q.raw = p.element.render

/-- A property is what a decoder found, in the group of the element, whatever group the decoder
named. -/
structure Grouped (p : PropertyElement) (found q : Property) : Prop where
  group : q.group = p.label
  name : q.name = found.name
  parameters : q.parameters = found.parameters
  value : q.value = found.value
  raw : q.raw = found.raw

theorem keptIn_keep (p : PropertyElement) :
    p.KeptIn { (Decoder.keep p.element p.parameters).property with group := p.label } := by
  rw [Decoder.keep_eq]
  exact ⟨rfl, rfl, rfl, rfl, rfl⟩

end PropertyElement

/-- What a property element may come to: a property or none, and warnings. The detail of a warning
that the element cannot be read is the text of the property that it is kept in. -/
inductive Share (r : Registry) (p : PropertyElement) : Option Property → List Warning → Prop where
  | unregistered {q : Property} (h : ∀ d ∈ r.decoders, d.element ≠ p.name) (hq : p.KeptIn q) :
    Share r p (some q) []
  | decoded {d : Decoder} {found : Decoded} {q : Property} {ws : List Warning}
    (h : r.Assigns p.name d) (hd : d.decode p.element p.parameters = .ok found)
    (hq : p.Grouped found.property q)
    (hws : List.Forall₂ (fun w remark => w.Says p.name.localName none remark none) ws
      found.remarks) : Share r p (some q) ws
  | skipped {d : Decoder} {reason : String} {w : Warning} (h : r.Assigns p.name d)
    (hd : d.decode p.element p.parameters = .error (.skip reason))
    (hw : w.Says p.name.localName (some 22)
      (Warning.explained "Property has requested that it be skipped" reason) none) :
    Share r p none [w]
  | unreadable {d : Decoder} {reason : String} {q : Property} {w : Warning}
    (h : r.Assigns p.name d) (hd : d.decode p.element p.parameters = .error (.unreadable reason))
    (hq : p.KeptIn q)
    (hw : w.Says p.name.localName (some 33) (Warning.explained
      "Property value could not be parsed and was stored as an XML property instead" reason)
      (some q.raw)) : Share r p (some q) [w]
  | embeddedCard {d : Decoder} {w : Warning} (h : r.Assigns p.name d)
    (hd : d.decode p.element p.parameters = .error .embeddedCard)
    (hw : w.Says p.name.localName (some 34)
      "Embedded vCards are not supported in xCard documents" none) : Share r p none [w]

namespace PropertyElement

/-- The property that an element becomes. -/
def property? (r : Registry) (p : PropertyElement) : Option Property :=
  (Reader.outcome r p.name p.element p.parameters).1.map ({ · with group := p.label })

/-- The warnings about an element. -/
def warnings (r : Registry) (p : PropertyElement) : List Warning :=
  (Reader.outcome r p.name p.element p.parameters).2

theorem share (r : Registry) (p : PropertyElement) : Share r p (p.property? r) (p.warnings r) := by
  rw [property?, warnings, Reader.outcome]
  cases h : r.get? p.name with
  | none => exact .unregistered (Registry.get?_eq_none_iff.mp h) p.keptIn_keep
  | some d =>
    have hassigns := Registry.get?_eq_some_iff.mp h
    cases hd : d.decode p.element p.parameters with
    | ok found =>
      simp only [hd]
      exact .decoded hassigns hd ⟨rfl, rfl, rfl, rfl, rfl⟩ (Warning.forall₂_remark _ _)
    | error fault =>
      simp only [hd]
      cases fault with
      | skip reason => exact .skipped hassigns hd (Warning.says_coded _ .skipped reason)
      | unreadable reason =>
        obtain ⟨hproperty, hcode, hmessage, -⟩ :=
          Warning.says_coded p.name.localName .unreadable reason
        exact .unreadable hassigns hd p.keptIn_keep ⟨hproperty, hcode, hmessage, rfl⟩
      | embeddedCard => exact .embeddedCard hassigns hd ⟨rfl, rfl, rfl, rfl⟩

end PropertyElement

/-- An element becomes one property or is the subject of one warning that says why not. -/
theorem Share.count_eq {q : Option Property} {ws : List Warning} (h : Share r p q ws) :
    q.toList.length + Warning.count 22 ws + Warning.count 34 ws = 1 := by
  cases h with
  | unregistered => rfl
  | decoded _ _ _ hws =>
    rw [Warning.count_remarks hws, Warning.count_remarks hws]
    rfl
  | skipped _ _ hw =>
    rw [Warning.count_singleton, Warning.count_singleton, hw.code]
    rfl
  | unreadable _ _ _ hw =>
    rw [Warning.count_singleton, Warning.count_singleton, hw.code]
    rfl
  | embeddedCard _ _ hw =>
    rw [Warning.count_singleton, Warning.count_singleton, hw.code]
    rfl

namespace Delivery

/-- A card and its warnings are exactly what property elements come to. -/
structure Accounts (r : Registry) (ps : List PropertyElement) (d : Delivery) : Prop where
  shares : ∀ p ∈ ps, Share r p (p.property? r) (p.warnings r)
  properties : d.card.properties = ps.filterMap (·.property? r)
  warnings : d.warnings = ps.flatMap (·.warnings r)
  count : ps.length =
    d.card.size + Warning.count 22 d.warnings + Warning.count 34 d.warnings

theorem conclude_eq (r : Registry) (d : Delivery) (p : PropertyElement) :
    d.conclude r p = ⟨⟨d.card.version, d.card.properties ++ (p.property? r).toList⟩,
      d.warnings ++ p.warnings r⟩ := by
  obtain ⟨⟨version, properties⟩, warnings⟩ := d
  rw [conclude, Reader.conclude, PropertyElement.property?, PropertyElement.warnings]
  generalize Reader.outcome r p.name p.element p.parameters = found
  obtain ⟨q, ws⟩ := found
  cases q with
  | none => simp
  | some q => rfl

/-- The shares of property elements add up. -/
theorem concludeAll_eq (r : Registry) (d : Delivery) (ps : List PropertyElement) :
    d.concludeAll r ps =
      ⟨⟨d.card.version, d.card.properties ++ ps.filterMap (·.property? r)⟩,
        d.warnings ++ ps.flatMap (·.warnings r)⟩ := by
  induction ps generalizing d with
  | nil => simp [concludeAll]
  | cons p ps ih =>
    rw [concludeAll, List.foldl_cons, ← concludeAll, ih, conclude_eq]
    cases hp : p.property? r <;> simp [hp]

theorem count_ofProperties (r : Registry) (ps : List PropertyElement) :
    ps.length = (ps.filterMap (·.property? r)).length +
      Warning.count 22 (ps.flatMap (·.warnings r)) +
      Warning.count 34 (ps.flatMap (·.warnings r)) := by
  induction ps with
  | nil => rfl
  | cons p ps ih =>
    have hp := (p.share r).count_eq
    rw [List.flatMap_cons, Warning.count_append, Warning.count_append, List.length_cons]
    cases hq : p.property? r <;> simp only [hq, List.filterMap_cons, List.length_cons,
      Option.toList_none, Option.toList_some, List.length_nil] at hp ⊢ <;> omega

/-- What property elements come to accounts for them. -/
theorem ofProperties_accounts (r : Registry) (ps : List PropertyElement) :
    (ofProperties r ps).Accounts r ps := by
  have heq := concludeAll_eq r empty ps
  rw [← ofProperties] at heq
  have hcount := count_ofProperties r ps
  rw [heq]
  exact ⟨fun p _ => p.share r, rfl, rfl, hcount⟩

end Delivery

/-- Whatever the input, the decoders and the listener, the cards that the listener gets are the
first ones of the document, and each accounts for the property elements of the card in its place and
for nothing else. A listener that never stops gets all cards of an input without a fault. -/
theorem no_property_lost (r : Registry) (input : Input) :
    ∃ tree : Content, tree.Completes input.transcript ∧
      ∀ {σ : Type} (listener : Listener σ) (s : σ),
        let read := input.read r listener.recording (s, [])
        let taken := read.1.2
        List.Forall₂ (fun d card => d.Accounts r card.propertyElements) taken
            (tree.cards.take taken.length) ∧
          (listener.NeverStops → read.2 = none → taken.length = tree.cards.length) :=
  input.forall₂_taken r fun card => Delivery.ofProperties_accounts r card.propertyElements

/-- A card with an element that is decoded, one that is skipped, one that cannot be read, one that
is a card itself and one that no decoder reads, all in a group. The decoder names a group of its
own. -/
theorem no_property_lost_each :
    let r : Registry := .ofDecoders [
      ⟨.card "a", fun _ ps => .ok ⟨⟨some "other", "A", ps, .text "x", "x"⟩, ["first", "second"]⟩⟩,
      ⟨.card "b", fun _ _ => .error (.skip "unwanted")⟩,
      ⟨.card "c", fun _ _ => .error (.unreadable "odd")⟩,
      ⟨.card "d", fun _ _ => .error .embeddedCard⟩]
    let named (name : String) (rest : Content) : Content := .element (.card name) [] .empty rest
    let group : Content := .element .group [⟨"name", "work"⟩]
      (named "a" (named "b" (named "c" (named "d" (named "e" .empty))))) .empty
    let root : Element := ⟨.vcards, [], .element .vcard [] group .empty⟩
    let kept (name : String) : Element := ⟨.card name, [], .empty⟩
    let d : Delivery := ⟨⟨.four,
      [⟨some "work", "A", .empty, .text "x", "x"⟩,
        ⟨some "work", "XML", .empty, .xml (kept "c"),
          "<c xmlns=\"urn:ietf:params:xml:ns:vcard-4.0\"/>"⟩,
        ⟨some "work", "XML", .empty, .xml (kept "e"),
          "<e xmlns=\"urn:ietf:params:xml:ns:vcard-4.0\"/>"⟩]⟩,
      [⟨some "a", none, "first", none⟩, ⟨some "a", none, "second", none⟩,
        ⟨some "b", some .skipped, "Property has requested that it be skipped: unwanted", none⟩,
        ⟨some "c", some .unreadable,
          "Property value could not be parsed and was stored as an XML property instead: odd",
          some "<c xmlns=\"urn:ietf:params:xml:ns:vcard-4.0\"/>"⟩,
        ⟨some "d", some .embeddedCard, "Embedded vCards are not supported in xCard documents",
          none⟩]⟩
    (Input.tree root).read r Listener.collect.recording ([], []) = (([d], [d]), none) ∧
    d.Accounts r (Element.propertyElements ⟨.vcard, [], group⟩) ∧
    5 = d.card.size + Warning.count 22 d.warnings + Warning.count 34 d.warnings := by
  intro r named group root kept d
  have hcards : root.asContent.cards = [⟨.vcard, [], group⟩] := rfl
  have hproperties : Element.propertyElements ⟨.vcard, [], group⟩ =
      ["a", "b", "c", "d", "e"].map fun name => ⟨.card name, some "work", kept name, .empty⟩ := rfl
  have ha : r.get? (.card "a") = some ⟨.card "a", fun _ ps =>
      .ok ⟨⟨some "other", "A", ps, .text "x", "x"⟩, ["first", "second"]⟩⟩ := rfl
  have hb : r.get? (.card "b") = some ⟨.card "b", fun _ _ => .error (.skip "unwanted")⟩ := rfl
  have hc : r.get? (.card "c") = some ⟨.card "c", fun _ _ => .error (.unreadable "odd")⟩ := rfl
  have hd : r.get? (.card "d") = some ⟨.card "d", fun _ _ => .error .embeddedCard⟩ := rfl
  have he : r.get? (.card "e") = none := rfl
  have hcText : (kept "c").render = "<c xmlns=\"urn:ietf:params:xml:ns:vcard-4.0\"/>" := by
    decide +kernel
  have heText : (kept "e").render = "<e xmlns=\"urn:ietf:params:xml:ns:vcard-4.0\"/>" := by
    decide +kernel
  have hdelivery : Delivery.ofProperties r (Element.propertyElements ⟨.vcard, [], group⟩) = d := by
    rw [hproperties, Delivery.ofProperties, Delivery.concludeAll_eq]
    simp only [List.map_cons, List.map_nil, List.filterMap_cons, List.filterMap_nil,
      List.flatMap_cons, List.flatMap_nil, PropertyElement.property?, PropertyElement.warnings,
      Reader.outcome, ha, hb, hc, hd, he, Option.map_some, Option.map_none, Decoder.keep_eq,
      hcText, heText]
    rfl
  have hread := Input.read_tree_of_cards hcards r
  rw [hdelivery] at hread
  obtain ⟨tree, htree, hall⟩ := no_property_lost r (.tree root)
  obtain ⟨htaken, -⟩ := hall Listener.collect []
  rw [hread, htree.eq_asContent, hcards] at htaken
  have haccounts := (List.forall₂_cons.mp htaken).1
  exact ⟨hread, haccounts, haccounts.count⟩

end ContactCards
