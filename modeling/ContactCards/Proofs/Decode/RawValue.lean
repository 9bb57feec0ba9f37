import ContactCards.Proofs.Decode.Components
import ContactCards.Proofs.Text.Pieces
import Mathlib

/-! What the raw text of a list of texts, an organization, a name or an address tells of the value.
The texts of the value are joined as they are, so a separator in a text looks like one between two
texts: the raw text tells the pieces that separators cut the texts into, and it tells the value
where no text has a separator in it. -/
namespace ContactCards

variable {α Part : Type} {e : Element} {ps : Parameters} {found : Decoded}

namespace Value

/-- The pieces of components whose texts are joined by commas, and that are joined by semicolons. -/
def cut (components : List (List String)) : List (List String) :=
  (components.flatMap fun texts => pieces ';' (joined ',' texts)).map (pieces ',')

/-- The pieces that separators cut the texts of a value into. -/
def cutTexts : Value → List (List String)
  | textList texts => [texts.flatMap (pieces ',')]
  | name n => cut (NamePart.all.map n.part)
  | address a => cut (AddressPart.all.map a.part)
  | organization o => [o.components.flatMap (pieces ';')]
  | _ => []

/-- No text of a value has a separator in it. -/
def Plain : Value → Prop
  | textList texts => ∀ s ∈ texts, ',' ∉ s.toList
  | name n => ∀ p, ∀ s ∈ n.part p, ',' ∉ s.toList ∧ ';' ∉ s.toList
  | address a => ∀ p, ∀ s ∈ a.part p, ',' ∉ s.toList ∧ ';' ∉ s.toList
  | organization o => ∀ s ∈ o.components, ';' ∉ s.toList
  | _ => True

theorem cut_eq (components : List (List String)) (h : components ≠ []) :
    cut components = (pieces ';' (joined ';' (components.map (joined ',')))).map (pieces ',') := by
  have hne : components.map (joined ',') ≠ [] := by simpa using h
  rw [pieces_joined ';' hne, List.flatMap_map, cut]

/-- Joined components are the same exactly if they are cut into the same pieces. -/
theorem joined_components_eq_iff {parts : List Part} {f g : Part → List String}
    (hne : parts ≠ []) :
    joined ';' (parts.map fun p => joined ',' (f p)) =
        joined ';' (parts.map fun p => joined ',' (g p)) ↔
      cut (parts.map f) = cut (parts.map g) := by
  have hcut := List.map_injective_iff.mpr (pieces_injective ',')
  rw [cut_eq (parts.map f) (by simpa using hne), cut_eq (parts.map g) (by simpa using hne),
    hcut.eq_iff, (pieces_injective ';').eq_iff, List.map_map, List.map_map]
  rfl

/-- Components whose texts have no separators and are not empty can be told from the joined text. -/
theorem components_eq_of_joined {parts : List Part} {f g : Part → List String} (hne : parts ≠ [])
    (hf : ∀ p ∈ parts, ∀ s ∈ f p, ',' ∉ s.toList ∧ ';' ∉ s.toList)
    (hg : ∀ p ∈ parts, ∀ s ∈ g p, ',' ∉ s.toList ∧ ';' ∉ s.toList)
    (hf' : ∀ p, "" ∉ f p) (hg' : ∀ p, "" ∉ g p)
    (h : joined ';' (parts.map fun p => joined ',' (f p)) =
      joined ';' (parts.map fun p => joined ',' (g p))) :
    ∀ p ∈ parts, f p = g p := by
  have hfree {k : Part → List String}
      (hk : ∀ p ∈ parts, ∀ s ∈ k p, ',' ∉ s.toList ∧ ';' ∉ s.toList) :
      ∀ s ∈ parts.map fun p => joined ',' (k p), ';' ∉ s.toList := by
    intro s hs
    obtain ⟨p, hp, rfl⟩ := List.mem_map.mp hs
    exact notMem_joined (by decide) fun t ht => (hk p hp t ht).2
  have hmap := (joined_inj (by simpa using hne) (by simpa using hne) (hfree hf) (hfree hg)).mp h
  intro p hp
  have hpart : joined ',' (f p) = joined ',' (g p) := List.map_inj_left.mp hmap p hp
  exact joined_inj_of_ne_empty (hf' p) (hg' p) (fun s hs => (hf p hp s hs).1)
    (fun s hs => (hg p hp s hs).1) hpart

end Value

theorem Element.notMem_textsNamed (e : Element) (name : String) : "" ∉ e.textsNamed name := by
  intro hmem
  simpa using (List.mem_filter.mp hmem).2

theorem Organization.components_injective : Function.Injective components := by
  rintro ⟨name, units⟩ ⟨name', units'⟩ h
  obtain ⟨rfl, rfl⟩ := List.cons.inj h
  rfl

namespace Decoder

/-- What the raw texts of two properties that a decoder gives tell of their values: they are the same
exactly if the texts of the values are cut into the same pieces and, where no text has a separator
in it, only if the values are the same. -/
def TellsPieces (d : Decoder) : Prop :=
  ∀ e e' ps ps' found found', d.decode e ps = .ok found → d.decode e' ps' = .ok found' →
    (found.property.raw = found'.property.raw ↔
      found.property.value.cutTexts = found'.property.value.cutTexts) ∧
    (found.property.value.Plain → found'.property.value.Plain →
      found.property.raw = found'.property.raw → found.property.value = found'.property.value)

theorem tellsPieces_textList (element name : String) : (textList element name).TellsPieces := by
  have hdecode {e ps found} (h : (textList element name).decode e ps = .ok found) :
      ∃ texts, texts ≠ [] ∧ found.property.value = .textList texts ∧
        found.property.raw = joined ',' texts := by
    simp only [textList] at h
    split at h
    · cases h
    · next hne =>
      cases h
      exact ⟨_, by simpa using hne, rfl, rfl⟩
  intro e e' ps ps' found found' h h'
  obtain ⟨texts, hne, hvalue, hraw⟩ := hdecode h
  obtain ⟨texts', hne', hvalue', hraw'⟩ := hdecode h'
  rw [hvalue, hvalue', hraw, hraw']
  constructor
  · rw [joined_eq_iff hne hne', Value.cutTexts, Value.cutTexts, List.singleton_inj]
  · intro hplain hplain' hsame
    rw [(joined_inj hne hne' hplain hplain').mp hsame]

theorem tellsPieces_organization : organization.TellsPieces := by
  have hdecode {e ps found} (h : organization.decode e ps = .ok found) :
      ∃ o, found.property.value = .organization o ∧
        found.property.raw = joined ';' o.components := by
    simp only [organization] at h
    split at h
    · cases h
    · cases h
      exact ⟨_, rfl, rfl⟩
  intro e e' ps ps' found found' h h'
  obtain ⟨o, hvalue, hraw⟩ := hdecode h
  obtain ⟨o', hvalue', hraw'⟩ := hdecode h'
  have hne (o : Organization) : o.components ≠ [] := List.cons_ne_nil o.name o.units
  rw [hvalue, hvalue', hraw, hraw']
  constructor
  · rw [joined_eq_iff (hne o) (hne o'), Value.cutTexts, Value.cutTexts, List.singleton_inj]
  · intro hplain hplain' hsame
    have hcomponents := (joined_inj (hne o) (hne o') hplain hplain').mp hsame
    rw [Organization.components_injective hcomponents]

/-- A decoder that reads components gives a property of their texts. -/
theorem ReadsComponents.raw_eq_joined {d : Decoder} {name : String} {elements : List String}
    {value : (String → List String) → Value} (hd : d.ReadsComponents name elements value)
    (h : d.decode e ps = .ok found) :
    found.property.value = value e.textsNamed ∧
      found.property.raw =
        joined ';' (elements.map fun element => joined ',' (e.textsNamed element)) := by
  rcases hd e ps with ⟨-, hfault⟩ | ⟨-, ⟨found', hfound, hcollects⟩, -⟩
  · rw [hfault] at h
    cases h
  · rw [hfound] at h
    cases h
    exact ⟨hcollects.value, hcollects.raw⟩

/-- Values that are told apart by their components are told as far as the pieces of these go. -/
theorem ReadsComponents.tellsPieces {d : Decoder} {name : String} {elements : List String}
    {value : (String → List String) → Value} (hd : d.ReadsComponents name elements value)
    (hne : elements ≠ [])
    (hext : ∀ {f g}, (∀ element ∈ elements, f element = g element) → value f = value g)
    (hcut : ∀ f, (value f).cutTexts = Value.cut (elements.map f))
    (hplain : ∀ f, (value f).Plain →
      ∀ element ∈ elements, ∀ s ∈ f element, ',' ∉ s.toList ∧ ';' ∉ s.toList) :
    d.TellsPieces := by
  intro e e' ps ps' found found' h h'
  obtain ⟨hvalue, hraw⟩ := hd.raw_eq_joined h
  obtain ⟨hvalue', hraw'⟩ := hd.raw_eq_joined h'
  rw [hvalue, hvalue', hraw, hraw', hcut, hcut]
  refine ⟨Value.joined_components_eq_iff hne, fun hv hv' hsame => ?_⟩
  exact hext (Value.components_eq_of_joined hne (hplain _ hv) (hplain _ hv')
    e.notMem_textsNamed e'.notMem_textsNamed hsame)

theorem tellsPieces_personName : personName.TellsPieces := by
  apply readsComponents_personName.tellsPieces (List.cons_ne_nil _ _)
  · intro f g h
    simp only [List.forall_mem_cons] at h
    simp only [h]
  · exact fun _ => rfl
  · intro f h
    simp only [List.forall_mem_cons, List.not_mem_nil, false_implies, implies_true, and_true]
    exact ⟨h .family, h .given, h .additional, h .honorificBefore, h .honorificAfter⟩

theorem tellsPieces_address : address.TellsPieces := by
  apply readsComponents_address.tellsPieces (List.cons_ne_nil _ _)
  · intro f g h
    simp only [List.forall_mem_cons] at h
    simp only [h]
  · exact fun _ => rfl
  · intro f h
    simp only [List.forall_mem_cons, List.not_mem_nil, false_implies, implies_true, and_true]
    exact ⟨h .poBox, h .extended, h .street, h .locality, h .region, h .postalCode, h .country⟩

end Decoder

/-- The raw text of a list of texts, a name, an address or an organization tells the pieces that
separators cut its texts into, and the value itself where no text has a separator in it. -/
theorem raw_texts_tell_pieces (element name : String) :
    (Decoder.textList element name).TellsPieces ∧
    Decoder.personName.TellsPieces ∧ Decoder.address.TellsPieces ∧
    Decoder.organization.TellsPieces :=
  ⟨Decoder.tellsPieces_textList element name, Decoder.tellsPieces_personName,
    Decoder.tellsPieces_address, Decoder.tellsPieces_organization⟩

/-- Two nicknames and one with a comma in it have the same raw text; so have two surnames and one
with a comma in it, two places in a row and one with a semicolon in it, and a unit of an
organization and a name with a semicolon in it. -/
theorem raw_texts_shared :
    let children (names : List (String × String)) : Content :=
      names.foldr (fun (name, s) => .element (.card name) [] (.text s .empty)) .empty
    let raw (d : Decoder) (names : List (String × String)) : Option (String × Value) :=
      (d.decode ⟨d.element, [], children names⟩ .empty).toOption.map fun found =>
        (found.property.raw, found.property.value)
    (raw (.textList "nickname" "NICKNAME") [("text", "a"), ("text", "b")] =
        some ("a,b", .textList ["a", "b"]) ∧
      raw (.textList "nickname" "NICKNAME") [("text", "a,b")] =
        some ("a,b", .textList ["a,b"])) ∧
    (raw .personName [("surname", "a"), ("surname", "b")] =
        some ("a,b;;;;", .name { PersonName.empty with family := ["a", "b"] }) ∧
      raw .personName [("surname", "a,b")] =
        some ("a,b;;;;", .name { PersonName.empty with family := ["a,b"] })) ∧
    (raw .address [("pobox", "a;b"), ("ext", "c")] =
        some ("a;b;c;;;;;", .address { Address.empty with poBox := ["a;b"], extended := ["c"] }) ∧
      raw .address [("pobox", "a"), ("ext", "b;c")] =
        some ("a;b;c;;;;;", .address { Address.empty with poBox := ["a"], extended := ["b;c"] })) ∧
    (raw .organization [("text", "a"), ("text", "b")] =
        some ("a;b", .organization ⟨"a", ["b"]⟩) ∧
      raw .organization [("text", "a;b")] = some ("a;b", .organization ⟨"a;b", []⟩)) := by
  intro children raw
  exact ⟨⟨by decide +kernel, by decide +kernel⟩, ⟨by decide +kernel, by decide +kernel⟩,
    ⟨by decide +kernel, by decide +kernel⟩, by decide +kernel, by decide +kernel⟩

end ContactCards
