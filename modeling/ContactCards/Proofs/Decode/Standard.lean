import ContactCards.Proofs.Decode.Registration
import ContactCards.Proofs.Markup.Completion

/-! The standard decoders. Each names its property after the element that it reads and keeps the
parameters, and if it fails it says that the element cannot be read. -/
namespace ContactCards

variable {ps : Parameters} {element name localName : String} {d : Decoder}

namespace DecodeFault

/-- The element cannot be read, for whatever reason. -/
def IsUnreadable (fault : DecodeFault) : Prop :=
  ∃ reason, fault = .unreadable reason

theorem isUnreadable_missing (e : Element) (types : List ValueType) :
    (ValueType.missing e types).IsUnreadable := ⟨_, rfl⟩

theorem isUnreadable_noComponents (e : Element) : (Decoder.noComponents e).IsUnreadable :=
  ⟨_, rfl⟩

end DecodeFault

theorem ValueType.isUnreadable_decode {type : ValueType} {s : String} {fault : DecodeFault}
    (h : type.decode s = .error fault) : fault.IsUnreadable := by
  cases type with
  | text => cases h
  | uri => cases h
  | languageTag => cases h
  | utcOffset =>
    simp only [decode] at h
    split at h
    · cases h
    · cases h
      exact ⟨_, rfl⟩
  | timestamp =>
    simp only [decode] at h
    split at h
    · cases h
    · cases h
      exact ⟨_, rfl⟩
  | dateAndOrTime | date | dateTime | time =>
    simp only [decode] at h
    split at h
    · cases h
    · cases h
      exact ⟨_, rfl⟩

namespace Decoder

/-- An answer about an element with a local name and parameters: a property with that name in upper
case and those parameters, or that the element cannot be read. -/
def Answers (localName : String) (ps : Parameters) : Except DecodeFault Decoded → Prop
  | .ok found => found.property.name = upper localName ∧ found.property.parameters = ps
  | .error fault => fault.IsUnreadable

/-- A decoder of card elements that answers so about all of them. -/
structure Faithful (d : Decoder) : Prop where
  isCard : d.element.isCard
  answers : ∀ e ps, Answers d.element.localName ps (d.decode e ps)

theorem answers_plain (h : upper name = upper localName) (value : Value) (raw : String) :
    Answers localName ps (.ok (plain name value raw ps)) := ⟨h, rfl⟩

/-- Decoding a text and saying what was found. -/
theorem answers_bind {type : ValueType} {s : String} {found : Value → Decoded}
    (h : ∀ value, Answers localName ps (.ok (found value))) :
    Answers localName ps (do return found (← type.decode s)) := by
  cases hdecode : type.decode s with
  | error fault => exact ValueType.isUnreadable_decode hdecode
  | ok value => exact h value

theorem faithful_single (h : upper name = upper element) (types : List ValueType) :
    (single element name types).Faithful := by
  refine ⟨rfl, fun e ps => ?_⟩
  simp only [single]
  split
  · exact DecodeFault.isUnreadable_missing e types
  · next type child _ => exact answers_bind fun value => answers_plain h value child.text

theorem faithful_textList (h : upper name = upper element) : (textList element name).Faithful := by
  refine ⟨rfl, fun e ps => ?_⟩
  simp only [textList]
  split
  · exact DecodeFault.isUnreadable_missing e _
  · exact answers_plain h _ _

theorem faithful_date (h : upper name = upper element) : (date element name).Faithful := by
  refine ⟨rfl, fun e ps => ?_⟩
  simp only [date]
  split
  · exact DecodeFault.isUnreadable_missing e _
  · exact answers_plain h _ _
  · exact answers_bind fun value => answers_plain h value _

theorem faithful_revision : revision.Faithful := by
  refine ⟨rfl, fun e ps => ?_⟩
  simp only [revision]
  split
  · exact DecodeFault.isUnreadable_missing e _
  · exact answers_bind fun value => answers_plain (upper_eq (by decide)) value _

theorem faithful_personName : personName.Faithful := by
  refine ⟨rfl, fun e ps => ?_⟩
  simp only [personName]
  split
  · exact DecodeFault.isUnreadable_noComponents e
  · exact answers_plain (upper_eq (by decide)) _ _

theorem faithful_address : address.Faithful := by
  refine ⟨rfl, fun e ps => ?_⟩
  simp only [address]
  split
  · exact DecodeFault.isUnreadable_noComponents e
  · exact answers_plain (upper_eq (by decide)) _ _

theorem faithful_organization : organization.Faithful := by
  refine ⟨rfl, fun e ps => ?_⟩
  simp only [organization]
  split
  · exact DecodeFault.isUnreadable_missing e _
  · exact answers_plain (upper_eq (by decide)) _ _

theorem faithful_gender : gender.Faithful := by
  refine ⟨rfl, fun e ps => ?_⟩
  simp only [gender]
  split
  · exact ⟨_, rfl⟩
  · next child _ =>
    by_cases hletter : (trim child.text).isEmpty
    · simp only [hletter, ↓reduceIte]
      exact answers_plain (upper_eq (by decide)) _ _
    · simp only [hletter, Bool.false_eq_true, ↓reduceIte]
      cases Sex.parse? child.text with
      | none => exact ⟨_, rfl⟩
      | some sex => exact answers_plain (upper_eq (by decide)) _ _

end Decoder

namespace Registry

/-- Decoders with names like those of their elements, made alike from pairs of names. -/
theorem faithful_map {make : String → String → Decoder} {names : List (String × String)}
    (hmake : ∀ {element name}, upper name = upper element → (make element name).Faithful)
    (hnames : ∀ a ∈ names, a.2.toList.map Char.toUpper = a.1.toList.map Char.toUpper) :
    ∀ d ∈ names.map (fun (element, name) => make element name), d.Faithful := by
  intro d hd
  obtain ⟨a, ha, rfl⟩ := List.mem_map.mp hd
  exact hmake (upper_eq (hnames a ha))

theorem faithful_standardDecoders : ∀ d ∈ standardDecoders, d.Faithful := by
  refine List.forall_mem_append.mpr ⟨List.forall_mem_append.mpr
    ⟨List.forall_mem_append.mpr ⟨?_, ?_⟩, ?_⟩, ?_⟩
  · exact faithful_map (fun h => Decoder.faithful_single h _) (by decide)
  · exact faithful_map (fun h => Decoder.faithful_single h _) (by decide)
  · exact faithful_map (fun h => Decoder.faithful_single h _) (by decide)
  · simp only [List.forall_mem_cons, List.not_mem_nil, false_implies, implies_true, and_true]
    exact ⟨Decoder.faithful_single (upper_eq (by decide)) _,
      Decoder.faithful_single (upper_eq (by decide)) _,
      Decoder.faithful_textList (upper_eq (by decide)),
      Decoder.faithful_textList (upper_eq (by decide)),
      Decoder.faithful_personName, Decoder.faithful_address, Decoder.faithful_organization,
      Decoder.faithful_gender, Decoder.faithful_date (upper_eq (by decide)),
      Decoder.faithful_date (upper_eq (by decide)), Decoder.faithful_revision⟩

/-- The standard registry has faithful decoders for the names that it finds them under. -/
theorem get?_standard {name : ExpandedName} (h : standard.get? name = some d) :
    d.element = name ∧ d.Faithful := by
  rw [get?] at h
  have hname : (d.element == name) = true := (List.find?_eq_some_iff_append.mp h).1
  have hmem : d ∈ standardDecoders := mem_ofDecoders (List.mem_of_find?_eq_some h)
  exact ⟨eq_of_beq hname, faithful_standardDecoders d hmem⟩

end Registry

end ContactCards
