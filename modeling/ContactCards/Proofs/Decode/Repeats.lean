import ContactCards.Proofs.Decode.Outline
import Mathlib

/-! Elements that repeat their value. The first value of the first accepted type is read. Decoders
of single values remark on the others, decoders of dates and points in time do not. -/
namespace ContactCards

variable {e child : Element} {d : Decoder} {type : ValueType} {types : List ValueType}
  {more : List Element}

/-- The chosen value is the one that is found. -/
theorem ValueType.Chosen.first?_eq (h : Chosen e types type child more) :
    first? e types = some (type, child) := by
  obtain ⟨⟨before, after, rfl, hbefore⟩, hfirst⟩ := h
  induction before with
  | nil => simp only [List.nil_append, first?, Element.firstCardElement?, hfirst, List.head?_cons]
  | cons t before ih =>
    obtain ⟨hnone, hrest⟩ := List.forall_mem_cons.mp hbefore
    simp only [List.cons_append, first?, Element.firstCardElement?, hnone, List.head?_nil]
    exact ih hrest

namespace Decoder

/-- A decoder gives a property exactly if the chosen value can be read: one outside any group with
the parameters, that value and its text. What it remarks depends on the type and on the number of
values after the chosen one. -/
def TakesValue (d : Decoder) (name : String) (types : List ValueType)
    (read : ValueType → String → Except DecodeFault Value)
    (remarks : ValueType → Nat → List String) : Prop :=
  ∀ e ps found, d.decode e ps = .ok found ↔
    ∃ type child more value, ValueType.Chosen e types type child more ∧
      read type child.text = .ok value ∧
      found = ⟨⟨none, upper name, ps, value, child.text⟩, remarks type more.length⟩

/-- A decoder takes the chosen value if its answer is made of what is found. -/
theorem takesValue_of_found {name : String}
    {read : ValueType → String → Except DecodeFault Value}
    {remarks : ValueType → Nat → List String}
    (hnone : ∀ e ps, ValueType.first? e types = none →
      d.decode e ps = .error (ValueType.missing e types))
    (hsome : ∀ e ps type child, ValueType.first? e types = some (type, child) →
      d.decode e ps = (read type child.text).map fun value =>
        ⟨⟨none, upper name, ps, value, child.text⟩,
          remarks type ((e.cardElementsNamed type.element).length - 1)⟩) :
    d.TakesValue name types read remarks := by
  intro e ps found
  constructor
  · intro hfound
    cases hfirst : ValueType.first? e types with
    | none =>
      rw [hnone e ps hfirst] at hfound
      cases hfound
    | some chosen =>
      obtain ⟨type, child⟩ := chosen
      obtain ⟨more, hchosen⟩ := ValueType.exists_chosen hfirst
      rw [hsome e ps type child hfirst, hchosen.length_eq, Nat.add_sub_cancel] at hfound
      cases hread : read type child.text with
      | error fault =>
        rw [hread] at hfound
        cases hfound
      | ok value =>
        rw [hread] at hfound
        cases hfound
        exact ⟨type, child, more, value, hchosen, hread, rfl⟩
  · rintro ⟨type, child, more, value, hchosen, hread, rfl⟩
    rw [hsome e ps type child hchosen.first?_eq, hchosen.length_eq, Nat.add_sub_cancel, hread]
    rfl

/-- The remark that is due: the number of the values that are ignored, if there are any. -/
def dueRemarks (type : ValueType) (extra : Nat) : List String :=
  if extra = 0 then [] else
    [toString extra ++ " additional <" ++ type.element ++ "> value(s) ignored"]

theorem ignoredRemark_eq : ignoredRemark = dueRemarks := by
  funext type extra
  cases extra with
  | zero => rfl
  | succ extra => rfl

theorem dueRemarks_eq_nil_iff (type : ValueType) (extra : Nat) :
    dueRemarks type extra = [] ↔ extra = 0 := by
  unfold dueRemarks
  split
  · next h => exact iff_of_true rfl h
  · next h => exact iff_of_false (List.cons_ne_nil _ _) h

/-- A decoder remarks what is due exactly if no value is repeated. -/
def RemarksUnlessRepeated (d : Decoder) (types : List ValueType) : Prop :=
  ∀ e ps found type child more, d.decode e ps = .ok found →
    ValueType.Chosen e types type child more →
    (found.remarks = dueRemarks type more.length ↔ more = [])

theorem TakesValue.remarksUnlessRepeated {name : String}
    {read : ValueType → String → Except DecodeFault Value}
    (h : d.TakesValue name types read fun _ _ => []) : d.RemarksUnlessRepeated types := by
  intro e ps found type child more hfound _
  obtain ⟨-, -, -, -, -, -, rfl⟩ := (h e ps found).mp hfound
  rw [eq_comm, dueRemarks_eq_nil_iff, List.length_eq_zero_iff]

theorem takesValue_single (element name : String) (types : List ValueType) :
    (single element name types).TakesValue name types ValueType.decode dueRemarks := by
  rw [← ignoredRemark_eq]
  apply takesValue_of_found
  · intro e ps hnone
    simp only [single, hnone]
  · intro e ps type child hfound
    simp only [single, hfound]
    cases type.decode child.text <;> rfl

/-- Reads a date, or keeps free text in its place. -/
def readDate (type : ValueType) (text : String) : Except DecodeFault Value :=
  if type = .text then .ok (.dateOrTime (.text text)) else type.decode text

theorem takesValue_date (element name : String) :
    (date element name).TakesValue name dateTypes readDate fun _ _ => [] := by
  apply takesValue_of_found
  · intro e ps hnone
    simp only [date, hnone]
  · intro e ps type child hfound
    by_cases htype : type = .text
    · subst type
      simp only [date, hfound]
      rfl
    · simp only [date, hfound, readDate, htype]
      cases type.decode child.text <;> rfl

theorem takesValue_revision :
    revision.TakesValue "REV" [.timestamp] ValueType.decode fun _ _ => [] := by
  apply takesValue_of_found
  · intro e ps hnone
    simp only [revision, hnone]
  · intro e ps type child hfound
    simp only [revision, hfound]
    cases type.decode child.text <;> rfl

end Decoder

/-- The first value of the first accepted type is decoded, whatever comes after it. A decoder of
single values remarks on the number of the values of that type after it, if there are any. The
decoders of dates and of the time of the last change remark nothing, which is what is due exactly if
there are none. -/
theorem repeats_remarked (element name : String) (types : List ValueType) :
    (Decoder.single element name types).TakesValue name types ValueType.decode
      Decoder.dueRemarks ∧
    (Decoder.date element name).TakesValue name Decoder.dateTypes Decoder.readDate
      (fun _ _ => []) ∧
    Decoder.revision.TakesValue "REV" [.timestamp] ValueType.decode (fun _ _ => []) ∧
    (Decoder.date element name).RemarksUnlessRepeated Decoder.dateTypes ∧
    Decoder.revision.RemarksUnlessRepeated [.timestamp] :=
  ⟨Decoder.takesValue_single element name types, Decoder.takesValue_date element name,
    Decoder.takesValue_revision, (Decoder.takesValue_date element name).remarksUnlessRepeated,
    Decoder.takesValue_revision.remarksUnlessRepeated⟩

/-- A second birthday is dropped without a remark, while a second note is remarked on. -/
theorem repeated_date_unremarked :
    let value (type text : String) (rest : Content) : Content :=
      .element (.card type) [] (.text text .empty) rest
    let bday : Element :=
      ⟨.card "bday", [], value "date" "19850412" (value "date" "19850413" .empty)⟩
    let note : Element := ⟨.card "note", [], value "text" "a" (value "text" "b" .empty)⟩
    (Registry.standard.get? (.card "bday") = some (.date "bday" "BDAY") ∧
      (bday.cardElementsNamed "date").length = 2 ∧
      (Decoder.date "bday" "BDAY").decode bday .empty = .ok ⟨⟨none, "BDAY", .empty,
        .dateOrTime (.date ⟨1985, 4, 12, by decide⟩), "19850412"⟩, []⟩) ∧
    Registry.standard.get? (.card "note") = some (.text "note" "NOTE") ∧
      (Decoder.text "note" "NOTE").decode note .empty =
        .ok ⟨⟨none, "NOTE", .empty, .text "a", "a"⟩, ["1 additional <text> value(s) ignored"]⟩ := by
  intro value bday note
  exact ⟨⟨by cbv, by cbv, by decide +kernel⟩, by cbv, by decide +kernel⟩

end ContactCards
