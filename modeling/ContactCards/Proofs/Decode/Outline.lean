import ContactCards.Proofs.Decode.Standard
import Mathlib

/-! What the standard decoders see of an element: its local name, and of its child elements in the
namespace of cards the local names and the texts. Attributes, text between the child elements, what
is in other namespaces and the inside of the child elements do not matter. -/
namespace ContactCards

variable {e e' child : Element} {d : Decoder} {ps : Parameters} {type : ValueType}
  {types : List ValueType} {more : List Element} {element name localName : String}

namespace Element

/-- The local name of an element, and the local names and texts of its child elements in the
namespace of cards. -/
def outline (e : Element) : String × List (String × String) :=
  (e.localName, e.cardElements.map fun child => (child.localName, child.text))

theorem localName_eq_of_outline (h : e.outline = e'.outline) : e.localName = e'.localName :=
  congrArg Prod.fst h

theorem texts_eq_outline (e : Element) (localName : String) :
    (e.cardElementsNamed localName).map text =
      (e.outline.2.filter (·.1 == localName)).map Prod.snd := by
  rw [cardElementsNamed, outline, List.filter_map, List.map_map]
  rfl

/-- Child elements with one local name have the same texts. -/
theorem texts_eq_of_outline (h : e.outline = e'.outline) (localName : String) :
    (e.cardElementsNamed localName).map text = (e'.cardElementsNamed localName).map text := by
  rw [texts_eq_outline, texts_eq_outline, h]

theorem firstText_eq_of_outline (h : e.outline = e'.outline) (localName : String) :
    (e.firstCardElement? localName).map text = (e'.firstCardElement? localName).map text := by
  rw [firstCardElement?, firstCardElement?, ← List.head?_map, ← List.head?_map,
    texts_eq_of_outline h]

end Element

namespace ValueType

/-- The value of an element is a child element of the first of the types that occurs, and it comes
before all others of that type. -/
structure Chosen (e : Element) (types : List ValueType) (type : ValueType) (child : Element)
    (more : List Element) : Prop where
  accepted : ∃ before after, types = before ++ type :: after ∧
    ∀ t ∈ before, e.cardElementsNamed t.element = []
  first : e.cardElementsNamed type.element = child :: more

theorem first?_eq_none_iff :
    first? e types = none ↔ ∀ t ∈ types, e.cardElementsNamed t.element = [] := by
  induction types with
  | nil => exact iff_of_true rfl nofun
  | cons type types ih =>
    rw [first?, List.forall_mem_cons, ← ih, Element.firstCardElement?]
    cases e.cardElementsNamed type.element with
    | nil => simp
    | cons child more => simp

/-- The first value that is found is the chosen one. -/
theorem exists_chosen (h : first? e types = some (type, child)) :
    ∃ more, Chosen e types type child more := by
  induction types with
  | nil => cases h
  | cons t types ih =>
    rw [first?, Element.firstCardElement?] at h
    cases hnamed : e.cardElementsNamed t.element with
    | nil =>
      rw [hnamed] at h
      obtain ⟨more, ⟨before, after, rfl, hbefore⟩, hfirst⟩ := ih h
      have hnone : ∀ t' ∈ t :: before, e.cardElementsNamed t'.element = [] :=
        List.forall_mem_cons.mpr ⟨hnamed, hbefore⟩
      exact ⟨more, ⟨t :: before, after, rfl, hnone⟩, hfirst⟩
    | cons first more =>
      rw [hnamed] at h
      cases h
      exact ⟨more, ⟨[], types, rfl, nofun⟩, hnamed⟩

/-- There is another of its type for each that comes after it. -/
theorem Chosen.length_eq (h : Chosen e types type child more) :
    (e.cardElementsNamed type.element).length = more.length + 1 := by
  rw [h.first, List.length_cons]

theorem first?_eq_of_outline (h : e.outline = e'.outline) (types : List ValueType) :
    (first? e types).map (fun found => (found.1, found.2.text)) =
      (first? e' types).map (fun found => (found.1, found.2.text)) := by
  induction types with
  | nil => rfl
  | cons type types ih =>
    have htext := Element.firstText_eq_of_outline h type.element
    rw [first?, first?]
    cases hfound : e.firstCardElement? type.element with
    | none =>
      rw [hfound, Option.map_none, eq_comm, Option.map_eq_none_iff] at htext
      rw [htext]
      exact ih
    | some child =>
      rw [hfound, Option.map_some, eq_comm, Option.map_eq_some_iff] at htext
      obtain ⟨child', hfound', hsame⟩ := htext
      rw [hfound']
      exact congrArg (fun text => some (type, text)) hsame.symm

/-- Elements with one outline lack a value both, or both have one, of the same type and with the
same text. -/
theorem first?_cases (h : e.outline = e'.outline) (types : List ValueType) :
    (first? e types = none ∧ first? e' types = none) ∨
    ∃ type child child', first? e types = some (type, child) ∧
      first? e' types = some (type, child') ∧ child.text = child'.text := by
  have hmap := first?_eq_of_outline h types
  cases hfound : first? e types with
  | none =>
    rw [hfound, Option.map_none, eq_comm, Option.map_eq_none_iff] at hmap
    exact Or.inl ⟨rfl, hmap⟩
  | some found =>
    obtain ⟨type, child⟩ := found
    rw [hfound, Option.map_some, eq_comm, Option.map_eq_some_iff] at hmap
    obtain ⟨⟨type', child'⟩, hfound', hsame⟩ := hmap
    obtain ⟨rfl, htext⟩ := Prod.mk.inj hsame
    exact Or.inr ⟨type', child, child', rfl, hfound', htext.symm⟩

theorem missing_eq_of_outline (h : e.outline = e'.outline) (types : List ValueType) :
    missing e types = missing e' types := by
  rw [missing, missing, Element.localName_eq_of_outline h]

end ValueType

namespace Decoder

/-- A decoder that sees nothing of an element but its outline. -/
def SeesOutline (d : Decoder) : Prop :=
  ∀ e e' ps, e.outline = e'.outline → d.decode e ps = d.decode e' ps

theorem seesOutline_single (element name : String) (types : List ValueType) :
    (single element name types).SeesOutline := by
  intro e e' ps h
  simp only [single]
  rcases ValueType.first?_cases h types with ⟨hnone, hnone'⟩ | ⟨type, child, child', hfound,
    hfound', htext⟩
  · rw [hnone, hnone']
    exact congrArg Except.error (ValueType.missing_eq_of_outline h types)
  · have hcount := congrArg List.length (Element.texts_eq_of_outline h type.element)
    rw [List.length_map, List.length_map] at hcount
    simp only [hfound, hfound', htext, hcount]

theorem seesOutline_textList (element name : String) : (textList element name).SeesOutline := by
  intro e e' ps h
  simp only [textList, Element.texts_eq_of_outline h, ValueType.missing_eq_of_outline h]

theorem seesOutline_date (element name : String) : (date element name).SeesOutline := by
  intro e e' ps h
  simp only [date]
  rcases ValueType.first?_cases h dateTypes with ⟨hnone, hnone'⟩ | ⟨type, child, child', hfound,
    hfound', htext⟩
  · rw [hnone, hnone']
    exact congrArg Except.error (ValueType.missing_eq_of_outline h dateTypes)
  · rw [hfound, hfound']
    cases type <;> simp only [htext]

theorem seesOutline_revision : revision.SeesOutline := by
  intro e e' ps h
  simp only [revision]
  rcases ValueType.first?_cases h [.timestamp] with ⟨hnone, hnone'⟩ | ⟨type, child, child', hfound,
    hfound', htext⟩
  · rw [hnone, hnone']
    exact congrArg Except.error (ValueType.missing_eq_of_outline h [.timestamp])
  · simp only [hfound, hfound', htext]

/-- Components are collected from local names and texts. -/
theorem foldl_step_eq {α Part : Type} (ofElement? : String → Option Part)
    (add : α → Part → String → α) (empty : α) {children children' : List Element}
    (h : children.map (fun child => (child.localName, child.text)) =
      children'.map fun child => (child.localName, child.text)) (found : Option α) :
    children.foldl (collect.step ofElement? add empty) found =
      children'.foldl (collect.step ofElement? add empty) found := by
  induction children generalizing children' found with
  | nil =>
    obtain rfl := List.map_eq_nil_iff.mp h.symm
    rfl
  | cons child children ih =>
    cases children' with
    | nil => cases h
    | cons child' children' =>
      obtain ⟨hchild, hchildren⟩ := List.cons.inj h
      obtain ⟨hname, htext⟩ := Prod.mk.inj hchild
      rw [List.foldl_cons, List.foldl_cons, collect.step, collect.step, hname, htext]
      exact ih hchildren _

theorem collect_eq_of_outline {α Part : Type} (h : e.outline = e'.outline)
    (ofElement? : String → Option Part) (add : α → Part → String → α) (empty : α) :
    collect ofElement? add empty e.cardElements = collect ofElement? add empty e'.cardElements :=
  foldl_step_eq ofElement? add empty (congrArg Prod.snd h) none

theorem noComponents_eq_of_outline (h : e.outline = e'.outline) :
    noComponents e = noComponents e' := by
  rw [noComponents, noComponents, Element.localName_eq_of_outline h]

theorem seesOutline_personName : personName.SeesOutline := by
  intro e e' ps h
  simp only [personName, collect_eq_of_outline h, noComponents_eq_of_outline h]

theorem seesOutline_address : address.SeesOutline := by
  intro e e' ps h
  simp only [address, collect_eq_of_outline h, noComponents_eq_of_outline h]

theorem seesOutline_organization : organization.SeesOutline := by
  intro e e' ps h
  simp only [organization, Element.texts_eq_of_outline h, ValueType.missing_eq_of_outline h]

theorem seesOutline_gender : gender.SeesOutline := by
  intro e e' ps h
  have hsex := Element.firstText_eq_of_outline h "sex"
  simp only [gender, Element.firstText_eq_of_outline h "identity"]
  cases hfound : e.firstCardElement? "sex" with
  | none =>
    rw [hfound, Option.map_none, eq_comm, Option.map_eq_none_iff] at hsex
    rw [hsex]
  | some child =>
    rw [hfound, Option.map_some, eq_comm, Option.map_eq_some_iff] at hsex
    obtain ⟨child', hfound', htext⟩ := hsex
    simp only [hfound', htext]

/-- A decoder that takes its value from the first child element of the first of the types that
occurs, and sees nothing else. -/
def TakesFirst (d : Decoder) (types : List ValueType) : Prop :=
  ∃ property : ValueType → String → Parameters → Except DecodeFault Property, ∀ e ps,
    ((∀ t ∈ types, e.cardElementsNamed t.element = []) ∧
      d.decode e ps = .error (ValueType.missing e types)) ∨
    ∃ type child more, ValueType.Chosen e types type child more ∧
      (e.cardElementsNamed type.element).length = more.length + 1 ∧
      (d.decode e ps).map Decoded.property = property type child.text ps

/-- A decoder takes the first value if its answer is made of what is found. -/
theorem takesFirst_of_found
    (property : ValueType → String → Parameters → Except DecodeFault Property)
    (hnone : ∀ e ps, ValueType.first? e types = none →
      d.decode e ps = .error (ValueType.missing e types))
    (hsome : ∀ e ps type child, ValueType.first? e types = some (type, child) →
      (d.decode e ps).map Decoded.property = property type child.text ps) :
    d.TakesFirst types := by
  refine ⟨property, fun e ps => ?_⟩
  cases hfound : ValueType.first? e types with
  | none => exact Or.inl ⟨ValueType.first?_eq_none_iff.mp hfound, hnone e ps hfound⟩
  | some found =>
    obtain ⟨type, child⟩ := found
    obtain ⟨more, hchosen⟩ := ValueType.exists_chosen hfound
    exact Or.inr ⟨type, child, more, hchosen, hchosen.length_eq, hsome e ps type child hfound⟩

/-- The property of a decoded text. -/
def propertyOfText (name : String) (type : ValueType) (text : String) (ps : Parameters) :
    Except DecodeFault Property :=
  (type.decode text).map fun value => (plain name value text ps).property

theorem takesFirst_single (element name : String) (types : List ValueType) :
    (single element name types).TakesFirst types := by
  apply takesFirst_of_found (propertyOfText name)
  · intro e ps hnone
    simp only [single, hnone]
  · intro e ps type child hfound
    simp only [single, hfound, propertyOfText]
    cases type.decode child.text <;> rfl

/-- The property of a text that is a date, or of free text. -/
def propertyOfDate (name : String) (type : ValueType) (text : String) (ps : Parameters) :
    Except DecodeFault Property :=
  if type = .text then .ok (plain name (.dateOrTime (.text text)) text ps).property
  else propertyOfText name type text ps

theorem takesFirst_date (element name : String) : (date element name).TakesFirst dateTypes := by
  apply takesFirst_of_found (propertyOfDate name)
  · intro e ps hnone
    simp only [date, hnone]
  · intro e ps type child hfound
    by_cases htype : type = .text
    · subst type
      simp only [date, hfound]
      rfl
    · simp only [date, hfound, propertyOfDate, htype, propertyOfText]
      cases type.decode child.text <;> rfl

theorem takesFirst_revision : revision.TakesFirst [.timestamp] := by
  apply takesFirst_of_found (propertyOfText "REV")
  · intro e ps hnone
    simp only [revision, hnone]
  · intro e ps type child hfound
    simp only [revision, hfound, propertyOfText]
    cases type.decode child.text <;> rfl

end Decoder

namespace Registry

theorem seesOutline_standardDecoders : ∀ d ∈ standardDecoders, d.SeesOutline := by
  refine List.forall_mem_append.mpr ⟨List.forall_mem_append.mpr
    ⟨List.forall_mem_append.mpr ⟨?_, ?_⟩, ?_⟩, ?_⟩
  · exact List.forall_mem_map.mpr fun _ _ => Decoder.seesOutline_single _ _ _
  · exact List.forall_mem_map.mpr fun _ _ => Decoder.seesOutline_single _ _ _
  · exact List.forall_mem_map.mpr fun _ _ => Decoder.seesOutline_single _ _ _
  · simp only [List.forall_mem_cons, List.not_mem_nil, false_implies, implies_true, and_true]
    exact ⟨Decoder.seesOutline_single _ _ _, Decoder.seesOutline_single _ _ _,
      Decoder.seesOutline_textList _ _, Decoder.seesOutline_textList _ _,
      Decoder.seesOutline_personName, Decoder.seesOutline_address, Decoder.seesOutline_organization,
      Decoder.seesOutline_gender, Decoder.seesOutline_date _ _, Decoder.seesOutline_date _ _,
      Decoder.seesOutline_revision⟩

theorem seesOutline_standard (h : d ∈ standard.decoders) : d.SeesOutline :=
  seesOutline_standardDecoders d (mem_ofDecoders h)

end Registry

/-- The standard decoders answer the same about elements with one outline, whatever the parameters
are. Those of single values take their property from the first child element of the first accepted
type that occurs, so there is a value of that type to be left out of the count of the others. -/
theorem standard_decoders_see_outlines :
    (∀ d ∈ Registry.standard.decoders, ∀ (ps : Parameters) (e e' : Element),
      e.localName = e'.localName →
      e.cardElements.map (fun child => (child.localName, child.text)) =
        e'.cardElements.map (fun child => (child.localName, child.text)) →
      d.decode e ps = d.decode e' ps) ∧
    (∀ element name types, (Decoder.single element name types).TakesFirst types) ∧
    (∀ element name, (Decoder.date element name).TakesFirst Decoder.dateTypes) ∧
    Decoder.revision.TakesFirst [.timestamp] := by
  refine ⟨fun d hd ps e e' hname hchildren => ?_, Decoder.takesFirst_single,
    Decoder.takesFirst_date, Decoder.takesFirst_revision⟩
  have houtline : e.outline = e'.outline := Prod.ext hname hchildren
  exact Registry.seesOutline_standard hd e e' ps houtline

/-- Two spellings of one telephone number: an attribute, a blank and an element of another namespace
in the one, an element inside the value in the other. -/
theorem standard_decoders_see_outlines_tel :
    let tel := Decoder.uriOrText "tel" "TEL"
    let e : Element := ⟨.card "tel", [⟨"x", "y"⟩], .text " " (.element (.card "uri") []
      (.text "tel:1" .empty) (.element ⟨"urn:x", "uri"⟩ [] .empty .empty))⟩
    let e' : Element := ⟨.card "tel", [], .element (.card "uri") []
      (.text "tel" (.element (.card "b") [] (.text ":" .empty) (.text "1" .empty))) .empty⟩
    let outline (e : Element) := e.cardElements.map fun child => (child.localName, child.text)
    (tel ∈ Registry.standard.decoders ∧ e.localName = e'.localName ∧ outline e = outline e') ∧
      tel.decode e .empty = tel.decode e' .empty ∧
      tel.decode e' .empty = .ok ⟨⟨none, "TEL", .empty, .uri "tel:1", "tel:1"⟩, []⟩ := by
  intro tel e e' outline
  have htel : tel ∈ Registry.standard.decoders := by
    have hget : Registry.standard.get? (.card "tel") = some tel := by cbv
    exact List.mem_of_find?_eq_some hget
  have hname : e.localName = e'.localName := rfl
  have houtline : outline e = outline e' := by cbv
  exact ⟨⟨htel, hname, houtline⟩,
    standard_decoders_see_outlines.1 tel htel .empty e e' hname houtline, by cbv⟩

end ContactCards
