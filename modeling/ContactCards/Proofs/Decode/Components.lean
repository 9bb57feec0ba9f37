import ContactCards.Decode.Decoder
import Mathlib

/-! Names and addresses. Each component holds the texts of the child elements that name it, in order
and without empty ones. Only an element without any such child element cannot be read. -/
namespace ContactCards

variable {α Part : Type} [DecidableEq Part] {e child : Element} {children : List Element}
  {found : Option α} {p : Part}

/-- The texts of the child elements with a name, in order and without empty ones. -/
def Element.textsNamed (e : Element) (name : String) : List String :=
  ((e.cardElementsNamed name).map text).filter (· ≠ "")

/-- Values made of components: the components in order, the elements that name them, and how a
component is seen and filled. An element names one component at most. -/
structure Composite (α Part : Type) [DecidableEq Part] where
  parts : List Part
  element : Part → String
  part : α → Part → List String
  add : α → Part → String → α
  empty : α
  nodup : parts.Nodup
  find?_element : ∀ p, parts.find? (element · == element p) = some p
  part_empty : ∀ p, part empty p = []
  part_add : ∀ v p q s, part (add v p s) q = part v q ++ if p = q then [s] else []

def NamePart.composite : Composite PersonName NamePart where
  parts := [.family, .given, .additional, .honorificBefore, .honorificAfter]
  element := element
  part := PersonName.part
  add := PersonName.add
  empty := .empty
  nodup := by decide
  find?_element p := by cases p <;> decide
  part_empty p := by cases p <;> rfl
  part_add := PersonName.part_add

def AddressPart.composite : Composite Address AddressPart where
  parts := [.poBox, .extended, .street, .locality, .region, .postalCode, .country]
  element := element
  part := Address.part
  add := Address.add
  empty := .empty
  nodup := by decide
  find?_element p := by cases p <;> decide
  part_empty p := by cases p <;> rfl
  part_add := Address.part_add

namespace Composite

variable (c : Composite α Part)

/-- The component that an element names. -/
def ofElement? (name : String) : Option Part :=
  c.parts.find? (c.element · == name)

theorem ofElement?_eq_some {name : String} : c.ofElement? name = some p ↔ c.element p = name := by
  rw [ofElement?]
  constructor
  · intro h
    have hname := List.find?_some h
    exact eq_of_beq hname
  · rintro rfl
    exact c.find?_element p

theorem mem_parts (p : Part) : p ∈ c.parts :=
  List.mem_of_find?_eq_some (c.find?_element p)

theorem ofElement?_eq_none {name : String} :
    c.ofElement? name = none ↔ ∀ p, c.element p ≠ name := by
  simp only [Option.eq_none_iff_forall_ne_some, ne_eq, c.ofElement?_eq_some]

/-- The texts of the child elements that name a component, without empty ones. -/
def texts (children : List Element) (p : Part) : List String :=
  ((children.filter (·.localName == c.element p)).map Element.text).filter (· ≠ "")

/-- The child elements that are read: they name a component and their text is not empty. -/
def reads (child : Element) : Bool :=
  child.localName ∈ c.parts.map c.element ∧ child.text ≠ ""

theorem mem_elements_iff {name : String} :
    name ∈ c.parts.map c.element ↔ ∃ p, c.element p = name := by
  rw [List.mem_map]
  exact ⟨fun ⟨p, _, hp⟩ => ⟨p, hp⟩, fun ⟨p, hp⟩ => ⟨p, c.mem_parts p, hp⟩⟩

theorem texts_cons (child : Element) (children : List Element) (p : Part) :
    c.texts (child :: children) p = c.texts [child] p ++ c.texts children p := by
  rw [texts, texts, texts, ← List.filter_append, ← List.map_append, ← List.filter_append,
    List.singleton_append]

theorem texts_of_ne (h : c.element p ≠ child.localName) : c.texts [child] p = [] := by
  simp [texts, h.symm]

theorem texts_of_eq (h : c.element p = child.localName) :
    c.texts [child] p = if child.text = "" then [] else [child.text] := by
  by_cases htext : child.text = "" <;> simp [texts, h, htext]

/-- What one child element adds to the components. -/
theorem part_step (found : Option α) (child : Element) (p : Part) :
    c.part ((Decoder.collect.step c.ofElement? c.add c.empty found child).getD c.empty) p =
      c.part (found.getD c.empty) p ++ c.texts [child] p := by
  rw [Decoder.collect.step]
  cases hnamed : c.ofElement? child.localName with
  | none =>
    rw [c.texts_of_ne (c.ofElement?_eq_none.mp hnamed p), List.append_nil]
  | some q =>
    have hq : c.element q = child.localName := c.ofElement?_eq_some.mp hnamed
    by_cases hqp : q = p
    · subst q
      rw [c.texts_of_eq hq]
      by_cases htext : child.text = "" <;> simp [htext, c.part_add]
    · have hne : c.element p ≠ child.localName := by
        rw [ne_eq, ← c.ofElement?_eq_some, hnamed, Option.some.injEq]
        exact hqp
      rw [c.texts_of_ne hne]
      by_cases htext : child.text = "" <;> simp [htext, c.part_add, hqp]

/-- What a list of child elements adds to the components. -/
theorem part_foldl_step (children : List Element) (found : Option α) (p : Part) :
    c.part ((children.foldl (Decoder.collect.step c.ofElement? c.add c.empty) found).getD
      c.empty) p = c.part (found.getD c.empty) p ++ c.texts children p := by
  induction children generalizing found with
  | nil => exact (List.append_nil _).symm
  | cons child children ih =>
    rw [List.foldl_cons, ih, c.part_step, c.texts_cons child children, List.append_assoc]

theorem isSome_foldl_step (children : List Element) (found : Option α) :
    (children.foldl (Decoder.collect.step c.ofElement? c.add c.empty) found).isSome ↔
      found.isSome ∨ ∃ child ∈ children, ∃ p, c.element p = child.localName := by
  induction children generalizing found with
  | nil => simp
  | cons child children ih =>
    have hstep : (Decoder.collect.step c.ofElement? c.add c.empty found child).isSome ↔
        found.isSome ∨ ∃ p, c.element p = child.localName := by
      rw [Decoder.collect.step]
      cases hnamed : c.ofElement? child.localName with
      | none => simp [c.ofElement?_eq_none.mp hnamed]
      | some p => simpa using Or.inr ⟨p, c.ofElement?_eq_some.mp hnamed⟩
    rw [List.foldl_cons, ih, hstep, or_assoc]
    simp only [List.mem_cons, exists_eq_or_imp]

/-- Nothing is collected if no child element names a component. -/
theorem collect_eq_none_iff :
    Decoder.collect c.ofElement? c.add c.empty children = none ↔
      ∀ child ∈ children, ∀ p, c.element p ≠ child.localName := by
  rw [← Option.not_isSome_iff_eq_none, Decoder.collect, c.isSome_foldl_step]
  simp

/-- What is collected for each component. -/
theorem part_of_collect {v : α} (h : Decoder.collect c.ofElement? c.add c.empty children = some v)
    (p : Part) : c.part v p = c.texts children p := by
  have hpart := c.part_foldl_step children none p
  rw [Decoder.collect] at h
  rw [h, Option.getD_some, Option.getD_none, c.part_empty, List.nil_append] at hpart
  exact hpart

/-- One child element gives one text, or none if it is not read. -/
theorem sum_length_texts_singleton (child : Element) :
    (c.parts.map fun p => (c.texts [child] p).length).sum = [child].countP c.reads := by
  cases hnamed : c.ofElement? child.localName with
  | none =>
    have hnone := c.ofElement?_eq_none.mp hnamed
    have hread : c.reads child = false := by
      simp only [reads, c.mem_elements_iff, not_exists.mpr hnone, false_and, decide_false]
    simp [c.texts_of_ne (hnone _), hread]
  | some q =>
    have hq : c.element q = child.localName := c.ofElement?_eq_some.mp hnamed
    have hother : ∀ p, p ≠ q → p ∈ c.parts → (c.texts [child] p).length = 0 := by
      intro p hpq _
      have hne : c.element p ≠ child.localName := by
        rw [ne_eq, ← c.ofElement?_eq_some, hnamed, Option.some.injEq]
        exact hpq.symm
      rw [c.texts_of_ne hne, List.length_nil]
    rw [List.sum_map_eq_nsmul_single q _ hother, List.count_eq_one_of_mem c.nodup (c.mem_parts q),
      one_smul, c.texts_of_eq hq]
    have hread : c.reads child = decide (child.text ≠ "") := by
      have hmem := c.mem_elements_iff.mpr ⟨q, hq⟩
      simp only [reads, hmem, true_and]
    by_cases htext : child.text = "" <;> simp [hread, htext]

/-- There are as many texts as child elements that are read. -/
theorem sum_length_texts (children : List Element) :
    (c.parts.map fun p => (c.texts children p).length).sum = children.countP c.reads := by
  induction children with
  | nil => simp [texts]
  | cons child children ih =>
    simp only [c.texts_cons child children, List.length_append, List.sum_map_add]
    rw [c.sum_length_texts_singleton, ih, ← List.countP_append, List.singleton_append]

end Composite

namespace Decoder

/-- A property is made of the texts of the child elements that have given names: its value holds
them by their names, and its raw text lists all names, those without a text too. -/
structure Collects (e : Element) (ps : Parameters) (name : String) (elements : List String)
    (value : (String → List String) → Value) (found : Decoded) : Prop where
  group : found.property.group = none
  name : found.property.name = name
  parameters : found.property.parameters = ps
  value : found.property.value = value e.textsNamed
  raw : found.property.raw =
    ";".intercalate (elements.map fun element => ",".intercalate (e.textsNamed element))
  remarks : found.remarks = []

theorem Collects.found_eq {ps : Parameters} {name : String} {elements : List String}
    {value : (String → List String) → Value} {found : Decoded}
    (h : Collects e ps name elements value found) :
    found = ⟨⟨none, name, ps, value e.textsNamed,
      ";".intercalate (elements.map fun element => ",".intercalate (e.textsNamed element))⟩,
      []⟩ := by
  obtain ⟨⟨group, name', ps', value', raw⟩, remarks⟩ := found
  obtain ⟨rfl, rfl, rfl, rfl, rfl, rfl⟩ := h
  rfl

/-- A decoder reads components: it refuses exactly the elements without a child element that has one
of the names, and collects the texts of those in any other. There are as many of them as child
elements that have one of the names and a text. -/
def ReadsComponents (d : Decoder) (name : String) (elements : List String)
    (value : (String → List String) → Value) : Prop :=
  ∀ e ps,
    ((∀ child ∈ e.cardElements, child.localName ∉ elements) ∧
      d.decode e ps =
        .error (.unreadable ("<" ++ e.localName ++ "> has no component elements"))) ∨
    ((∃ child ∈ e.cardElements, child.localName ∈ elements) ∧
      (∃ found, d.decode e ps = .ok found ∧ Collects e ps name elements value found) ∧
      (elements.map fun element => (e.textsNamed element).length).sum =
        e.cardElements.countP fun child => child.localName ∈ elements ∧ child.text ≠ "")

/-- A decoder reads components if it answers with what is collected. -/
theorem readsComponents_of_collect (c : Composite α Part) {d : Decoder} {name : String}
    {value : (String → List String) → Value}
    (hnone : ∀ e ps, collect c.ofElement? c.add c.empty e.cardElements = none →
      d.decode e ps = .error (noComponents e))
    (hsome : ∀ e ps v, collect c.ofElement? c.add c.empty e.cardElements = some v →
      (∀ p, c.part v p = e.textsNamed (c.element p)) →
      ∃ found, d.decode e ps = .ok found ∧
        Collects e ps name (c.parts.map c.element) value found) :
    d.ReadsComponents name (c.parts.map c.element) value := by
  intro e ps
  cases hcollect : collect c.ofElement? c.add c.empty e.cardElements with
  | none =>
    have hunnamed := c.collect_eq_none_iff.mp hcollect
    refine Or.inl ⟨fun child hchild hname => ?_, hnone e ps hcollect⟩
    obtain ⟨p, hp⟩ := c.mem_elements_iff.mp hname
    exact hunnamed child hchild p hp
  | some v =>
    have hnamed : ∃ child ∈ e.cardElements, child.localName ∈ c.parts.map c.element := by
      by_contra! hno
      have hunnamed : ∀ child ∈ e.cardElements, ∀ p, c.element p ≠ child.localName :=
        fun child hchild p hp => hno child hchild (c.mem_elements_iff.mpr ⟨p, hp⟩)
      rw [c.collect_eq_none_iff.mpr hunnamed] at hcollect
      cases hcollect
    refine Or.inr ⟨hnamed, hsome e ps v hcollect (c.part_of_collect hcollect), ?_⟩
    rw [List.map_map]
    exact c.sum_length_texts e.cardElements

theorem readsComponents_personName :
    personName.ReadsComponents "N" ["surname", "given", "additional", "prefix", "suffix"]
      fun texts => .name ⟨texts "surname", texts "given", texts "additional", texts "prefix",
        texts "suffix"⟩ := by
  apply readsComponents_of_collect NamePart.composite
  · intro e ps hnone
    have hcollect : collect NamePart.ofElement? PersonName.add .empty e.cardElements = none := hnone
    simp only [personName, hcollect]
  · intro e ps n hsome hparts
    have hcollect : collect NamePart.ofElement? PersonName.add .empty e.cardElements = some n :=
      hsome
    refine ⟨plain "N" (.name n) n.render ps, by simp only [personName, hcollect], ?_⟩
    obtain ⟨family, given, additional, before, after⟩ := n
    obtain rfl : family = e.textsNamed "surname" := hparts .family
    obtain rfl : given = e.textsNamed "given" := hparts .given
    obtain rfl : additional = e.textsNamed "additional" := hparts .additional
    obtain rfl : before = e.textsNamed "prefix" := hparts .honorificBefore
    obtain rfl : after = e.textsNamed "suffix" := hparts .honorificAfter
    exact ⟨rfl, upper_eq_self (by decide), rfl, rfl, rfl, rfl⟩

theorem readsComponents_address :
    address.ReadsComponents "ADR"
      ["pobox", "ext", "street", "locality", "region", "code", "country"]
      fun texts => .address ⟨texts "pobox", texts "ext", texts "street", texts "locality",
        texts "region", texts "code", texts "country"⟩ := by
  apply readsComponents_of_collect AddressPart.composite
  · intro e ps hnone
    have hcollect : collect AddressPart.ofElement? Address.add .empty e.cardElements = none := hnone
    simp only [address, hcollect]
  · intro e ps a hsome hparts
    have hcollect : collect AddressPart.ofElement? Address.add .empty e.cardElements = some a :=
      hsome
    refine ⟨plain "ADR" (.address a) a.render ps, by simp only [address, hcollect], ?_⟩
    obtain ⟨poBox, extended, street, locality, region, postalCode, country⟩ := a
    obtain rfl : poBox = e.textsNamed "pobox" := hparts .poBox
    obtain rfl : extended = e.textsNamed "ext" := hparts .extended
    obtain rfl : street = e.textsNamed "street" := hparts .street
    obtain rfl : locality = e.textsNamed "locality" := hparts .locality
    obtain rfl : region = e.textsNamed "region" := hparts .region
    obtain rfl : postalCode = e.textsNamed "code" := hparts .postalCode
    obtain rfl : country = e.textsNamed "country" := hparts .country
    exact ⟨rfl, upper_eq_self (by decide), rfl, rfl, rfl, rfl⟩

end Decoder

/-- The components of names and addresses are neither lost nor moved nor repeated. -/
theorem components_collected :
    Decoder.personName.ReadsComponents "N" ["surname", "given", "additional", "prefix", "suffix"]
      (fun texts => .name ⟨texts "surname", texts "given", texts "additional", texts "prefix",
        texts "suffix"⟩) ∧
    Decoder.address.ReadsComponents "ADR"
      ["pobox", "ext", "street", "locality", "region", "code", "country"]
      (fun texts => .address ⟨texts "pobox", texts "ext", texts "street", texts "locality",
        texts "region", texts "code", texts "country"⟩) :=
  ⟨Decoder.readsComponents_personName, Decoder.readsComponents_address⟩

/-- A name with two surnames, a given name that is empty, and two child elements that are no
components, one of them in another namespace; an address whose components are out of order; and a
name without components. -/
theorem components_collected_each :
    let n : Element := ⟨.card "n", [], .element (.card "surname") [] (.text "A" .empty)
      (.element (.card "given") [] .empty (.element (.card "suffix") [] (.text "C" .empty)
        (.element (.card "nick") [] (.text "D" .empty) (.element ⟨"urn:x", "surname"⟩ []
          (.text "E" .empty) (.element (.card "surname") [] (.text "B" .empty) .empty)))))⟩
    let adr : Element := ⟨.card "adr", [], .element (.card "country") [] (.text "K" .empty)
      (.element (.card "street") [] (.text "S" .empty) (.element (.card "locality") []
        (.text "L" .empty) (.element (.card "street") [] (.text "T" .empty) .empty)))⟩
    let unnamed : Element := ⟨.card "n", [], .element (.card "text") [] (.text "A" .empty) .empty⟩
    let ps : Parameters := ⟨[⟨"TYPE", ["home"]⟩]⟩
    Decoder.personName.decode n ps =
        .ok ⟨⟨none, "N", ps, .name ⟨["A", "B"], [], [], [], ["C"]⟩, "A,B;;;;C"⟩, []⟩ ∧
      Decoder.address.decode adr ps = .ok ⟨⟨none, "ADR", ps,
        .address ⟨[], [], ["S", "T"], ["L"], [], [], ["K"]⟩, ";;S,T;L;;;K"⟩, []⟩ ∧
      Decoder.personName.decode unnamed ps =
        .error (.unreadable "<n> has no component elements") := by
  intro n adr unnamed ps
  obtain ⟨hname, haddress⟩ := components_collected
  refine ⟨?_, ?_, ?_⟩
  · rcases hname n ps with ⟨hno, -⟩ | ⟨-, ⟨found, hfound, hcollects⟩, -⟩
    · exact absurd hno (by decide +kernel)
    · rw [hfound, hcollects.found_eq]
      exact congrArg Except.ok (by decide +kernel)
  · rcases haddress adr ps with ⟨hno, -⟩ | ⟨-, ⟨found, hfound, hcollects⟩, -⟩
    · exact absurd hno (by decide +kernel)
    · rw [hfound, hcollects.found_eq]
      exact congrArg Except.ok (by decide +kernel)
  · rcases hname unnamed ps with ⟨-, hrefused⟩ | ⟨hsome, -⟩
    · exact hrefused
    · exact absurd hsome (by decide +kernel)

end ContactCards
