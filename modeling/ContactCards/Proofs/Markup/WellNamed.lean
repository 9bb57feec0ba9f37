import ContactCards.Markup.Element
import ContactCards.Proofs.Markup.AttributeScan
import ContactCards.Proofs.Text.Utf8

/-! Elements whose names can be written as they are. -/
namespace ContactCards

variable {s : String} {b : UInt8} {key : List UInt8}

/-- The characters that a name without a colon may start with, as ranges of code points (XML 1.0,
production NameStartChar). -/
def nameStartRanges : List (Nat × Nat) :=
  [(0x41, 0x5A), (0x5F, 0x5F), (0x61, 0x7A), (0xC0, 0xD6), (0xD8, 0xF6), (0xF8, 0x2FF),
    (0x370, 0x37D), (0x37F, 0x1FFF), (0x200C, 0x200D), (0x2070, 0x218F), (0x2C00, 0x2FEF),
    (0x3001, 0xD7FF), (0xF900, 0xFDCF), (0xFDF0, 0xFFFD), (0x10000, 0xEFFFF)]

/-- The characters that it may have further on. -/
def nameRanges : List (Nat × Nat) :=
  nameStartRanges ++ [(0x2D, 0x2E), (0x30, 0x39), (0xB7, 0xB7), (0x300, 0x36F), (0x203F, 0x2040)]

def inRanges (ranges : List (Nat × Nat)) (c : Char) : Bool :=
  ranges.any fun (low, high) => low ≤ c.toNat && c.toNat ≤ high

/-- A name without a colon (Namespaces in XML, production NCName). -/
def isNcName (s : String) : Bool :=
  match s.toList with
  | [] => false
  | c :: cs => inRanges nameStartRanges c && cs.all (inRanges nameRanges)

/-- The name of an element and the names of its attributes are names without colons. -/
structure NamedTag (name : ExpandedName) (attributes : List Attribute) : Prop where
  localName : isNcName name.localName
  named : ∀ a ∈ attributes, isNcName a.name

/-- A tag that can be written as it is: no attribute looks like a declaration, no two have one name,
and the namespace needs no escape. -/
structure WellNamedTag (name : ExpandedName) (attributes : List Attribute) : Prop
    extends NamedTag name attributes where
  uri : ∀ c ∈ name.uri.toList, c ∉ Reference.reserved
  noDeclaration : ∀ a ∈ attributes, a.name ≠ "xmlns"
  distinct : (attributes.map Attribute.name).Nodup

section EveryTag

variable {P : ExpandedName → List Attribute → Prop}

/-- All elements of a content have names and attributes of a kind. -/
def Content.EveryTag (P : ExpandedName → List Attribute → Prop) : Content → Prop
  | .empty => True
  | .text _ rest => rest.EveryTag P
  | .element name attributes inner rest =>
    P name attributes ∧ inner.EveryTag P ∧ rest.EveryTag P

/-- An element and all elements in it have names and attributes of a kind. -/
structure Element.EveryTag (P : ExpandedName → List Attribute → Prop) (e : Element) : Prop where
  tag : P e.name e.attributes
  content : e.content.EveryTag P

instance Content.decidableEveryTag [∀ name attributes, Decidable (P name attributes)] :
    (c : Content) → Decidable (c.EveryTag P)
  | .empty => .isTrue trivial
  | .text _ rest => decidableEveryTag rest
  | .element name attributes inner rest =>
    have := decidableEveryTag inner
    have := decidableEveryTag rest
    inferInstanceAs (Decidable (P name attributes ∧ inner.EveryTag P ∧ rest.EveryTag P))

instance [∀ name attributes, Decidable (P name attributes)] (e : Element) :
    Decidable (e.EveryTag P) :=
  decidable_of_iff (P e.name e.attributes ∧ e.content.EveryTag P)
    ⟨fun h => ⟨h.1, h.2⟩, fun h => ⟨h.1, h.2⟩⟩

end EveryTag

/-- All names of an element are names without colons. -/
abbrev Element.Named (e : Element) : Prop := e.EveryTag NamedTag

/-- An element can be written with its names as they are. -/
abbrev Element.WellNamed (e : Element) : Prop := e.EveryTag WellNamedTag

theorem wellNamedTag_iff {name : ExpandedName} {attributes : List Attribute} :
    WellNamedTag name attributes ↔
      isNcName name.localName ∧ attributes.all (isNcName ·.name) ∧
        name.uri.toList.all (! Reference.reserved.contains ·) ∧
        attributes.all (·.name != "xmlns") ∧ (attributes.map Attribute.name).Nodup := by
  simp only [List.all_eq_true, Bool.not_eq_true', List.contains_eq_mem, decide_eq_false_iff_not,
    bne_iff_ne]
  constructor
  · exact fun h => ⟨h.localName, h.named, h.uri, h.noDeclaration, h.distinct⟩
  · exact fun ⟨hlocal, hnamed, huri, hordinary, hdistinct⟩ =>
      ⟨⟨hlocal, hnamed⟩, huri, hordinary, hdistinct⟩

instance (name : ExpandedName) (attributes : List Attribute) :
    Decidable (WellNamedTag name attributes) :=
  decidable_of_iff _ wellNamedTag_iff.symm

theorem tagBytes_not_inRanges : ∀ b ∈ RawAttribute.tagBytes,
    b.toNat < 0x80 ∧ inRanges nameRanges (Char.ofNat b.toNat) = false := by
  have hall : RawAttribute.tagBytes.all fun b =>
      b.toNat < 0x80 && ! inRanges nameRanges (Char.ofNat b.toNat) := by decide
  intro b hb
  simpa using List.all_eq_true.mp hall b hb

theorem inRanges_of_isNcName (h : isNcName s) : ∀ c ∈ s.toList, inRanges nameRanges c := by
  rw [isNcName] at h
  split at h
  · cases h
  · next c cs hs =>
    rw [Bool.and_eq_true, List.all_eq_true] at h
    rw [hs, List.forall_mem_cons]
    exact ⟨by simpa [inRanges, nameRanges] using Or.inl (by simpa [inRanges] using h.1), h.2⟩

/-- No byte of a name means anything in a tag. -/
theorem notMem_tagBytes (h : isNcName s) (hb : b ∈ Utf8.encode s) : b ∉ RawAttribute.tagBytes := by
  intro htag
  obtain ⟨hsmall, hno⟩ := tagBytes_not_inRanges b htag
  have hyes := inRanges_of_isNcName h _ (Utf8.ofNat_mem_of_mem_encode hb hsmall)
  rw [hno] at hyes
  cases hyes

theorem encode_name_ne_nil (h : isNcName s) : Utf8.encode s ≠ [] := by
  intro hnil
  obtain rfl : s = "" := Utf8.encode_injective hnil
  cases h

end ContactCards
