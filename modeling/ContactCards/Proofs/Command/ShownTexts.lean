import ContactCards.Proofs.Calendar.FullWidth
import ContactCards.Proofs.Markup.Escaping
import ContactCards.Proofs.Text.LineBreaks
import ContactCards.Reading.Reader
import Mathlib

/-! The texts that values, properties and warnings show. They are written as they are, but for
references in markup, and among texts of one line: what is written has just the line breaks of the
texts in it. -/
namespace ContactCards

section NoBreaks

theorem lineBreaks_eq_zero_of_digits {s : String} (h : ∀ c ∈ s.toList, c.isDigit) :
    lineBreaks s = 0 := by
  rw [lineBreaks_eq_zero_iff]
  intro hmem
  exact absurd (h '\n' hmem) (by decide)

@[simp] theorem lineBreaks_padded (width n : Nat) : lineBreaks (Date.padded width n) = 0 :=
  lineBreaks_eq_zero_of_digits (Scan.isDigits_padded width n).isDigit

@[simp] theorem lineBreaks_toString (n : Nat) : lineBreaks (toString n) = 0 := by
  apply lineBreaks_eq_zero_of_digits
  intro c hc
  rw [Nat.toString_eq_ofList_toDigits, String.toList_ofList] at hc
  exact Nat.isDigit_of_mem_toDigits (by decide) le_rfl hc

@[simp] theorem lineBreaks_renderFields (year : Int) (month day : Nat) :
    lineBreaks (Date.renderFields year month day) = 0 := by
  rw [Date.renderFields, Date.renderYear]
  simp only [lineBreaks_append, lineBreaks_padded, Nat.add_zero]
  split_ifs <;> rfl

@[simp] theorem lineBreaks_timestamp (t : Timestamp) : lineBreaks t.render = 0 := by
  have ht : lineBreaks "T" = 0 := rfl
  have hz : lineBreaks "Z" = 0 := rfl
  simp [Timestamp.render, ht, hz]

end NoBreaks

namespace Reference

theorem count_escapeChar (c : Char) : (escapeChar c).count '\n' = [c].count '\n' := by
  fun_cases escapeChar c <;> rfl

/-- Escaping leaves line breaks as they are. -/
@[simp] theorem lineBreaks_escape (s : String) : lineBreaks (escape s) = lineBreaks s := by
  have hchars (cs : List Char) : (cs.flatMap escapeChar).count '\n' = cs.count '\n' := by
    induction cs with
    | nil => rfl
    | cons c cs ih =>
      rw [List.flatMap_cons, List.count_append, ih, count_escapeChar, ← List.count_append,
        List.singleton_append]
  rw [lineBreaks, escape, String.toList_ofList, hchars]
  rfl

end Reference

section Markup

/-- The texts that an element's start tag shows. -/
def openingShown (outer : Option String) (name : ExpandedName) (attributes : List Attribute) :
    List String :=
  name.localName ::
    (if outer = some name.uri ∨ outer = none ∧ name.uri = "" then [] else [name.uri]) ++
    attributes.flatMap fun a => [a.name, a.value]

/-- The texts that a content shows inside the namespace `outer`. -/
def Content.shown (outer : String) : Content → List String
  | .empty => []
  | .text s rest => s :: rest.shown outer
  | .element name attributes inner rest =>
    openingShown (some outer) name attributes ++
      (if inner.isEmpty then [] else inner.shown name.uri ++ [name.localName]) ++ rest.shown outer

/-- The texts that an element shows. -/
def Element.shown (e : Element) : List String :=
  openingShown none e.name e.attributes ++
    if e.content.isEmpty then [] else e.content.shown e.name.uri ++ [e.name.localName]

theorem lineBreaks_quotedValue (value : String) :
    lineBreaks (quotedValue value) = lineBreaks value := by
  have hquote : lineBreaks "\"" = 0 := rfl
  simp [quotedValue, hquote]

theorem lineBreaks_attribute (a : Attribute) :
    lineBreaks a.render = lineBreaksIn [a.name, a.value] := by
  have hspace : lineBreaks " " = 0 := rfl
  have hequals : lineBreaks "=" = 0 := rfl
  simp [Attribute.render, lineBreaks_quotedValue, hspace, hequals]

theorem lineBreaks_openingTag (outer : Option String) (name : ExpandedName)
    (attributes : List Attribute) :
    lineBreaks (openingTag outer name attributes) =
      lineBreaksIn (openingShown outer name attributes) := by
  have hattributes := lineBreaksIn_flatMap (l := attributes)
    fun a _ => lineBreaks_attribute a
  rw [openingTag, openingShown, lineBreaks_append, lineBreaks_append, lineBreaks_join,
    lineBreaksIn_append, lineBreaksIn_cons, hattributes, namespaceDeclaration]
  split_ifs
  · rfl
  · have hdeclares : lineBreaks " xmlns=" = 0 := rfl
    simp [lineBreaks_quotedValue, hdeclares]

/-- An element shows the texts of its start tag, its content, and its name once more if there is an
end tag. -/
theorem lineBreaks_element (outer : Option String) (name : ExpandedName)
    (attributes : List Attribute) {inner : Content}
    (h : lineBreaks (inner.render name.uri) = lineBreaksIn (inner.shown name.uri)) :
    lineBreaks ("<" ++ openingTag outer name attributes ++
      if inner.isEmpty then "/>"
      else ">" ++ inner.render name.uri ++ "</" ++ name.localName ++ ">") =
    lineBreaksIn (openingShown outer name attributes ++
      if inner.isEmpty then [] else inner.shown name.uri ++ [name.localName]) := by
  have hopen : lineBreaks "<" = 0 := rfl
  have hclose : lineBreaks ">" = 0 := rfl
  have hslash : lineBreaks "</" = 0 := rfl
  have hempty : lineBreaks "/>" = 0 := rfl
  cases inner.isEmpty
  · simp [lineBreaks_openingTag, h, hopen, hclose, hslash]
  · simp [lineBreaks_openingTag, hopen, hempty]

theorem Content.lineBreaks_render (outer : String) (c : Content) :
    lineBreaks (c.render outer) = lineBreaksIn (c.shown outer) := by
  induction c generalizing outer with
  | empty => rfl
  | text s rest ih => simp [render, shown, ih]
  | element name attributes inner rest ihinner ihrest =>
    rw [render, shown, lineBreaks_append, lineBreaks_element _ _ _ (ihinner name.uri), ihrest,
      ← lineBreaksIn_append]

theorem Element.lineBreaks_render (e : Element) : lineBreaks e.render = lineBreaksIn e.shown :=
  lineBreaks_element none e.name e.attributes (e.content.lineBreaks_render e.name.uri)

end Markup

section Cards

/-- The texts that a date or time shows; a complete date shows its fields only. -/
def DateOrTime.shown : DateOrTime → List String
  | date _ => []
  | partly s => [s]
  | text s => [s]

/-- The texts that a value shows. -/
def Value.shown : Value → List String
  | text s => [s]
  | textList texts => texts
  | uri s => [s]
  | dateOrTime d => d.shown
  | timestamp _ => []
  | name n => n.given ++ n.family
  | address a => a.street ++ a.locality ++ a.region ++ a.postalCode ++ a.country
  | organization o => o.components
  | gender g => g.identity.toList
  | languageTag s => [s]
  | xml e => e.shown

def Parameters.shown (ps : Parameters) : List String :=
  ps.toList.flatMap fun p => p.name :: p.values

def Property.shown (p : Property) : List String :=
  p.group.toList ++ p.name :: p.parameters.shown ++ p.value.shown

def Warning.shown (w : Warning) : List String :=
  w.property.toList ++ w.message :: w.detail.toList

/-- The texts that a card and its warnings show. -/
def Delivery.shown (showWarnings : Bool) (d : Delivery) : List String :=
  d.card.properties.flatMap Property.shown ++
    if showWarnings then d.warnings.flatMap Warning.shown else []

theorem DateOrTime.lineBreaks_render (d : DateOrTime) :
    lineBreaks d.render = lineBreaksIn d.shown := by
  cases d <;> simp [render, shown, Date.render]

theorem PersonName.lineBreaks_display (n : PersonName) :
    lineBreaks n.display = lineBreaksIn (n.given ++ n.family) := by
  have hspace : lineBreaks " " = 0 := rfl
  rw [display, lineBreaks_intercalate hspace]
  cases hgiven : n.given <;> cases hfamily : n.family <;>
    simp [lineBreaks_intercalate hspace, Nat.add_assoc]

theorem Gender.lineBreaks_render (g : Gender) :
    lineBreaks g.render = lineBreaksIn g.identity.toList := by
  have hsemicolon : lineBreaks ";" = 0 := rfl
  have hsex : lineBreaks ((g.sex.map (·.letter.toString)).getD "") = 0 := by
    cases g.sex with
    | none => rfl
    | some sex => cases sex <;> rfl
  rw [render, lineBreaks_append, hsex, Nat.zero_add]
  apply lineBreaks_optional
  simp [hsemicolon]

theorem Value.lineBreaks_render (v : Value) : lineBreaks v.render = lineBreaksIn v.shown := by
  cases v with
  | text | uri | languageTag => simp [render, shown]
  | textList texts => exact lineBreaks_intercalate rfl texts
  | dateOrTime d => exact d.lineBreaks_render
  | timestamp t => exact lineBreaks_timestamp t
  | name n => exact n.lineBreaks_display
  | address a => exact lineBreaks_intercalate rfl _
  | organization o => exact lineBreaks_intercalate rfl _
  | gender g => exact g.lineBreaks_render
  | xml e => exact e.lineBreaks_render

theorem Parameters.lineBreaks_render (ps : Parameters) :
    lineBreaks ps.render = lineBreaksIn ps.shown := by
  rw [render, lineBreaks_intercalate rfl, shown]
  symm
  apply lineBreaksIn_flatMap
  intro p _
  have hequals : lineBreaks "=" = 0 := rfl
  have hvalues : lineBreaks (",".intercalate p.values) = lineBreaksIn p.values :=
    lineBreaks_intercalate rfl p.values
  simp [Parameter.render, hequals, hvalues]

theorem Warning.lineBreaks_render (w : Warning) : lineBreaks w.render = lineBreaksIn w.shown := by
  have hproperty : lineBreaks ((w.property.map (· ++ " property: ")).getD "") =
      lineBreaksIn w.property.toList := by
    have hword : lineBreaks " property: " = 0 := rfl
    apply lineBreaks_optional
    simp [hword]
  have hcode : lineBreaks ((w.code.map fun code =>
      "(code " ++ toString code.number ++ ") ").getD "") = 0 := by
    cases w.code with
    | none => rfl
    | some code => cases code <;> rfl
  have hdetail : lineBreaks ((w.detail.map fun detail => " [" ++ detail ++ "]").getD "") =
      lineBreaksIn w.detail.toList := by
    have hopen : lineBreaks " [" = 0 := rfl
    have hclose : lineBreaks "]" = 0 := rfl
    apply lineBreaks_optional
    simp [hopen, hclose]
  simp only [render, shown, lineBreaks_append, lineBreaksIn_append, lineBreaksIn_cons, hproperty,
    hcode, hdetail]
  omega

end Cards

end ContactCards
