import ContactCards.Proofs.Markup.Acceptance
import ContactCards.Proofs.Markup.WrittenTag

/-! Which labels of names have to be declared. The label of an element has to be bound by a
declaration that is in scope at it, in its own tag or in that of an element around it. The labels of
attributes are not looked at. -/
namespace ContactCards

variable {bindings inside : Bindings} {found : RawAttribute} {entries : List RawAttribute}
  {label content : List UInt8} {tags : List (List UInt8)} {nesting nesting' last : Nesting}
  {token : Token} {tokens : List Token} {events : List Event}

/-- What an attribute declares, if it declares a label. -/
def RawAttribute.declaration? (found : RawAttribute) : Option Binding :=
  match Bindings.declared? found.key with
  | some (some label) => some ⟨label, found.value⟩
  | _ => none

/-- The declarations of labels in a start tag, the last first. -/
def RawAttribute.declarations (content : List UInt8) : Bindings :=
  ((scan false content).1.filterMap declaration?).reverse

namespace Token

/-- The start tags of the elements that are open after a token, innermost first. -/
def tagsAfter (tags : List (List UInt8)) : Token → List (List UInt8)
  | startTag content =>
    if (Nesting.splitSlash content).2 then tags else (Nesting.splitSlash content).1 :: tags
  | endTag _ => tags.tail
  | _ => tags

/-- The start tags of the elements that are open after tokens, innermost first. -/
def openTags (tokens : List Token) : List (List UInt8) :=
  tokens.foldl tagsAfter []

end Token

namespace Bindings

/-- A label that a document may bind to any namespace. -/
def IsFree (label : List UInt8) : Prop :=
  label ≠ [] ∧ label ≠ Utf8.encode "xml" ∧ label ≠ Utf8.encode "xmlns"

/-- A label stands for a namespace inside of start tags, the innermost given first: it is reserved,
or its innermost declaration is not empty. -/
def IsBound (label : List UInt8) (tags : List (List UInt8)) : Prop :=
  label ≠ [] ∧ (label = Utf8.encode "xml" ∨ label = Utf8.encode "xmlns" ∨
    (lookup (tags.flatMap RawAttribute.declarations) label).getD [] ≠ [])

instance : Decidable (IsBound label tags) := inferInstanceAs (Decidable (_ ∧ _))

theorem bne_of_notMem (h : 58 ∉ label) : ∀ b ∈ label, (b != 58) = true := by
  intro b hb
  rw [bne_iff_ne]
  rintro rfl
  exact h hb

theorem lookup_cons_of_ne {binding : Binding} (h : binding.label ≠ label) :
    lookup (binding :: bindings) label = lookup bindings label := by
  rw [lookup, List.find?_cons_of_neg (by simpa using h), lookup]

theorem lookup_append (xs ys : Bindings) (label : List UInt8) :
    lookup (xs ++ ys) label = (lookup xs label).or (lookup ys label) := by
  rw [lookup, List.find?_append, Option.map_or]
  rfl

/-- What an attribute declares of a free label is in scope after it. -/
theorem lookup_declare (hlabel : IsFree label) (h : bindings.declare found = .ok inside) :
    lookup inside label = lookup (found.declaration?.toList ++ bindings) label := by
  rw [declare] at h
  rw [RawAttribute.declaration?]
  split at h
  · next hnone =>
    cases h
    rw [hnone]
    rfl
  · next hdefault =>
    cases h
    rw [hdefault]
    exact lookup_cons_of_ne hlabel.1.symm
  · next declared hdeclared =>
    rw [hdeclared]
    rw [declareLabel] at h
    split at h
    · next hxml =>
      split at h
      · cases h
        subst hxml
        exact (lookup_cons_of_ne hlabel.2.1.symm).symm
      · cases h
    split at h
    · cases h
    split at h
    · cases h
    split at h
    · cases h
    · cases h
      rfl

/-- What attributes declare of a free label is in scope after them, the last declaration before
all others. -/
theorem lookup_foldlM_declare (hlabel : IsFree label)
    (h : entries.foldlM declare bindings = .ok inside) :
    lookup inside label =
      lookup ((entries.filterMap RawAttribute.declaration?).reverse ++ bindings) label := by
  induction entries generalizing bindings with
  | nil =>
    cases h
    rfl
  | cons found entries ih =>
    obtain ⟨next, hnext, hrest⟩ := Nesting.ok_of_bind h
    have hdeclare := lookup_declare hlabel hnext
    rw [ih hrest, lookup_append, hdeclare, ← lookup_append, ← List.append_assoc,
      List.filterMap_cons]
    cases found.declaration? <;> simp

/-- The bindings give a free label the namespace that start tags do. -/
def AgreeWith (bindings : Bindings) (tags : List (List UInt8)) : Prop :=
  ∀ label, IsFree label →
    lookup bindings label = lookup (tags.flatMap RawAttribute.declarations) label

theorem isBound_of_resolve {name : String} (hagree : bindings.AgreeWith tags)
    (h : bindings.resolve (some label) = .ok name) : IsBound label tags := by
  cases label with
  | nil => cases h
  | cons b bs =>
    refine ⟨List.cons_ne_nil b bs, ?_⟩
    by_cases hxml : b :: bs = Utf8.encode "xml"
    · exact Or.inl hxml
    by_cases hxmlns : b :: bs = Utf8.encode "xmlns"
    · exact Or.inr (Or.inl hxmlns)
    refine Or.inr (Or.inr ?_)
    rw [← hagree (b :: bs) ⟨List.cons_ne_nil b bs, hxml, hxmlns⟩]
    intro hempty
    simp only [resolve, hempty, reduceCtorEq] at h

theorem resolve_of_not_isBound (hagree : bindings.AgreeWith tags) (h : ¬ IsBound label tags) :
    bindings.resolve (some label) = .error (.unboundLabel (Utf8.decodeLossy label)) := by
  cases label with
  | nil =>
    have hshown : Utf8.decodeLossy [] = "" := by cbv
    rw [hshown, resolve]
  | cons b bs =>
    simp only [IsBound, ne_eq, reduceCtorEq, not_false_eq_true, true_and, not_or, not_not] at h
    obtain ⟨hxml, hxmlns, hempty⟩ := h
    rw [← hagree (b :: bs) ⟨List.cons_ne_nil b bs, hxml, hxmlns⟩] at hempty
    simp only [resolve, hempty]

/-- A name that is expanded has a label that is resolved. -/
theorem exists_resolve {rawName : List UInt8} {name : ExpandedName}
    (h : bindings.expand rawName = .ok name) :
    ∃ uri, bindings.resolve (splitLabel rawName).1 = .ok uri := by
  rw [expand] at h
  generalize splitLabel rawName = split at h ⊢
  obtain ⟨label, localName⟩ := split
  obtain ⟨uri, huri, -⟩ := Nesting.ok_of_bind h
  exact ⟨uri, huri⟩

theorem agreeWith_reserved : reserved.AgreeWith [] := by
  intro label hlabel
  rw [reserved, lookup_cons_of_ne hlabel.2.1.symm, lookup_cons_of_ne hlabel.2.2.symm]
  rfl

/-- The declarations of a start tag come before those of the tags around it. -/
theorem AgreeWith.foldlM_declare (hagree : bindings.AgreeWith tags)
    (h : (RawAttribute.scan false content).1.foldlM declare bindings = .ok inside) :
    inside.AgreeWith (content :: tags) := by
  intro label hlabel
  rw [lookup_foldlM_declare hlabel h, lookup_append, hagree label hlabel, ← lookup_append,
    List.flatMap_cons, RawAttribute.declarations]

end Bindings

namespace Nesting

/-- The label of the element that a start tag opens. -/
def labelOf? (content : List UInt8) : Option (List UInt8) :=
  (Bindings.splitLabel (RawAttribute.nameOf (splitSlash content).1)).1

/-- Each open element has the declarations that are in scope inside the start tag that opened it. -/
inductive Follows : List OpenElement → List (List UInt8) → Prop where
  | nil : Follows [] []
  | cons {innermost : OpenElement} {outer : List OpenElement} {tag : List UInt8}
    {around : List (List UInt8)} (hagree : innermost.bindings.AgreeWith (tag :: around))
    (h : Follows outer around) : Follows (innermost :: outer) (tag :: around)

theorem Follows.agreeWith (h : Follows nesting.stack tags) : nesting.bindings.AgreeWith tags := by
  obtain ⟨stack, rooted⟩ := nesting
  cases h with
  | nil => exact Bindings.agreeWith_reserved
  | cons hagree => exact hagree

/-- What a start tag opens has the declarations of the tag in scope. -/
theorem exists_opened (h : nesting.openElement content = .ok (nesting', events)) :
    ∃ inside name attributes, Tells nesting.bindings (splitSlash content).1
        (RawAttribute.nameOf (splitSlash content).1) inside name attributes ∧
      nesting'.stack = if (splitSlash content).2 then nesting.stack
        else ⟨RawAttribute.nameOf (splitSlash content).1, inside⟩ :: nesting.stack := by
  rw [openElement] at h
  generalize splitSlash content = split at h ⊢
  obtain ⟨tag, closed⟩ := split
  obtain ⟨inside, hinside, h⟩ := ok_of_bind h
  obtain ⟨name, hname, h⟩ := ok_of_bind h
  obtain ⟨attributes, hattributes, h⟩ := ok_of_bind h
  refine ⟨inside, name, attributes, ⟨rfl, ok_of_mapError hinside, hname, hattributes⟩, ?_⟩
  cases closed with
  | true =>
    cases h
    rfl
  | false =>
    cases h
    rfl

/-- A token that is no tag leaves the open elements as they are. -/
theorem stack_of_isTag_eq_false (htoken : token.isTag = false)
    (h : nesting.step token = .ok (nesting', events)) : nesting'.stack = nesting.stack := by
  rcases step_cases h with ⟨-, rfl, -⟩ | ⟨htag, -⟩ | ⟨htag, -⟩ | ⟨htag, -⟩
  · rfl
  · exact absurd (htoken.symm.trans htag) nofun
  · exact absurd (htoken.symm.trans htag) nofun
  · exact absurd (htoken.symm.trans htag) nofun

theorem Follows.step (h : Follows nesting.stack tags)
    (hstep : nesting.step token = .ok (nesting', events)) :
    Follows nesting'.stack (token.tagsAfter tags) := by
  cases token with
  | startTag content =>
    obtain ⟨inside, name, attributes, htells, hstack⟩ := exists_opened hstep
    rw [hstack, Token.tagsAfter]
    split
    · exact h
    · exact .cons (h.agreeWith.foldlM_declare htells.declares) h
  | endTag content =>
    simp only [Nesting.step, closeElement] at hstep
    split at hstep
    · cases hstep
    · next innermost outer hstack =>
      split at hstep
      · cases hstep
        rw [hstack] at h
        cases h with
        | cons hagree h => exact h
      · cases hstep
  | text bytes => exact stack_of_isTag_eq_false rfl hstep ▸ h
  | cdata bytes => exact stack_of_isTag_eq_false rfl hstep ▸ h
  | reference bytes => exact stack_of_isTag_eq_false rfl hstep ▸ h

/-- What is in scope after tokens is what the start tags declare that they leave open. -/
theorem Follows.through (h : Follows nesting.stack tags)
    (hthrough : nesting.through tokens = .ok (last, events)) :
    Follows last.stack (tokens.foldl Token.tagsAfter tags) := by
  induction tokens generalizing nesting tags events with
  | nil =>
    cases hthrough
    exact h
  | cons token tokens ih =>
    obtain ⟨nesting', xs, ys, hstep, hrest, -⟩ := through_cons hthrough
    exact ih (h.step hstep) hrest

theorem follows_openTags (h : empty.through tokens = .ok (last, events)) :
    Follows last.stack (Token.openTags tokens) :=
  Follows.nil.through h

/-- An element that is opened has a label that is bound, if it has a label. -/
theorem isBound_of_openElement (hfollows : Follows nesting.stack tags)
    (hlabel : labelOf? content = some label)
    (h : nesting.openElement content = .ok (nesting', events)) :
    Bindings.IsBound label ((splitSlash content).1 :: tags) := by
  obtain ⟨inside, name, attributes, htells, -⟩ := exists_opened h
  obtain ⟨uri, huri⟩ := Bindings.exists_resolve htells.expands
  rw [← labelOf?, hlabel] at huri
  exact Bindings.isBound_of_resolve (hfollows.agreeWith.foldlM_declare htells.declares) huri

/-- An element whose label is not bound is not opened. -/
theorem openElement_of_not_isBound (hfollows : Follows nesting.stack tags)
    (hlabel : labelOf? content = some label)
    (hdeclares : (RawAttribute.scan false (splitSlash content).1).1.foldlM Bindings.declare
      nesting.bindings = .ok inside)
    (h : ¬ Bindings.IsBound label ((splitSlash content).1 :: tags)) :
    nesting.openElement content = .error (.unboundLabel (Utf8.decodeLossy label)) := by
  have hresolve := Bindings.resolve_of_not_isBound
    (hfollows.agreeWith.foldlM_declare hdeclares) h
  have hexpand : inside.expand (RawAttribute.nameOf (splitSlash content).1) =
      .error (.unboundLabel (Utf8.decodeLossy label)) := by
    rw [labelOf?] at hlabel
    simp only [Bindings.expand, hlabel, hresolve, bind, Except.bind]
  simp only [openElement, hdeclares, mapError_ok, hexpand, bind, Except.bind]

/-- An attribute with a label is no declaration, but for the label of declarations. -/
theorem declared?_labelled (hlabel : 58 ∉ label) (hxmlns : label ≠ Utf8.encode "xmlns")
    (name : List UInt8) : Bindings.declared? (label ++ 58 :: name) = none := by
  generalize hkey : label ++ 58 :: name = key
  unfold Bindings.declared?
  split
  · have hcolon : 58 ∈ label ++ 58 :: name := by simp
    rw [hkey] at hcolon
    exact absurd hcolon (by decide)
  · next declared =>
    have hxmlns' : Utf8.encode "xmlns" = [120, 109, 108, 110, 115] := rfl
    have hcolon : 58 ∉ Utf8.encode "xmlns" := by
      rw [hxmlns']
      decide
    have hbefore : label = Utf8.encode "xmlns" := by
      calc label
        _ = (label ++ 58 :: name).takeWhile (· != 58) :=
          (takeWhile_append_cons (Bindings.bne_of_notMem hlabel) rfl).symm
        _ = (Utf8.encode "xmlns" ++ 58 :: declared).takeWhile (· != 58) := by
          rw [hkey, hxmlns']
          rfl
        _ = Utf8.encode "xmlns" :=
          takeWhile_append_cons (Bindings.bne_of_notMem hcolon) rfl
    exact absurd hbefore hxmlns
  · rfl

theorem splitLabel_labelled (hlabel : 58 ∉ label) (name : List UInt8) :
    Bindings.splitLabel (label ++ 58 :: name) = (some label, name) := by
  rw [Bindings.splitLabel, takeWhile_append_cons (Bindings.bne_of_notMem hlabel) rfl,
    dropWhile_append_cons (Bindings.bne_of_notMem hlabel) rfl]

/-- The label of an attribute makes no difference. -/
theorem readAttribute_label {label' name value : List UInt8} {position : Nat}
    (hlabel : 58 ∉ label ∧ label ≠ Utf8.encode "xmlns")
    (hlabel' : 58 ∉ label' ∧ label' ≠ Utf8.encode "xmlns") :
    readAttribute ⟨label ++ 58 :: name, position, value⟩ =
      readAttribute ⟨label' ++ 58 :: name, position, value⟩ := by
  simp only [readAttribute, declared?_labelled hlabel.1 hlabel.2,
    declared?_labelled hlabel'.1 hlabel'.2, splitLabel_labelled hlabel.1,
    splitLabel_labelled hlabel'.1]

end Nesting

/-- In a document that is accepted the label of each element is bound by a declaration in scope, or
is reserved. Where one is not, this is the fault that the document ends with, unless there is
another before it. The labels of attributes make no difference at all. -/
theorem element_labels_bound (document : List UInt8) :
    (∀ before content after label,
      (Token.scan document).1 = before ++ .startTag content :: after →
      Nesting.labelOf? content = some label →
      let tags := (Nesting.splitSlash content).1 :: Token.openTags before
      ((Transcript.ofDocument document).fault = none → Bindings.IsBound label tags) ∧
      ∀ last events inside, Nesting.empty.through before = .ok (last, events) →
        (RawAttribute.scan false (Nesting.splitSlash content).1).1.foldlM Bindings.declare
          last.bindings = .ok inside →
        ¬ Bindings.IsBound label tags →
        Transcript.ofDocument document =
          ⟨events, some (.unboundLabel (Utf8.decodeLossy label))⟩) ∧
    ∀ label label' name value position, (58 ∉ label ∧ label ≠ Utf8.encode "xmlns") →
      (58 ∉ label' ∧ label' ≠ Utf8.encode "xmlns") →
      Nesting.readAttribute ⟨label ++ 58 :: name, position, value⟩ =
        Nesting.readAttribute ⟨label' ++ 58 :: name, position, value⟩ := by
  constructor
  · intro before content after label hscan hlabel tags
    constructor
    · intro hfault
      obtain ⟨-, last, events, hthrough⟩ := Transcript.readable_of_fault hfault
      rw [hscan] at hthrough
      obtain ⟨place, xs, ys, hbefore, hrest, -⟩ := Nesting.through_append hthrough
      obtain ⟨next, zs, more, hstep, -, -⟩ := Nesting.through_cons hrest
      exact Nesting.isBound_of_openElement (Nesting.follows_openTags hbefore) hlabel hstep
    · intro last events inside hbefore hdeclares hbound
      exact Transcript.ofDocument_of_error hscan hbefore
        (Nesting.openElement_of_not_isBound (Nesting.follows_openTags hbefore) hlabel hdeclares
          hbound)
  · exact fun label label' name value position => Nesting.readAttribute_label

/-- A label that is bound by the tag around it, and one that is used after the end of its scope. -/
theorem element_labels_bound_inner :
    Bindings.IsBound (Utf8.encode "p") [Utf8.encode "p:b", Utf8.encode "p:a xmlns:p='u'"] ∧
      ¬ Bindings.IsBound (Utf8.encode "p") [Utf8.encode "p:b"] ∧
      Transcript.ofDocument (Utf8.encode "<p:a xmlns:p='u'/><p:b/>") =
        ⟨[.start ⟨"u", "a"⟩ [], .finish], some (.unboundLabel "p")⟩ := by
  have hlabel : Nesting.labelOf? (Utf8.encode "p:b/") = some (Utf8.encode "p") := by cbv
  have hinner : (Token.scan (Utf8.encode "<p:a xmlns:p='u'><p:b/></p:a>")).1 =
      [.startTag (Utf8.encode "p:a xmlns:p='u'")] ++ .startTag (Utf8.encode "p:b/") ::
        [.endTag (Utf8.encode "p:a")] := by cbv
  have hafter : (Token.scan (Utf8.encode "<p:a xmlns:p='u'/><p:b/>")).1 =
      [.startTag (Utf8.encode "p:a xmlns:p='u'/")] ++ .startTag (Utf8.encode "p:b/") :: [] := by
    cbv
  have haccepted : (Transcript.ofDocument
      (Utf8.encode "<p:a xmlns:p='u'><p:b/></p:a>")).fault = none := by decide +kernel
  have hbefore : Nesting.empty.through [.startTag (Utf8.encode "p:a xmlns:p='u'/")] =
      .ok (⟨[], true⟩, [.start ⟨"u", "a"⟩ [], .finish]) := by decide +kernel
  have hdeclares : (RawAttribute.scan false (Nesting.splitSlash (Utf8.encode "p:b/")).1).1.foldlM
      Bindings.declare (Nesting.bindings ⟨[], true⟩) = .ok Bindings.reserved := by decide +kernel
  have hnone : ¬ Bindings.IsBound (Utf8.encode "p") [Utf8.encode "p:b"] := by decide +kernel
  have hbound := ((element_labels_bound _).1 _ _ _ _ hinner hlabel).1 haccepted
  have hfault := ((element_labels_bound _).1 _ _ _ _ hafter hlabel).2 _ _ _ hbefore hdeclares hnone
  have hshown : Utf8.decodeLossy (Utf8.encode "p") = "p" := by decide +kernel
  exact ⟨hbound, hnone, hshown ▸ hfault⟩

/-- The label of an attribute is bound by nothing, and the document is accepted. -/
theorem undeclared_attribute_accepted :
    (RawAttribute.scan true (Utf8.encode "a p:x='1'")).1.map RawAttribute.key =
        [Utf8.encode "p:x"] ∧
      ¬ Bindings.IsBound (Utf8.encode "p") [Utf8.encode "a p:x='1'"] ∧
      Transcript.ofDocument (Utf8.encode "<a p:x='1'/>") =
        ⟨[.start ⟨"", "a"⟩ [⟨"x", "1"⟩], .finish], none⟩ := by
  refine ⟨?_, ?_, ?_⟩
  · cbv
  · decide +kernel
  · cbv

end ContactCards
