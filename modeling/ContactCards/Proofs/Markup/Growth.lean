import ContactCards.Proofs.Markup.Preorder

/-! The table of a draft is the list of the nodes of its tree in pre-order, and nothing else: the
steps that led to the tree leave no other trace in it. -/
namespace ContactCards

variable {e child : Element} {a : List Nat} {c : Content}

namespace Content

/-- The texts of a content stand apart: none is empty, and no two of them meet. -/
structure TextsApart (c : Content) : Prop where
  nonempty : ∀ s, Child.text s ∈ c.children → s ≠ ""
  apart : c.children.IsChain fun x y => ¬ (x.isText ∧ y.isText)

theorem count_prependText_le (s : String) (c : Content) :
    (prependText s c).count ≤ c.count + 1 := by
  cases c with
  | text t rest => simp [prependText, count]
  | empty => by_cases hs : s = "" <;> simp [prependText, hs, count]
  | element => by_cases hs : s = "" <;> simp [prependText, hs, count]

theorem count_tidy_le (c : Content) : c.tidy.count ≤ c.count := by
  induction c with
  | empty => exact Nat.le_refl _
  | text s rest ih =>
    have hle := count_prependText_le s rest.tidy
    rw [tidy, count]
    omega
  | element name attributes inner rest ihi ihr =>
    rw [tidy, count, count]
    omega

/-- A text in a tidy content is not empty, and no text follows it. -/
theorem of_tidy_text {s : String} (h : (Content.text s c).tidy = .text s c) :
    s ≠ "" ∧ (∀ t d, c ≠ .text t d) ∧ c.tidy = c := by
  rw [tidy] at h
  cases hc : c.tidy with
  | text t d =>
    rw [hc, prependText] at h
    have hlt := c.count_tidy_le
    rw [hc, (text.inj h).2, count] at hlt
    omega
  | empty =>
    by_cases hs : s = ""
    · simp [hc, hs, prependText] at h
    · simp only [hc, prependText, hs, ↓reduceIte] at h
      obtain ⟨-, rfl⟩ := text.inj h
      refine ⟨hs, ?_, rfl⟩
      intro t d htext
      cases htext
  | element name attributes inner rest =>
    by_cases hs : s = ""
    · simp [hc, hs, prependText] at h
    · simp only [hc, prependText, hs, ↓reduceIte] at h
      obtain ⟨-, rfl⟩ := text.inj h
      refine ⟨hs, ?_, rfl⟩
      intro t d htext
      cases htext

theorem of_tidy_element {name : ExpandedName} {attributes : List Attribute} {inner rest : Content}
    (h : (Content.element name attributes inner rest).tidy = .element name attributes inner rest) :
    inner.tidy = inner ∧ rest.tidy = rest := by
  rw [tidy] at h
  obtain ⟨-, -, hinner, hrest⟩ := element.inj h
  exact ⟨hinner, hrest⟩

theorem textsApart_of_tidy (h : c.tidy = c) : c.TextsApart := by
  induction c with
  | empty => exact ⟨nofun, List.IsChain.nil⟩
  | text s rest ih =>
    obtain ⟨hs, hrest, htidy⟩ := of_tidy_text h
    obtain ⟨hnonempty, hapart⟩ := ih htidy
    constructor
    · intro t ht
      rcases List.mem_cons.mp ht with ht | ht
      · cases ht
        exact hs
      · exact hnonempty t ht
    · cases rest with
      | empty => exact List.IsChain.singleton _
      | text t d => exact absurd rfl (hrest t d)
      | element => exact List.IsChain.cons_cons (by simp [Child.isText]) hapart
  | element name attributes inner rest _ ih =>
    obtain ⟨hnonempty, hapart⟩ := ih (of_tidy_element h).2
    constructor
    · intro t ht
      exact hnonempty t (by simpa [children] using ht)
    · rw [children]
      cases hchildren : rest.children with
      | nil => exact List.IsChain.singleton _
      | cons x xs =>
        rw [hchildren] at hapart
        exact List.IsChain.cons_cons (by simp [Child.isText]) hapart

/-- The elements in a tidy content are tidy. -/
theorem tidy_of_mem_children (h : c.tidy = c) (hmem : .element e ∈ c.children) :
    e.content.tidy = e.content := by
  induction c with
  | empty => cases hmem
  | text s rest ih =>
    rcases List.mem_cons.mp hmem with hmem | hmem
    · cases hmem
    · exact ih (of_tidy_text h).2.2 hmem
  | element name attributes inner rest _ ih =>
    rcases List.mem_cons.mp hmem with hmem | hmem
    · cases hmem
      exact (of_tidy_element h).1
    · exact ih (of_tidy_element h).2 hmem

theorem allText_append (c d : Content) : (c.append d).allText = c.allText ++ d.allText := by
  induction c with
  | empty => simp [append, allText]
  | text s rest ih => simp [append, allText, ih, String.append_assoc]
  | element name attributes inner rest _ ih => simp [append, allText, ih, String.append_assoc]

theorem allText_addText (c : Content) (s : String) : (c.addText s).allText = c.allText ++ s := by
  induction c with
  | empty => by_cases hs : s = "" <;> simp [addText, allText, hs]
  | text t rest ih =>
    by_cases h : rest = .empty
    · subst rest
      simp [addText, allText]
    · rw [text_addText h, allText, ih, allText, String.append_assoc]
  | element name attributes inner rest _ ih => simp [addText, allText, ih, String.append_assoc]

/-- Items that are added to a tidy content are tidied as well. -/
theorem extend_eq_tidy (h : c.tidy = c) (d : Content) : c.extend d = (c.append d).tidy := by
  rw [extend_eq_meet, tidy_append, h]

theorem tidy_extend (h : c.tidy = c) (d : Content) : (c.extend d).tidy = c.extend d := by
  rw [extend_eq_tidy h, tidy_tidy]

theorem tidy_append_element {name : ExpandedName} {attributes : List Attribute} {inner : Content}
    (h : c.tidy = c) (hi : inner.tidy = inner) :
    (c.append (.element name attributes inner .empty)).tidy =
      c.append (.element name attributes inner .empty) := by
  have hextend := tidy_extend h (.element name attributes inner .empty)
  rwa [extend, hi] at hextend

end Content

/-- In a tidy element the texts of every element stand apart. -/
theorem Element.textsApart_of_mem_nodes (h : e.content.tidy = e.content)
    (hmem : (a, .element child) ∈ e.nodes) : child.content.TextsApart := by
  have hnode := mem_nodes.mp hmem
  apply Content.textsApart_of_tidy
  clear hmem
  induction a generalizing e with
  | nil =>
    cases hnode
    exact h
  | cons k a ih =>
    obtain ⟨x, hx, hnode⟩ := Option.bind_eq_some_iff.mp hnode
    cases x with
    | text s => cases a <;> cases hnode
    | element inner => exact ih (Content.tidy_of_mem_children h (List.mem_of_getElem? hx)) hnode

/-- A step in the growth of a draft. -/
inductive DraftStep where
  | text (s : String)
  | openChild (name : ExpandedName) (attributes : List Attribute)
  | closeChild
  deriving DecidableEq, Repr

namespace DraftStep

/-- The character data that a step adds. -/
def added : DraftStep → String
  | text s => s
  | _ => ""

end DraftStep

/-- A draft after a step. -/
def Draft.apply (draft : Draft) : DraftStep → Draft
  | .text s => draft.addText s
  | .openChild name attributes => draft.openChild name attributes
  | .closeChild => draft.closeChild

/-- Open elements after a step. -/
def Trail.apply (trail : Trail) : DraftStep → Trail
  | .text s => trail.addText s
  | .openChild name attributes => trail.openChild name attributes
  | .closeChild => trail.closeChild

/-- Closing an element moves the current row only. -/
theorem Draft.rows_closeChild (draft : Draft) : draft.closeChild.rows = draft.rows := by
  unfold closeChild
  split <;> rfl

namespace Trail

theorem toDraft_apply (trail : Trail) (step : DraftStep) :
    trail.toDraft.apply step = (trail.apply step).toDraft := by
  cases step with
  | text s => exact trail.toDraft_addText s
  | openChild name attributes => exact trail.toDraft_openChild name attributes
  | closeChild => exact trail.toDraft_closeChild

/-- The content of every open element is tidy. -/
def IsTidy (trail : Trail) : Prop :=
  trail.inner.content.tidy = trail.inner.content ∧
    ∀ f ∈ trail.outer, f.content.tidy = f.content

theorem IsTidy.apply {trail : Trail} (h : trail.IsTidy) (step : DraftStep) :
    (trail.apply step).IsTidy := by
  obtain ⟨hinner, houter⟩ := h
  cases step with
  | text s => exact ⟨Content.tidy_extend hinner (.text s .empty), houter⟩
  | openChild name attributes =>
    exact ⟨rfl, List.forall_mem_cons.mpr ⟨hinner, houter⟩⟩
  | closeChild =>
    obtain ⟨inner, outer⟩ := trail
    cases outer with
    | nil => exact ⟨hinner, houter⟩
    | cons f fs =>
      obtain ⟨hf, hfs⟩ := List.forall_mem_cons.mp houter
      exact ⟨Content.tidy_append_element hf hinner, hfs⟩

theorem IsTidy.finish {trail : Trail} (h : trail.IsTidy) :
    trail.finish.content.tidy = trail.finish.content := by
  obtain ⟨inner, outer⟩ := trail
  induction outer generalizing inner with
  | nil => exact h.1
  | cons f fs ih => exact ih (f.add inner.closed) (h.apply .closeChild)

/-- The table of a draft lists the element that its open elements become. -/
theorem toDraft_lists (trail : Trail) : trail.toDraft.Lists trail.finish := by
  obtain ⟨inner, outer⟩ := trail
  induction outer generalizing inner with
  | nil => exact Element.rows_eq ⟨inner.name, inner.attributes, inner.content⟩
  | cons f fs ih =>
    have hrows := Draft.rows_closeChild (toDraft ⟨inner, f :: fs⟩)
    rw [toDraft_closeChild] at hrows
    rw [Draft.Lists, ← hrows]
    exact ih (f.add inner.closed)

/-- The character data of open elements, the innermost first. -/
def textOf : List Frame → String
  | [] => ""
  | f :: fs => textOf fs ++ f.content.allText

theorem text_finish (trail : Trail) : trail.finish.text = textOf (trail.inner :: trail.outer) := by
  obtain ⟨inner, outer⟩ := trail
  induction outer generalizing inner with
  | nil => simp [finish, finish.close, textOf, Element.text]
  | cons f fs ih =>
    have hclose := ih (f.add inner.closed)
    rw [finish] at hclose ⊢
    rw [finish.close, hclose]
    simp [textOf, Frame.add, Frame.closed, Content.allText_append, Content.allText,
      String.append_assoc]

theorem text_apply (trail : Trail) (step : DraftStep) :
    (trail.apply step).finish.text = trail.finish.text ++ step.added := by
  cases step with
  | text s =>
    simp only [text_finish, apply, addText, textOf, Content.allText_addText, DraftStep.added,
      String.append_assoc]
  | openChild name attributes =>
    simp [text_finish, apply, openChild, textOf, Content.allText, DraftStep.added]
  | closeChild =>
    obtain ⟨inner, outer⟩ := trail
    cases outer with
    | nil => exact String.append_empty.symm
    | cons f fs => exact String.append_empty.symm

theorem text_foldl_apply (trail : Trail) (steps : List DraftStep) :
    (steps.foldl apply trail).finish.text =
      trail.finish.text ++ String.join (steps.map DraftStep.added) := by
  induction steps generalizing trail with
  | nil => simp
  | cons step steps ih =>
    rw [List.foldl_cons, ih, text_apply, List.map_cons, String.join_cons, String.append_assoc]

theorem isTidy_foldl_apply {trail : Trail} (h : trail.IsTidy) (steps : List DraftStep) :
    (steps.foldl apply trail).IsTidy := by
  induction steps generalizing trail with
  | nil => exact h
  | cons step steps ih => exact ih (h.apply step)

theorem toDraft_foldl_apply (trail : Trail) (steps : List DraftStep) :
    steps.foldl Draft.apply trail.toDraft = (steps.foldl apply trail).toDraft :=
  List.foldl_hom toDraft toDraft_apply

end Trail

/-- The draft that steps lead to from an element without content. -/
def Draft.grow (name : ExpandedName) (attributes : List Attribute) (steps : List DraftStep) :
    Draft :=
  steps.foldl apply (start name attributes)

/-- The element that steps describe. Texts that meet are one text, empty texts are none, and what
is open in the end is closed. -/
def Element.grow (name : ExpandedName) (attributes : List Attribute) (steps : List DraftStep) :
    Element :=
  (steps.foldl Trail.apply (Trail.start name attributes)).finish

variable (name : ExpandedName) (attributes : List Attribute) (steps : List DraftStep)

namespace Draft

theorem grow_eq : grow name attributes steps =
    (steps.foldl Trail.apply (Trail.start name attributes)).toDraft :=
  Trail.toDraft_foldl_apply (Trail.start name attributes) steps

theorem grow_lists : (grow name attributes steps).Lists (Element.grow name attributes steps) := by
  rw [grow_eq]
  exact Trail.toDraft_lists _

theorem finish_grow :
    (grow name attributes steps).finish = Element.grow name attributes steps := by
  rw [grow_eq]
  exact Trail.toDraft_finish _

theorem wellLinked_grow : (grow name attributes steps).WellLinked := by
  apply (grow_lists name attributes steps).wellLinked
  rw [grow_eq, childrenAt?, Trail.getElem?_currentRow]
  rfl

end Draft

namespace Element

theorem tidy_grow :
    (grow name attributes steps).content.tidy = (grow name attributes steps).content := by
  have hstart : (Trail.start name attributes).IsTidy := ⟨rfl, List.forall_mem_nil _⟩
  exact (Trail.isTidy_foldl_apply hstart steps).finish

theorem text_grow :
    (grow name attributes steps).text = String.join (steps.map DraftStep.added) := by
  have htext := Trail.text_foldl_apply (Trail.start name attributes) steps
  have hnone : (Trail.start name attributes).finish.text = "" := rfl
  rwa [hnone, String.empty_append] at htext

end Element

/-- Steps lead to the same table just if they describe the same element. -/
theorem Draft.rows_grow_inj (name' : ExpandedName) (attributes' : List Attribute)
    (steps' : List DraftStep) :
    (grow name' attributes' steps').rows = (grow name attributes steps).rows ↔
      Element.grow name' attributes' steps' = Element.grow name attributes steps := by
  constructor
  · intro hrows
    have hsame : (grow name' attributes' steps').finish = (grow name attributes steps).finish := by
      rw [finish, finish, hrows]
    rwa [finish_grow, finish_grow] at hsame
  · intro he
    have hlist := grow_lists name' attributes' steps'
    rw [he] at hlist
    exact Array.toList_inj.mp (hlist.trans (grow_lists name attributes steps).symm)

/-- Whatever the steps, the table of a draft is the list of the nodes of the element that they
describe, in pre-order and with links both ways, and nothing else. Reading it gives that element,
whose texts stand apart and together are the character data of the steps in order. Two tables are
equal just if their elements are. -/
theorem draft_lists_nodes (name : ExpandedName) (attributes : List Attribute)
    (steps : List DraftStep) :
    let draft := Draft.grow name attributes steps
    let e := Element.grow name attributes steps
    draft.rows.toList = e.nodes.map e.row ∧
    (∀ a node, (a, node) ∈ e.nodes ↔ (Child.element e).node? a = some node) ∧
    e.nodes.Pairwise (fun x y => x.1 < y.1) ∧
    draft.WellLinked ∧
    draft.finish = e ∧
    (∀ a child, (a, .element child) ∈ e.nodes → child.content.TextsApart) ∧
    e.text = String.join (steps.map DraftStep.added) ∧
    ∀ name' attributes' steps', (Draft.grow name' attributes' steps').rows = draft.rows ↔
      Element.grow name' attributes' steps' = e := by
  intro draft e
  refine ⟨Draft.grow_lists name attributes steps, ?_, e.pairwise_nodes,
    Draft.wellLinked_grow name attributes steps, Draft.finish_grow name attributes steps, ?_,
    Element.text_grow name attributes steps, Draft.rows_grow_inj name attributes steps⟩
  · intro a node
    exact Element.mem_nodes
  · intro a child
    exact Element.textsApart_of_mem_nodes (Element.tidy_grow name attributes steps)

end ContactCards
