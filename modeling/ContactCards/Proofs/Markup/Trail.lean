import ContactCards.Markup.Draft
import ContactCards.Proofs.Markup.Tidy

/-! A draft is the trail of its open elements, laid out in pre-order: each open element comes
before its finished content, and that before the next open element. -/
namespace ContactCards

variable {c d : Content} {s : String}

namespace Content

def count : Content → Nat
  | .empty => 0
  | .text _ rest => rest.count + 1
  | .element _ _ inner rest => inner.count + rest.count + 1

/-- The rows of the items of a content whose first node stands in row `first`. -/
def roots (first : Nat) : Content → List Nat
  | .empty => []
  | .text _ rest => first :: rest.roots (first + 1)
  | .element _ _ inner rest => first :: rest.roots (first + 1 + inner.count)

/-- The row of an element. -/
def elementRow (parent : Option Nat) (name : ExpandedName) (attributes : List Attribute)
    (children : List Nat) : DraftRow :=
  ⟨parent, .element name attributes children.toArray⟩

/-- The nodes of a content in pre-order, from row `first` on. -/
def rows (parent first : Nat) : Content → List DraftRow
  | .empty => []
  | .text s rest => ⟨some parent, .text s⟩ :: rest.rows parent (first + 1)
  | .element name attributes inner rest =>
    elementRow (some parent) name attributes (inner.roots (first + 1)) ::
      (inner.rows first (first + 1) ++ rest.rows parent (first + 1 + inner.count))

@[simp] theorem length_rows (c : Content) (parent first : Nat) :
    (c.rows parent first).length = c.count := by
  induction c generalizing parent first with
  | empty => rfl
  | text s rest ih => simp [rows, count, ih]
  | element name attributes inner rest ihi ihr => simp [rows, count, ihi, ihr]

theorem count_append (c d : Content) : (c.append d).count = c.count + d.count := by
  induction c with
  | empty => simp [append, count]
  | text s rest ih => simp only [append, count, ih]; omega
  | element name attributes inner rest _ ih => simp only [append, count, ih]; omega

theorem roots_append (c d : Content) (first : Nat) :
    (c.append d).roots first = c.roots first ++ d.roots (first + c.count) := by
  induction c generalizing first with
  | empty => simp [append, count, roots]
  | text s rest ih =>
    simp only [append, roots, ih, count, List.cons_append]
    rw [show first + 1 + rest.count = first + (rest.count + 1) by omega]
  | element name attributes inner rest _ ih =>
    simp only [append, roots, ih, count, List.cons_append]
    rw [show first + 1 + inner.count + rest.count = first + (inner.count + rest.count + 1) by
      omega]

theorem rows_append (c d : Content) (parent first : Nat) :
    (c.append d).rows parent first = c.rows parent first ++ d.rows parent (first + c.count) := by
  induction c generalizing first with
  | empty => simp [append, count, rows]
  | text s rest ih =>
    simp only [append, rows, ih, count, List.cons_append]
    rw [show first + 1 + rest.count = first + (rest.count + 1) by omega]
  | element name attributes inner rest _ ih =>
    simp only [append, rows, ih, count, List.cons_append, List.append_assoc]
    rw [show first + 1 + inner.count + rest.count = first + (inner.count + rest.count + 1) by
      omega]

/-- A content is empty or ends with a text or an element. -/
theorem eq_append_last (c : Content) :
    c = .empty ∨ (∃ (d : Content) (s : String), c = d.append (.text s .empty)) ∨
      ∃ (d : Content) (name : ExpandedName) (attributes : List Attribute) (inner : Content),
        c = d.append (.element name attributes inner .empty) := by
  induction c with
  | empty => exact Or.inl rfl
  | text s rest ih =>
    rcases ih with rfl | ⟨d, t, rfl⟩ | ⟨d, name, attributes, inner, rfl⟩
    · exact Or.inr (Or.inl ⟨.empty, s, rfl⟩)
    · exact Or.inr (Or.inl ⟨.text s d, t, rfl⟩)
    · exact Or.inr (Or.inr ⟨.text s d, name, attributes, inner, rfl⟩)
  | element n as i rest _ ih =>
    rcases ih with rfl | ⟨d, t, rfl⟩ | ⟨d, name, attributes, inner, rfl⟩
    · exact Or.inr (Or.inr ⟨.empty, n, as, i, rfl⟩)
    · exact Or.inr (Or.inl ⟨.element n as i d, t, rfl⟩)
    · exact Or.inr (Or.inr ⟨.element n as i d, name, attributes, inner, rfl⟩)

theorem getElem?_table {table : Array DraftRow} {before after : List DraftRow} (row : DraftRow)
    (ht : table.toList = before ++ row :: after) : table[before.length]? = some row := by
  rw [← Array.getElem?_toList, ht]
  simp

/-- A table that holds the rows of a content lists that content. -/
theorem collect_roots (c : Content) {table : Array DraftRow} (parent : Nat)
    (before after : List DraftRow) (hp : parent < before.length)
    (ht : table.toList = before ++ (c.rows parent before.length ++ after)) :
    Draft.collect table parent (c.roots before.length) = c := by
  induction c generalizing parent before after with
  | empty => rw [roots, Draft.collect]
  | text s rest ih =>
    let row : DraftRow := ⟨some parent, .text s⟩
    obtain ⟨hlt, hget⟩ := Array.getElem?_eq_some_iff.mp (getElem?_table row ht)
    have hr := ih parent (before ++ [row]) after (by simp; omega) (by simpa [rows, row] using ht)
    rw [List.length_append, List.length_singleton] at hr
    rw [roots, Draft.collect, dif_pos ⟨hp, hlt⟩]
    simp only [hget, row, hr]
  | element name attributes inner rest ihi ihr =>
    let row := elementRow (some parent) name attributes (inner.roots (before.length + 1))
    let inside := inner.rows before.length (before.length + 1)
    have ht' : table.toList = before ++ row :: (inside ++
        (rest.rows parent (before.length + 1 + inner.count) ++ after)) := by
      simpa [rows, row, inside] using ht
    obtain ⟨hlt, hget⟩ := Array.getElem?_eq_some_iff.mp (getElem?_table row ht')
    have hi := ihi before.length (before ++ [row])
      (rest.rows parent (before.length + 1 + inner.count) ++ after) (by simp)
      (by simpa [inside] using ht')
    have hlen : (before ++ row :: inside).length = before.length + 1 + inner.count := by
      simp [inside]
      omega
    have hr := ihr parent (before ++ row :: inside) after (by omega)
      (by rw [hlen]; simpa using ht')
    rw [List.length_append, List.length_singleton] at hi
    rw [hlen] at hr
    rw [roots, Draft.collect, dif_pos ⟨hp, hlt⟩]
    simp only [hget, row, elementRow, hi, hr]

end Content

/-- An open element with the content it has so far. -/
structure Frame where
  name : ExpandedName
  attributes : List Attribute
  content : Content
  deriving DecidableEq, Repr

namespace Frame

/-- The element that a frame becomes when it is closed, as a content of its own. -/
def closed (f : Frame) : Content :=
  .element f.name f.attributes f.content .empty

def add (f : Frame) (c : Content) : Frame :=
  { f with content := f.content.append c }

end Frame

/-- The rows of open elements, the innermost first, when one more element is open inside them. -/
def frameRows : List Frame → List DraftRow
  | [] => []
  | f :: fs =>
    let first := (frameRows fs).length + 1
    frameRows fs ++ Content.elementRow (parentRow fs) f.name f.attributes
      (f.content.roots first ++ [first + f.content.count]) :: f.content.rows (first - 1) first
where
  /-- The row of the innermost open element. -/
  parentRow : List Frame → Option Nat
    | [] => none
    | _ :: fs => some (frameRows fs).length

/-- The open elements of a draft, the innermost apart and the others around it from the inside. -/
structure Trail where
  inner : Frame
  outer : List Frame
  deriving DecidableEq, Repr

namespace Trail

def start (name : ExpandedName) (attributes : List Attribute) : Trail :=
  ⟨⟨name, attributes, .empty⟩, []⟩

def addText (trail : Trail) (s : String) : Trail :=
  ⟨{ trail.inner with content := trail.inner.content.addText s }, trail.outer⟩

def openChild (trail : Trail) (name : ExpandedName) (attributes : List Attribute) : Trail :=
  ⟨⟨name, attributes, .empty⟩, trail.inner :: trail.outer⟩

/-- Closes the innermost element, unless it is the only one. -/
def closeChild (trail : Trail) : Trail :=
  match trail.outer with
  | [] => trail
  | f :: fs => ⟨f.add trail.inner.closed, fs⟩

/-- Adds the items of a content to the innermost element. -/
def extend (trail : Trail) (c : Content) : Trail :=
  ⟨{ trail.inner with content := trail.inner.content.extend c }, trail.outer⟩

/-- The element that the open elements become when all are closed. -/
def finish (trail : Trail) : Element :=
  close trail.inner trail.outer
where
  close : Frame → List Frame → Element
    | f, [] => ⟨f.name, f.attributes, f.content⟩
    | f, g :: gs => close (g.add f.closed) gs

/-- The row of the innermost element. -/
def currentRow (trail : Trail) : Nat :=
  (frameRows trail.outer).length

/-- The nodes of a trail in pre-order. -/
def rows (trail : Trail) : List DraftRow :=
  let first := trail.currentRow + 1
  frameRows trail.outer ++ Content.elementRow (frameRows.parentRow trail.outer) trail.inner.name
    trail.inner.attributes (trail.inner.content.roots first) ::
      trail.inner.content.rows trail.currentRow first

/-- The draft of a trail. -/
def toDraft (trail : Trail) : Draft :=
  ⟨trail.rows.toArray, trail.currentRow⟩

@[simp] theorem addText_empty (trail : Trail) : trail.addText "" = trail := by
  simp [addText]

theorem addText_addText (trail : Trail) (s t : String) :
    (trail.addText s).addText t = trail.addText (s ++ t) := by
  simp [addText, Content.addText_addText]

/-- Adding an element is opening it, adding its content and closing it. -/
theorem extend_element (trail : Trail) (name : ExpandedName) (attributes : List Attribute)
    (inner rest : Content) :
    trail.extend (.element name attributes inner rest) =
      ((trail.openChild name attributes).extend inner).closeChild.extend rest := by
  simp [extend, openChild, closeChild, Frame.add, Frame.closed, Content.extend,
    Content.empty_extend]

theorem start_extend_finish (name : ExpandedName) (attributes : List Attribute) (c : Content) :
    ((start name attributes).extend c).finish = ⟨name, attributes, c.tidy⟩ := by
  simp [start, extend, finish, finish.close, Content.empty_extend]

@[simp] theorem start_toDraft (name : ExpandedName) (attributes : List Attribute) :
    (start name attributes).toDraft = Draft.start name attributes := rfl

theorem length_rows (trail : Trail) :
    trail.rows.length = trail.currentRow + 1 + trail.inner.content.count := by
  simp only [rows, List.length_append, List.length_cons, Content.length_rows, currentRow]
  omega

theorem modify_append {α : Type} (before after : List α) (x : α) (f : α → α) :
    (before ++ x :: after).modify before.length f = before ++ f x :: after := by
  induction before with
  | nil => rfl
  | cons y before ih => rw [List.cons_append, List.length_cons, List.modify_succ_cons, ih]; rfl

/-- A new node gets the next row, and its row becomes a child of the current element. -/
theorem toDraft_addNode_rows (trail : Trail) (node : DraftNode) :
    (trail.toDraft.addNode node).rows = (frameRows (trail.inner :: trail.outer) ++
      [(⟨some trail.currentRow, node⟩ : DraftRow)]).toArray := by
  obtain ⟨⟨name, attributes, content⟩, outer⟩ := trail
  simp only [toDraft, Draft.addNode, Draft.linkChild, List.modify_toArray, List.push_toArray,
    List.size_toArray, length_rows]
  simp only [rows, currentRow, modify_append, Content.elementRow, List.push_toArray, frameRows,
    Nat.add_sub_cancel, List.append_assoc, List.cons_append]

theorem length_frameRows_cons (f : Frame) (fs : List Frame) :
    (frameRows (f :: fs)).length = (frameRows fs).length + 1 + f.content.count := by
  simp only [frameRows, List.length_append, List.length_cons, Content.length_rows]
  omega

theorem toDraft_openChild (trail : Trail) (name : ExpandedName) (attributes : List Attribute) :
    trail.toDraft.openChild name attributes = (trail.openChild name attributes).toDraft := by
  have hrow : trail.toDraft.rows.size = (frameRows (trail.inner :: trail.outer)).length := by
    rw [length_frameRows_cons]
    exact length_rows trail
  simp only [Draft.openChild, toDraft_addNode_rows, hrow]
  rfl

/-- The draft of a trail with one more text at the end of the current element. -/
theorem toDraft_addNode_text (trail : Trail) (s : String) :
    trail.toDraft.addNode (.text s) =
      (Trail.mk (trail.inner.add (.text s .empty)) trail.outer).toDraft := by
  calc trail.toDraft.addNode (.text s)
    _ = ⟨(trail.toDraft.addNode (.text s)).rows, trail.currentRow⟩ := rfl
    _ = ⟨(frameRows (trail.inner :: trail.outer) ++
          [(⟨some trail.currentRow, .text s⟩ : DraftRow)]).toArray, trail.currentRow⟩ := by
      rw [toDraft_addNode_rows]
    _ = (Trail.mk (trail.inner.add (.text s .empty)) trail.outer).toDraft := by
      simp [toDraft, rows, currentRow, Frame.add, frameRows, Content.roots_append,
        Content.rows_append, Content.roots, Content.rows]

/-- The row of the innermost element. -/
theorem getElem?_currentRow (trail : Trail) :
    trail.toDraft.rows[trail.toDraft.current]? =
      some (Content.elementRow (frameRows.parentRow trail.outer) trail.inner.name
        trail.inner.attributes (trail.inner.content.roots (trail.currentRow + 1))) :=
  Content.getElem?_table _ rfl

theorem toDraft_closeChild (trail : Trail) :
    trail.toDraft.closeChild = trail.closeChild.toDraft := by
  simp only [Draft.closeChild, getElem?_currentRow, Content.elementRow]
  obtain ⟨⟨name, attributes, content⟩, outer⟩ := trail
  cases outer with
  | nil => rfl
  | cons f fs =>
    have hcount : (frameRows fs).length + (f.content.count + 1) =
        (frameRows fs).length + 1 + f.content.count := by omega
    simp [frameRows.parentRow, closeChild, toDraft, rows, currentRow, frameRows, Frame.add,
      Frame.closed, Content.roots_append, Content.rows_append, Content.roots, Content.rows,
      Content.elementRow, hcount]

theorem toDraft_currentChildren (trail : Trail) :
    trail.toDraft.currentChildren =
      (trail.inner.content.roots (trail.currentRow + 1)).toArray := by
  simp only [Draft.currentChildren, getElem?_currentRow, Content.elementRow]

/-- The rows before the last item of the innermost element do not depend on what that item is, as
long as it stands in the same row. -/
theorem exists_rows_before {trail : Trail} (d' : Content)
    (hc : trail.inner.content = c.append d) (hroots : ∀ first, d'.roots first = d.roots first) :
    ∃ before : List DraftRow, before.length = trail.currentRow + 1 + c.count ∧
      trail.rows = before ++ d.rows trail.currentRow (trail.currentRow + 1 + c.count) ∧
      (Trail.mk { trail.inner with content := c.append d' } trail.outer).rows =
        before ++ d'.rows trail.currentRow (trail.currentRow + 1 + c.count) := by
  refine ⟨frameRows trail.outer ++ Content.elementRow (frameRows.parentRow trail.outer)
    trail.inner.name trail.inner.attributes (trail.inner.content.roots (trail.currentRow + 1)) ::
      c.rows trail.currentRow (trail.currentRow + 1), ?_, ?_, ?_⟩
  · simp only [List.length_append, List.length_cons, Content.length_rows, currentRow]
    omega
  · simp only [rows, hc, Content.rows_append, List.append_assoc, List.cons_append]
  · simp only [rows, currentRow, hc, Content.rows_append, Content.roots_append, hroots,
      List.append_assoc, List.cons_append]

theorem lastText?_empty {trail : Trail} (hc : trail.inner.content = .empty) :
    trail.toDraft.lastText? = none := by
  simp [Draft.lastText?, toDraft_currentChildren, hc, Content.roots]

theorem lastText?_text {trail : Trail} {t : String}
    (hc : trail.inner.content = c.append (.text t .empty)) :
    trail.toDraft.lastText? = some (trail.currentRow + 1 + c.count) := by
  obtain ⟨before, hlen, hrows, -⟩ := exists_rows_before _ hc fun _ => rfl
  have hrow : trail.toDraft.rows[before.length]? = some _ := Content.getElem?_table _ hrows
  rw [hlen] at hrow
  simp [Draft.lastText?, toDraft_currentChildren, hc, Content.roots_append, Content.roots, hrow]

theorem lastText?_element {trail : Trail} {name : ExpandedName} {attributes : List Attribute}
    {inner : Content}
    (hc : trail.inner.content = c.append (.element name attributes inner .empty)) :
    trail.toDraft.lastText? = none := by
  obtain ⟨before, hlen, hrows, -⟩ := exists_rows_before _ hc fun _ => rfl
  have hrow : trail.toDraft.rows[before.length]? = some _ := Content.getElem?_table _ hrows
  rw [hlen] at hrow
  simp [Draft.lastText?, toDraft_currentChildren, hc, Content.roots_append, Content.roots, hrow,
    Content.elementRow]

/-- Extending the text that ends the innermost element. -/
theorem extendText_toDraft {trail : Trail} {t : String}
    (hc : trail.inner.content = c.append (.text t .empty)) (s : String) :
    Draft.mk (Draft.extendText trail.toDraft.rows (trail.currentRow + 1 + c.count) s)
      trail.currentRow = (trail.addText s).toDraft := by
  obtain ⟨before, hlen, hrows, hrows'⟩ :=
    exists_rows_before (.text (t ++ s) .empty) hc fun _ => rfl
  have hadd : trail.addText s =
      ⟨{ trail.inner with content := c.append (.text (t ++ s) .empty) }, trail.outer⟩ := by
    have hlast := Content.append_addText (s := s) (c := c) (d := .text t .empty) nofun
    simp only [addText, hc, hlast]
    rfl
  rw [hadd, ← hlen]
  simp only [toDraft, Draft.extendText, hrows, hrows', List.modify_toArray, Content.rows,
    modify_append]
  rfl

theorem toDraft_addText (trail : Trail) (s : String) :
    trail.toDraft.addText s = (trail.addText s).toDraft := by
  by_cases hs : s = ""
  · subst s
    simp [Draft.addText, addText]
  · have hempty : s.isEmpty = false := by simpa using hs
    -- Both sides look at the last item of the innermost element only.
    rcases Content.eq_append_last trail.inner.content with hc | ⟨c, t, hc⟩ | ⟨c, n, a, i, hc⟩
    · simp only [Draft.addText, hempty, lastText?_empty hc, toDraft_addNode_text]
      simp [addText, Frame.add, hc, Content.append, Content.empty_addText hs]
    · simp only [Draft.addText, hempty, lastText?_text hc]
      exact extendText_toDraft hc s
    · simp only [Draft.addText, hempty, lastText?_element hc, toDraft_addNode_text]
      simp [addText, Frame.add, hc, Content.append_assoc, Content.append_addText, Content.append,
        Content.addText, hs]

/-- Closing moves the current row only. -/
theorem finish_closeChild (draft : Draft) : draft.closeChild.finish = draft.finish := by
  unfold Draft.closeChild
  split <;> rfl

theorem toDraft_finish_root (f : Frame) :
    (Trail.mk f []).toDraft.finish = ⟨f.name, f.attributes, f.content⟩ := by
  let root := Content.elementRow none f.name f.attributes (f.content.roots 1)
  have htable : (Trail.mk f []).toDraft.rows.toList = [root] ++ (f.content.rows 0 1 ++ []) := by
    rw [List.append_nil]
    rfl
  have hlist : Draft.collect (Trail.mk f []).toDraft.rows 0 (f.content.roots 1) = f.content :=
    Content.collect_roots f.content 0 [root] [] Nat.zero_lt_one htable
  have hroot : (Trail.mk f []).toDraft.rows[0]? = some root := rfl
  simp only [Draft.finish, hroot, root, Content.elementRow, Option.map_some, hlist]

/-- A draft becomes the element that its trail becomes. -/
theorem toDraft_finish (trail : Trail) : trail.toDraft.finish = trail.finish := by
  obtain ⟨inner, outer⟩ := trail
  induction outer generalizing inner with
  | nil => exact toDraft_finish_root inner
  | cons f fs ih =>
    rw [← finish_closeChild, toDraft_closeChild]
    exact ih (f.add inner.closed)

end Trail
end ContactCards
