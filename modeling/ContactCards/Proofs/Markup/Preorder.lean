import ContactCards.Proofs.Markup.Trail
import Mathlib.Data.List.Basic
import Mathlib.Data.List.Lex

/-! The nodes of an element in pre-order, each with the way down to it, and the tables that list
them. A table that does is linked both ways. -/
namespace ContactCards

variable {e child : Element} {node : Child} {a b : List Nat} {c : Content} {i j k : Nat}

namespace Child

def isText : Child → Bool
  | text _ => true
  | element _ => false

def children : Child → List Child
  | text _ => []
  | element e => e.children

/-- The node that a way down leads to, each step of it the number of a child. -/
def node? (x : Child) : List Nat → Option Child
  | [] => some x
  | k :: ks => x.children[k]?.bind (·.node? ks)

end Child

/-- The nodes of a content in pre-order with the ways down to them, its first item being number
`k`. -/
def Content.nodes (k : Nat) : Content → List (List Nat × Child)
  | .empty => []
  | .text s rest => ([k], .text s) :: rest.nodes (k + 1)
  | .element name attributes inner rest =>
    ([k], .element ⟨name, attributes, inner⟩) ::
      ((inner.nodes 0).map fun (a, node) => (k :: a, node)) ++ rest.nodes (k + 1)

namespace Element

/-- The nodes of an element in pre-order, itself first, with the ways down to them. -/
def nodes (e : Element) : List (List Nat × Child) :=
  ([], .element e) :: e.content.nodes 0

/-- The position of a node among the nodes of an element. -/
def position (e : Element) (a : List Nat) : Nat :=
  (e.nodes.map Prod.fst).idxOf a

/-- The row of a node. Its parent and its children are given by their positions. -/
def row (e : Element) : List Nat × Child → DraftRow
  | (a, node) => ⟨if a = [] then none else some (e.position a.dropLast),
    match node with
    | .text s => .text s
    | .element child => .element child.name child.attributes
        ((List.range child.children.length).map fun k => e.position (a ++ [k])).toArray⟩

end Element

namespace Child

theorem node?_append (x : Child) (a b : List Nat) :
    x.node? (a ++ b) = (x.node? a).bind (·.node? b) := by
  induction a generalizing x with
  | nil => rfl
  | cons k a ih =>
    rw [List.cons_append, node?, node?]
    cases x.children[k]? with
    | none => rfl
    | some child => exact ih child

end Child

namespace Content

/-- The nodes of a content are the nodes of its items. -/
theorem mem_nodes : (a, node) ∈ c.nodes k ↔
    ∃ j b child, a = (k + j) :: b ∧ c.children[j]? = some child ∧ child.node? b = some node := by
  induction c generalizing k a with
  | empty => simp [nodes, children]
  | text s rest ih =>
    rw [nodes, List.mem_cons, ih, children]
    constructor
    · rintro (h | ⟨j, b, child, rfl, hchild, hnode⟩)
      · cases h
        exact ⟨0, [], .text s, rfl, rfl, rfl⟩
      · exact ⟨j + 1, b, child, by rw [Nat.add_assoc, Nat.add_comm 1], hchild, hnode⟩
    · rintro ⟨j, b, child, rfl, hchild, hnode⟩
      cases j with
      | zero =>
        cases hchild
        cases b with
        | nil =>
          cases hnode
          exact Or.inl rfl
        | cons => cases hnode
      | succ j =>
        right
        exact ⟨j, b, child, by rw [Nat.add_assoc, Nat.add_comm 1], hchild, hnode⟩
  | element name attributes inner rest ihi ihr =>
    rw [nodes, List.mem_append, List.mem_cons, List.mem_map, ihr, children]
    constructor
    · rintro ((h | ⟨⟨b, node⟩, hmem, h⟩) | ⟨j, b, child, rfl, hchild, hnode⟩)
      · cases h
        exact ⟨0, [], _, rfl, rfl, rfl⟩
      · cases h
        obtain ⟨j, b, child, rfl, hchild, hnode⟩ := ihi.mp hmem
        refine ⟨0, _, _, rfl, rfl, ?_⟩
        rw [Nat.zero_add, Child.node?, Child.children, Element.children, hchild]
        exact hnode
      · exact ⟨j + 1, b, child, by rw [Nat.add_assoc, Nat.add_comm 1], hchild, hnode⟩
    · rintro ⟨j, b, child, rfl, hchild, hnode⟩
      cases j with
      | zero =>
        cases hchild
        left
        cases b with
        | nil =>
          cases hnode
          exact Or.inl rfl
        | cons j b =>
          obtain ⟨child, hchild, hnode⟩ := Option.bind_eq_some_iff.mp hnode
          right
          exact ⟨(j :: b, node), ihi.mpr ⟨j, b, child, by rw [Nat.zero_add], hchild, hnode⟩, rfl⟩
      | succ j =>
        right
        exact ⟨j, b, child, by rw [Nat.add_assoc, Nat.add_comm 1], hchild, hnode⟩

theorem length_nodes (c : Content) (k : Nat) : (c.nodes k).length = c.count := by
  induction c generalizing k with
  | empty => rfl
  | text s rest ih => rw [nodes, List.length_cons, ih, count]
  | element name attributes inner rest ihi ihr =>
    rw [nodes, List.length_append, List.length_cons, List.length_map, ihi, ihr, count]
    omega

/-- Pre-order is the order of the ways down. -/
theorem pairwise_nodes (c : Content) (k : Nat) :
    (c.nodes k).Pairwise fun x y => x.1 < y.1 := by
  induction c generalizing k with
  | empty => exact List.Pairwise.nil
  | text s rest ih =>
    refine List.pairwise_cons.mpr ⟨?_, ih (k + 1)⟩
    rintro ⟨a, node⟩ hmem
    obtain ⟨j, b, -, rfl, -⟩ := mem_nodes.mp hmem
    exact List.Lex.rel (by omega)
  | element name attributes inner rest ihi ihr =>
    have hrest : ∀ x ∈ rest.nodes (k + 1), ∀ b, k :: b < x.1 := by
      rintro ⟨a, node⟩ hmem b
      obtain ⟨j, a, -, rfl, -⟩ := mem_nodes.mp hmem
      exact List.Lex.rel (by omega)
    have hinner : ((inner.nodes 0).map fun (a, node) => (k :: a, node)).Pairwise
        fun x y => x.1 < y.1 := by
      rw [List.pairwise_map]
      exact (ihi 0).imp fun h => List.Lex.cons h
    refine List.pairwise_append.mpr ⟨List.pairwise_cons.mpr ⟨?_, hinner⟩, ihr (k + 1), ?_⟩
    · intro x hx
      obtain ⟨⟨b, node⟩, hmem, rfl⟩ := List.mem_map.mp hx
      obtain ⟨j, b, -, rfl, -⟩ := mem_nodes.mp hmem
      exact List.Lex.cons List.Lex.nil
    · intro x hx y hy
      rcases List.mem_cons.mp hx with rfl | hx
      · exact hrest y hy []
      · obtain ⟨⟨b, node⟩, -, rfl⟩ := List.mem_map.mp hx
        exact hrest y hy b

end Content

namespace Element

theorem mem_nodes : (a, node) ∈ e.nodes ↔ (Child.element e).node? a = some node := by
  rw [nodes, List.mem_cons, Content.mem_nodes]
  constructor
  · rintro (h | ⟨j, b, child, rfl, hchild, hnode⟩)
    · cases h
      rfl
    · rw [Nat.zero_add, Child.node?, Child.children, children, hchild]
      exact hnode
  · intro h
    cases a with
    | nil =>
      cases h
      exact Or.inl rfl
    | cons j b =>
      obtain ⟨child, hchild, hnode⟩ := Option.bind_eq_some_iff.mp h
      exact Or.inr ⟨j, b, child, by rw [Nat.zero_add], hchild, hnode⟩

theorem pairwise_nodes (e : Element) : e.nodes.Pairwise fun x y => x.1 < y.1 := by
  refine List.pairwise_cons.mpr ⟨?_, e.content.pairwise_nodes 0⟩
  rintro ⟨a, node⟩ hmem
  obtain ⟨j, b, -, rfl, -⟩ := Content.mem_nodes.mp hmem
  exact List.Lex.nil

/-- Where a node stands in the list is its position. -/
theorem position_eq {before after : List (List Nat × Child)}
    (h : e.nodes = before ++ (a, node) :: after) : e.position a = before.length := by
  have hpairwise := e.pairwise_nodes
  rw [h] at hpairwise
  have hbefore := (List.pairwise_append.mp hpairwise).2.2
  have hnot : a ∉ before.map Prod.fst := by
    intro hmem
    obtain ⟨x, hx, hxa⟩ := List.mem_map.mp hmem
    have hlt := hbefore x hx (a, node) List.mem_cons_self
    rw [hxa] at hlt
    exact lt_irrefl a hlt
  rw [position, h, List.map_append, List.map_cons, List.idxOf_append_of_notMem hnot,
    List.idxOf_cons_self, List.length_map]
  rfl

/-- The nodes of a content that stands below the node `a` in an element. -/
def nodesBelow (a : List Nat) (nodes : List (List Nat × Child)) : List (List Nat × Child) :=
  nodes.map fun (b, node) => (a ++ b, node)

theorem nodesBelow_element (a : List Nat) (k : Nat) (name : ExpandedName)
    (attributes : List Attribute) (inner rest : Content) :
    nodesBelow a ((Content.element name attributes inner rest).nodes k) =
      (a ++ [k], .element ⟨name, attributes, inner⟩) ::
        (nodesBelow (a ++ [k]) (inner.nodes 0) ++ nodesBelow a (rest.nodes (k + 1))) := by
  simp [nodesBelow, Content.nodes]

/-- The table of a content inside an element, and the rows of its items. -/
theorem rows_content (c : Content) (k : Nat) (before after : List (List Nat × Child))
    {parent : Nat} (hparent : e.position a = parent)
    (h : e.nodes = before ++ (nodesBelow a (c.nodes k) ++ after)) :
    c.rows parent before.length = (nodesBelow a (c.nodes k)).map e.row ∧
      c.roots before.length =
        (List.range c.children.length).map fun j => e.position (a ++ [k + j]) := by
  induction c generalizing a before after parent k with
  | empty => exact ⟨rfl, rfl⟩
  | text s rest ih =>
    have hposition : e.position (a ++ [k]) = before.length := position_eq h
    have hrow : e.row (a ++ [k], .text s) = ⟨some parent, .text s⟩ := by
      simp [row, hparent]
    obtain ⟨hrows, hroots⟩ := ih (k + 1) (before ++ [(a ++ [k], .text s)]) after hparent
      (by rw [List.append_assoc]; exact h)
    rw [List.length_append, List.length_singleton] at hrows hroots
    constructor
    · rw [Content.rows, hrows, ← hrow]
      rfl
    · rw [Content.roots, hroots, Content.children, List.length_cons, List.range_succ_eq_map]
      simp [hposition, Nat.add_assoc, Nat.add_comm 1]
  | element name attributes inner rest ihi ihr =>
    -- The inner content comes right after its element, and what follows the element after both.
    let item : List Nat × Child := (a ++ [k], .element ⟨name, attributes, inner⟩)
    let inside := nodesBelow (a ++ [k]) (inner.nodes 0)
    rw [nodesBelow_element] at h ⊢
    have hposition : e.position (a ++ [k]) = before.length := position_eq h
    obtain ⟨hrowsi, hrootsi⟩ := ihi 0 (before ++ [item])
      (nodesBelow a (rest.nodes (k + 1)) ++ after) hposition (by simpa using h)
    obtain ⟨hrows, hroots⟩ := ihr (k + 1) (before ++ item :: inside) after hparent
      (by simpa [inside] using h)
    have hlength : (before ++ item :: inside).length = before.length + 1 + inner.count := by
      simp [inside, nodesBelow, Content.length_nodes]
      omega
    rw [List.length_append, List.length_singleton] at hrowsi hrootsi
    rw [hlength] at hrows hroots
    have hrow : e.row item = Content.elementRow (some parent) name attributes
        (inner.roots (before.length + 1)) := by
      simp [item, row, hparent, hrootsi, Content.elementRow, children]
    constructor
    · rw [Content.rows, hrowsi, hrows, ← hrow, List.map_cons, List.map_append]
    · rw [Content.roots, hroots, Content.children, List.length_cons, List.range_succ_eq_map]
      simp [hposition, Nat.add_assoc, Nat.add_comm 1]

/-- The rows of an element. -/
theorem rows_eq (e : Element) :
    Content.elementRow none e.name e.attributes (e.content.roots 1) :: e.content.rows 0 1 =
      e.nodes.map e.row := by
  have hsplit : e.nodes = [] ++ ([], .element e) :: e.content.nodes 0 := rfl
  have hroot : e.position [] = 0 := position_eq hsplit
  obtain ⟨hrows, hroots⟩ := rows_content e.content 0 [([], .element e)] [] hroot
    (by simp [nodes, nodesBelow])
  rw [List.length_singleton] at hrows hroots
  rw [hrows, hroots, nodes, List.map_cons]
  simp [row, Content.elementRow, nodesBelow, children]

/-- The nodes below the root are the children of the elements. -/
theorem mem_nodes_concat : (a ++ [k], node) ∈ e.nodes ↔
    ∃ parent : Element, (a, .element parent) ∈ e.nodes ∧ parent.children[k]? = some node := by
  rw [mem_nodes, Child.node?_append, Option.bind_eq_some_iff]
  constructor
  · rintro ⟨x, hx, hnode⟩
    obtain ⟨y, hy, hnode⟩ := Option.bind_eq_some_iff.mp hnode
    cases hnode
    cases x with
    | text s => cases hy
    | element parent => exact ⟨parent, mem_nodes.mpr hx, hy⟩
  · rintro ⟨parent, hparent, hnode⟩
    refine ⟨.element parent, mem_nodes.mp hparent, ?_⟩
    rw [Child.node?, Child.children, hnode]
    rfl

theorem lt_concat (a : List Nat) (k : Nat) : a < a ++ [k] := by
  induction a with
  | nil => exact List.Lex.nil
  | cons j a ih => exact List.Lex.cons ih

theorem getElem?_position (h : (a, node) ∈ e.nodes) : e.nodes[e.position a]? = some (a, node) := by
  obtain ⟨before, after, hsplit⟩ := List.append_of_mem h
  rw [position_eq hsplit, hsplit]
  simp

theorem position_of_getElem? (h : e.nodes[i]? = some (a, node)) : e.position a = i := by
  obtain ⟨hi, heq⟩ := List.getElem?_eq_some_iff.mp h
  have hsplit : e.nodes = e.nodes.take i ++ (a, node) :: e.nodes.drop (i + 1) := by
    rw [← heq, ← List.drop_eq_getElem_cons hi, List.take_append_drop]
  rw [position_eq hsplit, List.length_take_of_le (by omega)]

theorem position_lt_position {x y : Child} (hx : (a, x) ∈ e.nodes) (hy : (b, y) ∈ e.nodes)
    (h : a < b) : e.position a < e.position b := by
  have hpairwise := List.pairwise_iff_getElem.mp e.pairwise_nodes
  obtain ⟨hi, hgeti⟩ := List.getElem?_eq_some_iff.mp (getElem?_position hx)
  obtain ⟨hj, hgetj⟩ := List.getElem?_eq_some_iff.mp (getElem?_position hy)
  rcases lt_trichotomy (e.position a) (e.position b) with hlt | heq | hgt
  · exact hlt
  · simp only [heq, hgetj] at hgeti
    cases hgeti
    exact absurd h (lt_irrefl a)
  · have hba := hpairwise _ _ hj hi hgt
    rw [hgeti, hgetj] at hba
    exact absurd (lt_trans h hba) (lt_irrefl a)

end Element

namespace Draft

/-- The parent of the node in row `i`. -/
def parentAt? (draft : Draft) (i : Nat) : Option Nat :=
  draft.rows[i]?.bind DraftRow.parent

/-- The children of the element in row `i`, if there is one. -/
def childrenAt? (draft : Draft) (i : Nat) : Option (Array Nat) :=
  match draft.rows[i]? with
  | some ⟨_, .element _ _ children⟩ => some children
  | _ => none

/-- A table whose links go both ways. The first row is an element without a parent; any other has
an element above it as its parent, which lists it. What an element lists are rows below it that
have it as their parent. The current row is an element. -/
structure WellLinked (draft : Draft) : Prop where
  root : draft.parentAt? 0 = none ∧ (draft.childrenAt? 0).isSome
  parent : ∀ i, 0 < i → i < draft.rows.size → ∃ p children,
    draft.parentAt? i = some p ∧ p < i ∧ draft.childrenAt? p = some children ∧ i ∈ children
  child : ∀ i children, draft.childrenAt? i = some children →
    ∀ j ∈ children, i < j ∧ j < draft.rows.size ∧ draft.parentAt? j = some i
  current : (draft.childrenAt? draft.current).isSome

/-- A table that is the list of the nodes of an element. -/
def Lists (draft : Draft) (e : Element) : Prop :=
  draft.rows.toList = e.nodes.map e.row

variable {draft : Draft} {children : Array Nat}

theorem Lists.getElem? (h : draft.Lists e) (i : Nat) :
    draft.rows[i]? = e.nodes[i]?.map e.row := by
  rw [← Array.getElem?_toList, h, List.getElem?_map]

theorem Lists.size_eq (h : draft.Lists e) : draft.rows.size = e.nodes.length := by
  rw [← Array.length_toList, h, List.length_map]

theorem Lists.parentAt? (h : draft.Lists e) (hi : e.nodes[i]? = some (a, node)) :
    draft.parentAt? i = if a = [] then none else some (e.position a.dropLast) := by
  rw [Draft.parentAt?, h.getElem?, hi]
  rfl

theorem Lists.childrenAt? (h : draft.Lists e) (hi : e.nodes[i]? = some (a, .element child)) :
    draft.childrenAt? i =
      some ((List.range child.children.length).map fun k => e.position (a ++ [k])).toArray := by
  rw [Draft.childrenAt?, h.getElem?, hi]
  rfl

theorem Lists.exists_of_childrenAt? (h : draft.Lists e) (hi : draft.childrenAt? i = some children) :
    ∃ a child, e.nodes[i]? = some (a, .element child) := by
  rw [Draft.childrenAt?, h.getElem?] at hi
  cases hnode : e.nodes[i]? with
  | none => simp [hnode] at hi
  | some x =>
    obtain ⟨a, node⟩ := x
    cases node with
    | text s => simp [hnode, Element.row] at hi
    | element child => exact ⟨a, child, rfl⟩

/-- A node that is not the root has a parent above it, which lists it. -/
theorem Lists.exists_parent (h : draft.Lists e) (hpos : 0 < i) (hi : i < draft.rows.size) :
    ∃ p children, draft.parentAt? i = some p ∧ p < i ∧ draft.childrenAt? p = some children ∧
      i ∈ children := by
  obtain ⟨⟨a, node⟩, hnode⟩ : ∃ x, e.nodes[i]? = some x :=
    ⟨_, List.getElem?_eq_getElem (h.size_eq ▸ hi)⟩
  have hposition := Element.position_of_getElem? hnode
  rcases List.eq_nil_or_concat a with rfl | ⟨b, k, rfl⟩
  · have hroot : e.nodes[0]? = some ([], .element e) := rfl
    have hzero := Element.position_of_getElem? hroot
    omega
  · rw [List.concat_eq_append] at hnode hposition
    have hmem := List.mem_of_getElem? hnode
    obtain ⟨parent, hparent, hchild⟩ := Element.mem_nodes_concat.mp hmem
    have hlt := Element.position_lt_position hparent hmem (Element.lt_concat b k)
    have hk : k < parent.children.length := (List.getElem?_eq_some_iff.mp hchild).1
    refine ⟨e.position b, _, ?_, by omega, h.childrenAt? (Element.getElem?_position hparent), ?_⟩
    · rw [h.parentAt? hnode]
      simp
    · rw [← hposition, List.mem_toArray]
      exact List.mem_map_of_mem (List.mem_range.mpr hk)

/-- What an element lists are nodes below it, and it is their parent. -/
theorem Lists.of_mem_children (h : draft.Lists e) (hi : draft.childrenAt? i = some children)
    (hj : j ∈ children) :
    i < j ∧ j < draft.rows.size ∧ draft.parentAt? j = some i := by
  obtain ⟨a, child, hnode⟩ := h.exists_of_childrenAt? hi
  rw [h.childrenAt? hnode] at hi
  cases hi
  obtain ⟨k, hk, rfl⟩ := List.mem_map.mp (List.mem_toArray.mp hj)
  have hchild := List.getElem?_eq_getElem (List.mem_range.mp hk)
  have hmem := List.mem_of_getElem? hnode
  have hbelow := Element.mem_nodes_concat.mpr ⟨child, hmem, hchild⟩
  have hat := Element.getElem?_position hbelow
  have hposition := Element.position_of_getElem? hnode
  have hlt := Element.position_lt_position hmem hbelow (Element.lt_concat a k)
  refine ⟨by omega, ?_, ?_⟩
  · rw [h.size_eq]
    exact (List.getElem?_eq_some_iff.mp hat).1
  · rw [h.parentAt? hat, ← hposition]
    simp

theorem Lists.wellLinked (h : draft.Lists e)
    (hcurrent : (draft.childrenAt? draft.current).isSome) : draft.WellLinked := by
  have hroot : e.nodes[0]? = some ([], .element e) := rfl
  refine ⟨⟨h.parentAt? hroot, ?_⟩, ?_, ?_, hcurrent⟩
  · rw [h.childrenAt? hroot]
    rfl
  · intro i hpos hi
    exact h.exists_parent hpos hi
  · intro i children hi j hj
    exact h.of_mem_children hi hj

end Draft

end ContactCards
