import ContactCards.Markup.Element

/-!
Elements that grow event by event. A draft lists its nodes in a table: each row knows the row of its
parent and each element the rows of its children, and one element is current. Growing a draft never
walks the tree.
-/

namespace ContactCards

/-- A node of a draft, its children given by their rows. -/
inductive DraftNode where
  | text (text : String)
  | element (name : ExpandedName) (attributes : List Attribute) (children : Array Nat)
  deriving DecidableEq, Repr

structure DraftRow where
  parent : Option Nat
  node : DraftNode
  deriving DecidableEq, Repr

/-- An element under construction. The root stands in row 0. -/
structure Draft where
  rows : Array DraftRow
  current : Nat
  deriving DecidableEq, Repr

namespace Draft

/-- A draft of an element without content. -/
def start (name : ExpandedName) (attributes : List Attribute) : Draft :=
  ⟨#[⟨none, .element name attributes #[]⟩], 0⟩

/-- The rows of the current element's children. -/
def currentChildren (draft : Draft) : Array Nat :=
  match draft.rows[draft.current]? with
  | some ⟨_, .element _ _ children⟩ => children
  | _ => #[]

/-- The table with one more child for the element in row `i`. -/
def linkChild (rows : Array DraftRow) (i child : Nat) : Array DraftRow :=
  rows.modify i fun
    | ⟨parent, .element name attributes children⟩ =>
      ⟨parent, .element name attributes (children.push child)⟩
    | row => row

/-- Adds a node as the last child of the current element. -/
def addNode (draft : Draft) (node : DraftNode) : Draft :=
  ⟨(linkChild draft.rows draft.current draft.rows.size).push ⟨some draft.current, node⟩,
    draft.current⟩

/-- The table with the text in row `i` extended. -/
def extendText (rows : Array DraftRow) (i : Nat) (s : String) : Array DraftRow :=
  rows.modify i fun
    | ⟨parent, .text t⟩ => ⟨parent, .text (t ++ s)⟩
    | row => row

/-- The row of the current element's last child, if that is a text. -/
def lastText? (draft : Draft) : Option Nat :=
  draft.currentChildren.back?.filter fun i =>
    match draft.rows[i]? with
    | some ⟨_, .text _⟩ => true
    | _ => false

/-- Adds character data to the current element. Empty data adds nothing, and data that follows a
text extends it. -/
def addText (draft : Draft) (s : String) : Draft :=
  if s.isEmpty then draft
  else match draft.lastText? with
    | some i => ⟨extendText draft.rows i s, draft.current⟩
    | none => draft.addNode (.text s)

/-- Adds a child element and makes it current. -/
def openChild (draft : Draft) (name : ExpandedName) (attributes : List Attribute) : Draft :=
  ⟨(draft.addNode (.element name attributes #[])).rows, draft.rows.size⟩

/-- Makes the parent of the current element current. The root stays current. -/
def closeChild (draft : Draft) : Draft :=
  match draft.rows[draft.current]? with
  | some ⟨some parent, _⟩ => ⟨draft.rows, parent⟩
  | _ => draft

/-- The content that the given rows list. Children stand below their parents, so rows that do
not are none. -/
def collect (rows : Array DraftRow) (parent : Nat) : List Nat → Content
  | [] => .empty
  | i :: is =>
    if _h : parent < i ∧ i < rows.size then
      match rows[i].node with
      | .text s => .text s (collect rows parent is)
      | .element name attributes children =>
        .element name attributes (collect rows i children.toList) (collect rows parent is)
    else collect rows parent is
termination_by is => (rows.size - parent, is.length)

/-- The element that a draft has become. -/
def finish (draft : Draft) : Element :=
  match draft.rows[0]?.map DraftRow.node with
  | some (.element name attributes children) =>
    ⟨name, attributes, collect draft.rows 0 children.toList⟩
  | _ => ⟨⟨"", ""⟩, [], .empty⟩

end Draft

end ContactCards
