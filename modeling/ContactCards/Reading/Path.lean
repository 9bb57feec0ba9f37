import ContactCards.Markup.Name

/-!
The path of open elements, from the outermost one.
-/

namespace ContactCards

/-- The names of the open elements, the outermost first. -/
structure Path where
  names : List ExpandedName
  deriving DecidableEq, Repr

namespace Path

def empty : Path := ⟨[]⟩

def push (path : Path) (name : ExpandedName) : Path :=
  ⟨path.names ++ [name]⟩

/-- Leaves the innermost element, if there is one. -/
def pop (path : Path) : Path :=
  ⟨path.names.dropLast⟩

def innermost? (path : Path) : Option ExpandedName :=
  path.names.getLast?

def depth (path : Path) : Nat :=
  path.names.length

def isEmpty (path : Path) : Bool :=
  path.names.isEmpty

/-- The open elements inside the outermost `depth` ones. -/
def below (path : Path) (depth : Nat) : List ExpandedName :=
  path.names.drop depth

/-- The path is exactly the given one. -/
def isAt (path : Path) (names : List ExpandedName) : Bool :=
  path.names == names

/-- The path is exactly `base` with `tail` inside it. -/
def isInside (path : Path) (base tail : List ExpandedName) : Bool :=
  path.names == base ++ tail

/-- The path leads through `base` and `tail` inside it, perhaps further. -/
def leadsThrough (path : Path) (base tail : List ExpandedName) : Bool :=
  (base ++ tail).isPrefixOf path.names

end Path

end ContactCards
