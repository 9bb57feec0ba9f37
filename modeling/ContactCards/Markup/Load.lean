import ContactCards.Markup.Document
import ContactCards.Markup.Draft

/-!
Reading the root element of a document as a tree. Nothing after the end of the root is looked at,
and character data before its start is dropped.
-/

namespace ContactCards

/-- The root element as far as it has been read, and how many elements are open. -/
structure Loading where
  draft : Option Draft
  depth : Nat
  deriving DecidableEq, Repr

namespace Loading

def empty : Loading := ⟨none, 0⟩

def receive (loading : Loading) : Event → Loading × Flow
  | .start name attributes =>
    let draft := match loading.draft with
      | some draft => draft.openChild name attributes
      | none => Draft.start name attributes
    (⟨some draft, loading.depth + 1⟩, .more)
  | .characters s =>
    if 0 < loading.depth then (⟨loading.draft.map (·.addText s), loading.depth⟩, .more)
    else (loading, .more)
  | .finish =>
    if loading.depth ≤ 1 then (⟨loading.draft, 0⟩, .stop)
    else (⟨loading.draft.map Draft.closeChild, loading.depth - 1⟩, .more)

def sink : Sink Loading := ⟨receive⟩

end Loading

/-- The root element of a document. -/
def Element.ofTranscript (transcript : Transcript) : Except Fault Element :=
  match Loading.sink.play .empty transcript with
  | (_, some fault) => .error fault
  | (⟨some draft, _⟩, none) => .ok draft.finish
  | (⟨none, _⟩, none) => .error .noRoot

/-- The root element of a document given in bytes. -/
def Element.ofDocument (document : List UInt8) : Except Fault Element :=
  Element.ofTranscript (.ofDocument document)

/-- The root element of a document given as text. -/
def Element.parse (document : String) : Except Fault Element :=
  Element.ofDocument (Utf8.encode document)

end ContactCards
