import ContactCards.Card.Parameter
import ContactCards.Markup.Name

/-!
The parameter block of a property. Each child of the block names a parameter, and each child of that
wraps one value. Places are given as the path below the block.
-/

namespace ContactCards

/-- The parameters read so far, and which parameter and which value are open. -/
structure ParameterBlock where
  parameters : Parameters
  name : Option ExpandedName
  wrapper : Option ExpandedName
  deriving DecidableEq, Repr

namespace ParameterBlock

def empty : ParameterBlock := ⟨.empty, none, none⟩

/-- An element starts, the last of the path. Elements outside the namespace of cards open
nothing. -/
def start (block : ParameterBlock) : List ExpandedName → ParameterBlock
  | [name] => if name.isCard then ⟨block.parameters, some name, none⟩ else block
  | [name, wrapper] =>
    if wrapper.isCard ∧ block.name = some name then ⟨block.parameters, block.name, some wrapper⟩
    else block
  | _ => block

/-- The last element of the path ends, `text` being the character data just before its end. -/
def finish (block : ParameterBlock) (path : List ExpandedName) (text : String) : ParameterBlock :=
  match path with
  | [name, wrapper] =>
    if block.wrapper = some wrapper ∧ block.name = some name then
      ⟨block.parameters.put name.localName text, block.name, none⟩
    else block
  | [name] => if block.name = some name then ⟨block.parameters, none, none⟩ else block
  | _ => block

end ParameterBlock

end ContactCards
