/-!
Skipping a document type declaration. Only its extent matters: quotes hide the end of it, and an
internal subset in brackets holds markup of its own, whose brackets and ends do not count.
-/

namespace ContactCards

/-- Where a reader stands inside a document type declaration. -/
inductive Doctype where
  /-- Before the internal subset, perhaps inside quotes. -/
  | header (quote : Option UInt8)
  /-- In the internal subset, between its declarations. -/
  | subset
  /-- After `<` in the subset, with the bytes read since. -/
  | undecided (seen : List UInt8)
  /-- In a comment of the subset, with the number of dashes just read, two at most. -/
  | comment (dashes : Nat)
  /-- In a processing instruction of the subset, and whether a question mark was just read. -/
  | instruction (mark : Bool)
  /-- In a declaration in which quotes hide its end. -/
  | declaration (quote : Option UInt8)
  /-- In markup that ends at the next `>` whatever comes before. -/
  | plain
  /-- After the internal subset. -/
  | footer
  deriving DecidableEq, Repr

namespace Doctype

/-- Reads a byte where quotes hide what they enclose. -/
def quoteAfter (quote : Option UInt8) (b : UInt8) : Option UInt8 :=
  match quote with
  | none => if b = 34 ∨ b = 39 then some b else none
  | some q => if b = q then none else some q

/-- What markup of the internal subset is, from the bytes after its `<`. -/
def classify : List UInt8 → Option Doctype
  | [] => none
  | [33] => none
  | [33, 45] => none
  | [33, 69] => none
  | 63 :: _ => some (instruction false)
  | 33 :: 45 :: 45 :: _ => some (comment 0)
  | 33 :: 69 :: 78 :: _ => some (declaration none)
  | 33 :: 65 :: _ => some (declaration none)
  | 33 :: 78 :: _ => some (declaration none)
  | _ => some plain

/-- Reads a byte; there is no next place once the declaration is over. -/
def step : Doctype → UInt8 → Option Doctype
  | header none, 62 => none
  | header none, 91 => some subset
  | header quote, b => some (header (quoteAfter quote b))
  | subset, 93 => some footer
  | subset, 60 => some (undecided [])
  | subset, _ => some subset
  | undecided _, 62 => some subset
  | undecided seen, b => some ((classify (seen ++ [b])).getD (undecided (seen ++ [b])))
  | comment dashes, b =>
    if b = 45 then some (comment (min 2 (dashes + 1)))
    else if b = 62 ∧ dashes = 2 then some subset
    else some (comment 0)
  | instruction mark, b => if b = 62 ∧ mark then some subset else some (instruction (b = 63))
  | declaration none, 62 => some subset
  | declaration quote, b => some (declaration (quoteAfter quote b))
  | plain, 62 => some subset
  | plain, _ => some plain
  | footer, 62 => none
  | footer, _ => some footer

end Doctype

end ContactCards
