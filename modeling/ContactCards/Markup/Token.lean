import ContactCards.Markup.Doctype
import ContactCards.Markup.Fault

/-!
The tokens of a document, found byte by byte. A lexer is the place between two bytes; what it holds
of an unfinished token is kept in reverse. Comments, processing instructions and declarations give
no token.
-/

namespace ContactCards

/-- A piece of a document, still in bytes and without its delimiters. -/
inductive Token where
  | text (bytes : List UInt8)
  | cdata (bytes : List UInt8)
  | reference (name : List UInt8)
  | startTag (content : List UInt8)
  | endTag (content : List UInt8)
  deriving DecidableEq, Repr

/-- White space inside markup. -/
def isMarkupSpace (b : UInt8) : Bool :=
  b == 32 || b == 9 || b == 10 || b == 13

/-- A place between two bytes of a document. -/
inductive Lexer where
  | text (held : List UInt8)
  | reference (held : List UInt8)
  | markup
  | tag (quote : Option UInt8) (held : List UInt8)
  | bang
  | comment (held : List UInt8)
  | cdata (held : List UInt8)
  | doctype (place : Doctype) (held : List UInt8)
  | instruction (held : List UInt8)
  deriving DecidableEq, Repr

namespace Lexer

/-- The text token of the bytes held, if there are any. -/
def flush (held : List UInt8) : List Token :=
  if held.isEmpty then [] else [.text held.reverse]

/-- The token of a tag with the given content, a slash first if it is an end tag. -/
def tagToken : List UInt8 → Token
  | 47 :: content => .endTag content
  | content => .startTag content

/-- Reads a byte of a tag. Quotes hide the end of the tag, in end tags too. -/
def stepTag (quote : Option UInt8) (held : List UInt8) (b : UInt8) : Lexer × List Token :=
  match quote with
  | none => if b = 62 then (text [], [tagToken held.reverse]) else
    (tag (if b = 34 ∨ b = 39 then some b else none) (b :: held), [])
  | some q => (tag (if b = q then none else some q) (b :: held), [])

/-- Reads a byte of a comment, which needs both its dashes at either end. -/
def stepComment (held : List UInt8) (b : UInt8) : Except Fault (Lexer × List Token) :=
  if b = 62 ∧ 4 ≤ held.length ∧ held.take 2 = [45, 45] then
    if held.reverse.take 2 = [45, 45] then .ok (text [], []) else .error (.lexical .commentOpen)
  else .ok (comment (b :: held), [])

/-- The bytes `[CDATA[`. -/
def cdataOpening : List UInt8 := [91, 67, 68, 65, 84, 65, 91]

/-- Reads a byte of a character data section, which ends at `]]>`. -/
def stepCdata (held : List UInt8) (b : UInt8) : Except Fault (Lexer × List Token) :=
  if b = 62 ∧ held.take 2 = [93, 93] then
    let content := (held.drop 2).reverse
    if cdataOpening.isPrefixOf content then
      .ok (text [], [.cdata (content.drop cdataOpening.length)])
    else .error (.lexical .cdataOpen)
  else .ok (cdata (b :: held), [])

/-- The bytes `DOCTYPE`, in upper case. -/
def doctypeOpening : List UInt8 := [68, 79, 67, 84, 89, 80, 69]

/-- An ASCII letter in upper case. -/
def upperByte (b : UInt8) : UInt8 :=
  if 97 ≤ b ∧ b ≤ 122 then b - 32 else b

/-- Ends a document type declaration, which has to name the document type. -/
def endDoctype (content : List UInt8) : Except Fault (Lexer × List Token) :=
  if (content.take doctypeOpening.length).map upperByte ≠ doctypeOpening then
    .error (.lexical .doctypeOpen)
  else if (content.drop doctypeOpening.length).all isMarkupSpace then
    .error (.structural .doctypeUnnamed)
  else .ok (text [], [])

/-- Reads a byte of a processing instruction, the question mark it starts with included. -/
def stepInstruction (held : List UInt8) (b : UInt8) : Except Fault (Lexer × List Token) :=
  if b = 62 ∧ held.head? = some 63 then
    if held.length = 1 then .error (.lexical .instructionOpen) else .ok (text [], [])
  else .ok (instruction (b :: held), [])

/-- Reads a byte: the place after it, and the tokens it completes. -/
def step (lexer : Lexer) (b : UInt8) : Except Fault (Lexer × List Token) :=
  match lexer with
  | text held =>
    if b = 60 then .ok (markup, flush held)
    else if b = 38 then .ok (reference [], flush held)
    else .ok (text (b :: held), [])
  | reference held =>
    if b = 59 then .ok (text [], [.reference held.reverse])
    else if b = 38 ∨ b = 60 then .error (.structural .referenceOpen)
    else .ok (reference (b :: held), [])
  | markup =>
    if b = 33 then .ok (bang, [])
    else if b = 63 then .ok (instruction [b], [])
    else .ok (stepTag none [] b)
  | tag quote held => .ok (stepTag quote held b)
  | bang =>
    if b = 45 then .ok (comment [b], [])
    else if b = 91 then .ok (cdata [b], [])
    else if b = 68 ∨ b = 100 then .ok (doctype (.header none) [b], [])
    else .error (.lexical .unknownMarkup)
  | comment held => stepComment held b
  | cdata held => stepCdata held b
  | doctype place held =>
    match place.step b with
    | some place => .ok (doctype place (b :: held), [])
    | none => endDoctype held.reverse
  | instruction held => stepInstruction held b

/-- Whether an instruction that is never closed is the declaration of the document. -/
def isDeclaration : List UInt8 → Bool
  | 63 :: 120 :: 109 :: 108 :: b :: _ => isMarkupSpace b || b == 63
  | _ => false

/-- The end of the document: the last token, or what is left unfinished. -/
def finish : Lexer → Except Fault (List Token)
  | text held => .ok (flush held)
  | reference _ => .error (.structural .referenceOpen)
  | markup => .error (.lexical .tagOpen)
  | tag none _ => .error (.lexical .tagOpen)
  | tag (some q) _ => .error (.lexical (.quoteOpen (Char.ofNat q.toNat)))
  | bang => .error (.lexical .unknownMarkup)
  | comment _ => .error (.lexical .commentOpen)
  | cdata _ => .error (.lexical .cdataOpen)
  | doctype .. => .error (.lexical .doctypeOpen)
  | instruction held =>
    .error (.lexical (if isDeclaration held.reverse then .declarationOpen else .instructionOpen))

/-- Reads bytes up to the first fault. The tokens found before come in reverse, and so do those that
are given back. -/
def advance (lexer : Lexer) (found : List Token) :
    List UInt8 → Except (List Token × Fault) (Lexer × List Token)
  | [] => .ok (lexer, found)
  | b :: bs =>
    match lexer.step b with
    | .ok (lexer, tokens) => advance lexer (tokens.reverse ++ found) bs
    | .error fault => .error (found, fault)

/-- Reads bytes up to the end of the document or the first fault. The tokens found before come in
reverse. -/
def run (lexer : Lexer) (found : List Token) (bs : List UInt8) : List Token × Option Fault :=
  match lexer.advance found bs with
  | .error (found, fault) => (found.reverse, some fault)
  | .ok (lexer, found) =>
    match lexer.finish with
    | .ok tokens => (found.reverse ++ tokens, none)
    | .error fault => (found.reverse, some fault)

/-- Reads bytes that end before the document does. They are cut off anywhere, so what is unfinished
there is no token. -/
def runInterrupted (reason : String) (lexer : Lexer) (bs : List UInt8) :
    List Token × Option Fault :=
  match lexer.advance [] bs with
  | .error (found, fault) => (found.reverse, some fault)
  | .ok (_, found) => (found.reverse, some (.lexical (.interrupted reason)))

theorem run_nil (lexer : Lexer) (found : List Token) :
    lexer.run found [] =
      match lexer.finish with
      | .ok tokens => (found.reverse ++ tokens, none)
      | .error fault => (found.reverse, some fault) := rfl

theorem run_cons (lexer : Lexer) (found : List Token) (b : UInt8) (bs : List UInt8) :
    lexer.run found (b :: bs) =
      match lexer.step b with
      | .ok (lexer, tokens) => lexer.run (tokens.reverse ++ found) bs
      | .error fault => (found.reverse, some fault) := by
  rw [run, advance]
  cases lexer.step b <;> rfl

end Lexer

/-- The bytes that may mark the start of a document as UTF-8. -/
def byteOrderMark : List UInt8 := [0xEF, 0xBB, 0xBF]

namespace Token

/-- A document without the mark of its encoding. -/
def unmarked (document : List UInt8) : List UInt8 :=
  if byteOrderMark.isPrefixOf document then document.drop byteOrderMark.length else document

/-- The tokens of a document, and the fault that ends them, if one does. -/
def scan (document : List UInt8) : List Token × Option Fault :=
  Lexer.run (.text []) [] (unmarked document)

/-- The tokens of a document that cannot be read any further, for a reason, behind some bytes, and
the fault that ends them. -/
def scanInterrupted (reason : String) (document : List UInt8) : List Token × Option Fault :=
  Lexer.runInterrupted reason (.text []) (unmarked document)

end Token

end ContactCards
