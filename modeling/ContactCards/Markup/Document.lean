import ContactCards.Markup.Binding
import ContactCards.Markup.Event

/-!
From tokens to events: tags are matched, names expanded, references and bytes read as text. The
attributes of an element are known by their local names, and declarations are not among them.
-/

namespace ContactCards

/-- An element that is open: its name as written and the declarations that hold inside it. -/
structure OpenElement where
  rawName : List UInt8
  bindings : Bindings
  deriving DecidableEq, Repr

/-- A place between two tokens: the open elements, innermost first, and whether there has been an
element at all. -/
structure Nesting where
  stack : List OpenElement
  rooted : Bool
  deriving DecidableEq, Repr

namespace Nesting

/-- The start of a document. -/
def empty : Nesting := ⟨[], false⟩

/-- The declarations that hold at a place. -/
def bindings (nesting : Nesting) : Bindings :=
  (nesting.stack.head?.map OpenElement.bindings).getD Bindings.reserved

/-- Reads one entry of an attribute list, unless it is a declaration. -/
def readAttribute (found : RawAttribute) : Except Fault (Option Attribute) :=
  match Bindings.declared? found.key with
  | some _ => .ok none
  | none => do
    let name ← (Utf8.decode (Bindings.splitLabel found.key).2).mapError Fault.encoding
    let value ← (Utf8.decode found.value).mapError Fault.valueEncoding
    let value ← (Reference.unescape value).mapError Fault.valueReference
    return some ⟨name, value⟩

/-- The attributes of a start tag. -/
def readAttributes (content : List UInt8) : Except Fault (List Attribute) := do
  let (entries, fault) := RawAttribute.scan true content
  let attributes ← entries.mapM readAttribute
  match fault with
  | some fault => throw (.attributes fault)
  | none => return attributes.filterMap id

/-- A start tag's content without the slash that closes the element at once, and whether there
was one. -/
def splitSlash (content : List UInt8) : List UInt8 × Bool :=
  if content.getLast? = some 47 then (content.dropLast, true) else (content, false)

/-- Opens an element. Its declarations come first: they are read up to the first entry that is
malformed, and decide its own name. -/
def openElement (nesting : Nesting) (content : List UInt8) :
    Except Fault (Nesting × List Event) := do
  let (content, closed) := splitSlash content
  let rawName := RawAttribute.nameOf content
  let bindings ← ((RawAttribute.scan false content).1.foldlM Bindings.declare
    nesting.bindings).mapError Fault.binding
  let name ← bindings.expand rawName
  let attributes ← readAttributes content
  if closed then
    return (⟨nesting.stack, true⟩, [.start name attributes, .finish])
  else
    return (⟨⟨rawName, bindings⟩ :: nesting.stack, true⟩, [.start name attributes])

/-- The name in an end tag: white space after it does not count, unless it is all there is. -/
def endName (content : List UInt8) : List UInt8 :=
  let name := (content.reverse.dropWhile isMarkupSpace).reverse
  if name.isEmpty then content else name

/-- A name as text, or no text if it is not UTF-8. -/
def showName (rawName : List UInt8) : String :=
  (Utf8.decode rawName).toOption.getD ""

/-- Closes the innermost element, whose name the end tag must repeat byte for byte. -/
def closeElement (nesting : Nesting) (content : List UInt8) :
    Except Fault (Nesting × List Event) :=
  let name := endName content
  match nesting.stack with
  | [] => .error (.structural (.endUnmatched (showName name)))
  | innermost :: outer =>
    if name = innermost.rawName then .ok (⟨outer, nesting.rooted⟩, [.finish])
    else .error (.structural (.endMismatch (showName innermost.rawName) (showName name)))

/-- Reads a token: the place after it, and its events. -/
def step (nesting : Nesting) : Token → Except Fault (Nesting × List Event)
  | .text bytes | .cdata bytes => do
    return (nesting, [.characters (← (Utf8.decode bytes).mapError Fault.encoding)])
  | .reference bytes => do
    let name ← (Utf8.decode bytes).mapError Fault.encoding
    match Reference.expand name with
    | some c => return (nesting, [.characters c.toString])
    | none => throw (.unknownReference name)
  | .startTag content => nesting.openElement content
  | .endTag content => nesting.closeElement content

/-- What is wrong with a document that ends at a place. -/
def endFault (nesting : Nesting) : Option Fault :=
  if 0 < nesting.stack.length then some (.unexpectedEnd nesting.stack.length)
  else if nesting.rooted then none
  else some .noRoot

/-- Reads the tokens that are left, `fault` coming after them. Events found before come in
reverse. -/
def run (nesting : Nesting) (found : List Event) (fault : Option Fault) :
    List Token → Transcript
  | [] => ⟨found.reverse, fault.or nesting.endFault⟩
  | token :: tokens =>
    match nesting.step token with
    | .ok (nesting, events) => nesting.run (events.reverse ++ found) fault tokens
    | .error fault => ⟨found.reverse, some fault⟩

end Nesting

/-- The events of a document. -/
def Transcript.ofDocument (document : List UInt8) : Transcript :=
  let (tokens, fault) := Token.scan document
  Nesting.empty.run [] fault tokens

/-- The events of a document that cannot be read any further, for a reason, behind some bytes. -/
def Transcript.ofInterrupted (document : List UInt8) (reason : String) : Transcript :=
  let (tokens, fault) := Token.scanInterrupted reason document
  Nesting.empty.run [] fault tokens

end ContactCards
