import ContactCards.Markup.Reference
import ContactCards.Text.Utf8

/-!
Everything that can be wrong with a document, each fault with its text and the chain of texts from
the outermost view of it to its innermost cause.
-/

namespace ContactCards

/-- Markup that the document leaves unfinished, or that starts like no markup, or bytes that cannot
be read any further. -/
inductive LexicalFault where
  | unknownMarkup
  | tagOpen
  | quoteOpen (quote : Char)
  | commentOpen
  | cdataOpen
  | doctypeOpen
  | instructionOpen
  | declarationOpen
  | interrupted (reason : String)
  deriving DecidableEq, Repr

def LexicalFault.message : LexicalFault → String
  | .unknownMarkup => "unknown or missed symbol in markup"
  | .tagOpen => "tag not closed: `>` not found before end of input"
  | .quoteOpen quote =>
    "attribute value not closed: `" ++ quote.toString ++ "` not found before end of input"
  | .commentOpen => "comment not closed: `-->` not found before end of input"
  | .cdataOpen => "CDATA not closed: `]]>` not found before end of input"
  | .doctypeOpen => "DOCTYPE not closed: `>` not found before end of input"
  | .instructionOpen => "processing instruction not closed: `?>` not found before end of input"
  | .declarationOpen => "XML declaration not closed: `?>` not found before end of input"
  | .interrupted reason => reason

/-- What stands before the message, seen from outside. -/
def LexicalFault.heading : LexicalFault → String
  | .interrupted _ => "I/O error: "
  | _ => "syntax error: "

/-- Finished markup that has no place where it stands. -/
inductive StructureFault where
  | referenceOpen
  | doctypeUnnamed
  | endMismatch (expected found : String)
  | endUnmatched (found : String)
  deriving DecidableEq, Repr

def StructureFault.message : StructureFault → String
  | .referenceOpen =>
    "entity or character reference not closed: `;` not found before end of input"
  | .doctypeUnnamed => "`<!DOCTYPE>` declaration does not contain a name of a document type"
  | .endMismatch expected found =>
    "expected `</" ++ expected ++ ">`, but `</" ++ found ++ ">` was found"
  | .endUnmatched found => "close tag `</" ++ found ++ ">` does not match any open tag"

/-- An attribute list that cannot be read. Positions are bytes from the start of the tag's name. -/
inductive AttributeFault where
  | equalsMissing (position : Nat)
  | valueMissing (position : Nat)
  | valueUnquoted (position : Nat)
  | quoteMissing (position : Nat) (quote : Char)
  | repeated (position earlier : Nat)
  deriving DecidableEq, Repr

def AttributeFault.message : AttributeFault → String
  | .equalsMissing position =>
    s!"position {position}: attribute key must be directly followed by `=` or space"
  | .valueMissing position =>
    s!"position {position}: `=` must be followed by an attribute value"
  | .valueUnquoted position =>
    s!"position {position}: attribute value must be enclosed in `\"` or `'`"
  | .quoteMissing position quote =>
    s!"position {position}: missing closing quote `{quote}` in attribute value"
  | .repeated position earlier =>
    s!"position {position}: duplicated attribute, previous declaration at position {earlier}"

/-- A namespace declaration that touches a reserved name. -/
inductive BindingFault where
  | xmlRebound (uri : List UInt8)
  | xmlnsRebound (uri : List UInt8)
  | boundToXml (label : List UInt8)
  | boundToXmlns (label : List UInt8)
  deriving DecidableEq, Repr

/-- Two hexadecimal digits at most, in upper case. -/
def upperHex (b : UInt8) : String :=
  upperDigits (Nat.toDigits 16 b.toNat)
where
  upperDigits (cs : List Char) : String := String.ofList (cs.map Char.toUpper)

/-- Bytes between quotes: printable ASCII as it is, a quote after a backslash, the rest in hex. -/
def quotedBytes (bytes : List UInt8) : String :=
  "\"" ++ String.join (bytes.map quoted) ++ "\""
where
  quoted (b : UInt8) : String :=
    if b = 34 then "\\\""
    else if 32 ≤ b ∧ b ≤ 126 then (Char.ofNat b.toNat).toString
    else "0x" ++ upperHex b

/-- The namespace that the label `xml` always has. -/
def xmlNamespace : String := "http://www.w3.org/XML/1998/namespace"

/-- The namespace that the label `xmlns` always has. -/
def xmlnsNamespace : String := "http://www.w3.org/2000/xmlns/"

def BindingFault.message : BindingFault → String
  | .xmlRebound uri => "the namespace prefix 'xml' cannot be bound to '" ++ quotedBytes uri ++ "'"
  | .xmlnsRebound uri =>
    "the namespace prefix 'xmlns' cannot be bound to '" ++ quotedBytes uri ++ "'"
  | .boundToXml label =>
    "the namespace prefix '" ++ quotedBytes label ++ "' cannot be bound to '" ++ xmlNamespace ++ "'"
  | .boundToXmlns label =>
    "the namespace prefix '" ++ quotedBytes label ++ "' cannot be bound to '" ++
      xmlnsNamespace ++ "'"

/-- The text of a piece of a document that is not UTF-8. -/
def undecodable (m : Utf8.Malformed) : String :=
  "cannot decode input using UTF-8: " ++ m.message

/-- Why reading a document stops before its end. -/
inductive Fault where
  | lexical (fault : LexicalFault)
  | structural (fault : StructureFault)
  | binding (fault : BindingFault)
  | valueEncoding (fault : Utf8.Malformed)
  | valueReference (fault : Reference.Fault)
  | attributes (fault : AttributeFault)
  | encoding (fault : Utf8.Malformed)
  | namespaceEncoding (fault : Utf8.Malformed)
  | unknownReference (name : String)
  | unboundLabel (label : String)
  | noRoot
  | unexpectedEnd (depth : Nat)
  deriving DecidableEq, Repr

namespace Fault

/-- The fault itself and its causes, outermost first. -/
def chain : Fault → List String
  | lexical fault => layered (fault.heading ++ fault.message) [fault.message]
  | structural fault => layered ("ill-formed document: " ++ fault.message) [fault.message]
  | binding fault => layered fault.message [fault.message]
  | valueEncoding fault => layered (undecodable fault) [undecodable fault, fault.message]
  | valueReference fault => layered fault.message fault.chain
  | attributes fault => ["XML attribute error: " ++ fault.message, fault.message]
  | encoding fault =>
    ["encoding error: " ++ undecodable fault, undecodable fault, fault.message]
  | namespaceEncoding fault => ["invalid UTF-8: " ++ fault.message, fault.message]
  | unknownReference name => ["unknown entity reference: &" ++ name ++ ";"]
  | unboundLabel label => ["unbound namespace prefix in element: " ++ label]
  | noRoot => ["document has no root element"]
  | unexpectedEnd depth =>
    ["unexpected end of input with " ++ toString depth ++ " element(s) still open"]
where
  /-- A fault of the markup, seen from outside, itself, and its causes. -/
  layered (outer : String) (causes : List String) : List String :=
    ("XML error: " ++ outer) :: outer :: causes

/-- The text of a fault. -/
def message (fault : Fault) : String :=
  fault.chain.headD ""

end Fault

end ContactCards
