/-!
Expanded names: a local name together with the namespace it belongs to.
-/

namespace ContactCards

/-- The namespace of cards written in XML (RFC 6351). -/
def cardNamespace : String := "urn:ietf:params:xml:ns:vcard-4.0"

/-- A local name in a namespace; the empty URI means no namespace. -/
structure ExpandedName where
  uri : String
  localName : String
  deriving DecidableEq, Repr, Inhabited

namespace ExpandedName

/-- A name in the namespace of cards. -/
def card (localName : String) : ExpandedName :=
  ⟨cardNamespace, localName⟩

def isCard (name : ExpandedName) : Bool :=
  name.uri == cardNamespace

def hasNoNamespace (name : ExpandedName) : Bool :=
  name.uri == ""

/-- The name with its namespace in braces before it. -/
def display (name : ExpandedName) : String :=
  "\x7b" ++ name.uri ++ "\x7d" ++ name.localName

/-- The collection of cards. -/
def vcards : ExpandedName := card "vcards"

/-- One card. -/
def vcard : ExpandedName := card "vcard"

/-- A group of properties. -/
def group : ExpandedName := card "group"

/-- The parameter block of a property. -/
def parameters : ExpandedName := card "parameters"

end ExpandedName

end ContactCards
