import ContactCards.Markup.AttributeList
import ContactCards.Markup.Name

/-!
Namespace declarations in scope. A declaration binds a label, or the empty label for names without
one; the innermost declaration of a label counts.
-/

namespace ContactCards

/-- A label bound to a namespace, both still in bytes and unexpanded. -/
structure Binding where
  label : List UInt8
  uri : List UInt8
  deriving DecidableEq, Repr

/-- The declarations in scope, innermost first. -/
abbrev Bindings := List Binding

namespace Bindings

/-- The labels bound in every document. -/
def reserved : Bindings :=
  [⟨Utf8.encode "xml", Utf8.encode xmlNamespace⟩,
    ⟨Utf8.encode "xmlns", Utf8.encode xmlnsNamespace⟩]

/-- The bytes before and after the first colon, if there is one. -/
def splitLabel (name : List UInt8) : Option (List UInt8) × List UInt8 :=
  match name.dropWhile (· != 58) with
  | [] => (none, name)
  | _ :: rest => (some (name.takeWhile (· != 58)), rest)

/-- The label that an attribute with this key declares: none without a colon after `xmlns`. -/
def declared? (key : List UInt8) : Option (Option (List UInt8)) :=
  match key with
  | [120, 109, 108, 110, 115] => some none
  | 120 :: 109 :: 108 :: 110 :: 115 :: 58 :: label => some (some label)
  | _ => none

/-- Adds a declaration that has a label. Reserved labels and namespaces stay with each other. -/
def declareLabel (bindings : Bindings) (label uri : List UInt8) : Except BindingFault Bindings :=
  if label = Utf8.encode "xml" then
    if uri = Utf8.encode xmlNamespace then .ok bindings else .error (.xmlRebound uri)
  else if label = Utf8.encode "xmlns" then .error (.xmlnsRebound uri)
  else if uri = Utf8.encode xmlNamespace then .error (.boundToXml label)
  else if uri = Utf8.encode xmlnsNamespace then .error (.boundToXmlns label)
  else .ok (⟨label, uri⟩ :: bindings)

/-- Adds what an attribute declares. -/
def declare (bindings : Bindings) (found : RawAttribute) : Except BindingFault Bindings :=
  match declared? found.key with
  | none => .ok bindings
  | some none => .ok (⟨[], found.value⟩ :: bindings)
  | some (some label) => bindings.declareLabel label found.value

/-- The namespace bound to a label. -/
def lookup (bindings : Bindings) (label : List UInt8) : Option (List UInt8) :=
  (bindings.find? (·.label == label)).map Binding.uri

/-- The namespace of an element with the given label. Without a label the default applies; a
label must be bound, and not to nothing. -/
def resolve (bindings : Bindings) (label : Option (List UInt8)) : Except Fault String :=
  match label with
  | none => (Utf8.decode ((bindings.lookup []).getD [])).mapError .namespaceEncoding
  | some label =>
    match label, (bindings.lookup label).getD [] with
    | [], _ => .error (.unboundLabel "")
    | _, [] => .error (.unboundLabel (Utf8.decodeLossy label))
    | _, uri => (Utf8.decode uri).mapError .namespaceEncoding

/-- The expanded name of an element. -/
def expand (bindings : Bindings) (rawName : List UInt8) : Except Fault ExpandedName := do
  let (label, localName) := splitLabel rawName
  let uri ← bindings.resolve label
  let localName ← (Utf8.decode localName).mapError Fault.encoding
  return ⟨uri, localName⟩

end Bindings

end ContactCards
