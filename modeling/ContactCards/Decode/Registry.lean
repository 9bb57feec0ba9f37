import ContactCards.Decode.Decoder
import ContactCards.Text.Quoted

/-!
Registries: which decoder reads which elements. At most one decoder is registered for a name.
-/

namespace ContactCards

/-- Decoders by the name of the elements they read. -/
structure Registry where
  decoders : List Decoder

namespace Registry

def empty : Registry := ⟨[]⟩

/-- The decoder registered for a name. -/
def get? (r : Registry) (name : ExpandedName) : Option Decoder :=
  r.decoders.find? (·.element == name)

/-- There is a decoder that reads elements of a name. -/
def contains (r : Registry) (name : ExpandedName) : Bool :=
  r.decoders.any (·.element == name)

/-- Removes the decoder registered for a name. -/
def unregister (r : Registry) (name : ExpandedName) : Registry :=
  ⟨r.decoders.filter (·.element != name)⟩

/-- Registers a decoder for the name it reads, in place of any other. -/
def register (r : Registry) (d : Decoder) : Registry :=
  ⟨(r.unregister d.element).decoders ++ [d]⟩

def size (r : Registry) : Nat :=
  r.decoders.length

def ofDecoders (ds : List Decoder) : Registry :=
  ds.foldl register empty

/-- The decoders of the properties of RFC 6350. -/
def standardDecoders : List Decoder :=
  [("fn", "FN"), ("note", "NOTE"), ("title", "TITLE"), ("role", "ROLE"), ("prodid", "PRODID"),
    ("kind", "KIND"), ("email", "EMAIL")].map (fun (e, n) => Decoder.text e n) ++
  [("uid", "UID"), ("tel", "TEL"), ("key", "KEY"), ("related", "RELATED")].map
    (fun (e, n) => Decoder.uriOrText e n) ++
  [("url", "URL"), ("photo", "PHOTO"), ("logo", "LOGO"), ("sound", "SOUND"), ("impp", "IMPP"),
    ("member", "MEMBER"), ("source", "SOURCE"), ("fburl", "FBURL"), ("caluri", "CALURI"),
    ("caladruri", "CALADRURI"), ("geo", "GEO")].map (fun (e, n) => Decoder.uri e n) ++
  [.single "tz" "TZ" [.text, .uri, .utcOffset], .single "lang" "LANG" [.languageTag],
    .textList "nickname" "NICKNAME", .textList "categories" "CATEGORIES",
    .personName, .address, .organization, .gender,
    .date "bday" "BDAY", .date "anniversary" "ANNIVERSARY", .revision]

/-- The registry of the properties of RFC 6350. -/
def standard : Registry :=
  ofDecoders standardDecoders

/-- The local names that have a decoder, sorted by code point. -/
def localNames (r : Registry) : List String :=
  (r.decoders.map (·.element.localName)).mergeSort

/-- A registry as text. -/
def describe (r : Registry) : String :=
  let names := ", ".intercalate (r.localNames.map quoted)
  "ScribeIndex \x7b scribes: [" ++ names ++ "] \x7d"

end Registry

end ContactCards
