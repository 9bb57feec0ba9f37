import ContactCards.Proofs.Markup.Completion
import ContactCards.Proofs.Markup.AttributeScan
import ContactCards.Proofs.Markup.WellNamed

/-! A start tag that was written opens the element that it was written for, if that can be written
at all. -/
namespace ContactCards

variable {outer : Option String} {name : ExpandedName} {attributes : List Attribute}
  {bindings inside : Bindings} {nesting : Nesting} {entries : List RawAttribute} {s : String}

/-- What an attribute is written as. -/
def Attribute.pair (a : Attribute) : List UInt8 × List UInt8 :=
  (Utf8.encode a.name, Utf8.encode (Reference.escape a.value))

/-- What the declaration is written as that an element needs inside the namespace `outer`. -/
def declaredPair? (outer : Option String) (uri : String) : List (List UInt8 × List UInt8) :=
  if outer.getD "" = uri then []
  else [(Utf8.encode "xmlns", Utf8.encode (Reference.escape uri))]

/-- The list of a start tag. -/
def tagPairs (outer : Option String) (name : ExpandedName) (attributes : List Attribute) :
    List (List UInt8 × List UInt8) :=
  declaredPair? outer name.uri ++ attributes.map Attribute.pair

section Results

variable {ε δ α : Type} {f : ε → δ} {a : α}

theorem mapError_ok : (Except.ok a).mapError f = .ok a := rfl

theorem ok_of_mapError {result : Except ε α} (h : result.mapError f = .ok a) : result = .ok a := by
  cases result with
  | error fault => cases h
  | ok found =>
    cases h
    rfl

end Results

section Writing

theorem encode_render (a : Attribute) :
    Utf8.encode a.render = RawAttribute.written a.pair := by
  have hspace : Utf8.encode " " = [32] := rfl
  have hequals : Utf8.encode "=" = [61] := rfl
  have hquote : Utf8.encode "\"" = [34] := rfl
  simp only [Attribute.render, quotedValue, Utf8.encode_append, hspace, hequals, hquote,
    RawAttribute.written, Attribute.pair]
  simp

theorem encode_namespaceDeclaration (outer : Option String) (uri : String) :
    Utf8.encode (namespaceDeclaration outer uri) =
      (declaredPair? outer uri).flatMap RawAttribute.written := by
  have hopening : Utf8.encode " xmlns=" = 32 :: (Utf8.encode "xmlns" ++ [61]) := rfl
  have hquote : Utf8.encode "\"" = [34] := rfl
  have hsame : (outer = some uri ∨ outer = none ∧ uri = "") ↔ outer.getD "" = uri := by
    cases outer <;> simp [eq_comm]
  by_cases huri : outer.getD "" = uri
  · rw [namespaceDeclaration, if_pos (hsame.mpr huri), declaredPair?, if_pos huri]
    rfl
  · rw [namespaceDeclaration, if_neg (mt hsame.mp huri), declaredPair?, if_neg huri]
    simp only [quotedValue, Utf8.encode_append, hopening, hquote]
    simp [RawAttribute.written]

theorem encode_join (ss : List String) :
    Utf8.encode (String.join ss) = ss.flatMap Utf8.encode := by
  rw [Utf8.encode, String.toList_join, List.flatMap_assoc]
  rfl

theorem encode_openingTag (outer : Option String) (name : ExpandedName)
    (attributes : List Attribute) :
    Utf8.encode (openingTag outer name attributes) =
      Utf8.encode name.localName ++
        (tagPairs outer name attributes).flatMap RawAttribute.written := by
  have hattributes : (attributes.map Attribute.render).flatMap Utf8.encode =
      (attributes.map Attribute.pair).flatMap RawAttribute.written := by
    simp only [List.flatMap_map, encode_render]
  rw [openingTag, Utf8.encode_append, Utf8.encode_append, encode_namespaceDeclaration,
    encode_join, hattributes, tagPairs, List.flatMap_append, List.append_assoc]

theorem quote_notMem_encode (value : String) :
    ∀ b ∈ Utf8.encode (Reference.escape value), b ≠ 34 := by
  rintro b hb rfl
  exact Reference.quote_notMem_escape value (Utf8.ofNat_mem_of_mem_encode hb (by decide))

/-- The entries of the list can be written. -/
theorem isPlain_of_mem (outer : Option String) (h : NamedTag name attributes) :
    ∀ pair ∈ tagPairs outer name attributes, RawAttribute.IsPlain pair := by
  have hplain (key value : String) (hkey : isNcName key) : RawAttribute.IsPlain
      (Utf8.encode key, Utf8.encode (Reference.escape value)) :=
    ⟨encode_name_ne_nil hkey, fun _ hb => notMem_tagBytes hkey hb, quote_notMem_encode value⟩
  intro pair hpair
  rcases List.mem_append.mp hpair with hpair | hpair
  · rw [declaredPair?] at hpair
    split at hpair
    · cases hpair
    · rw [List.mem_singleton.mp hpair]
      exact hplain "xmlns" name.uri (by decide)
  · obtain ⟨a, ha, rfl⟩ := List.mem_map.mp hpair
    exact hplain a.name a.value (h.named a ha)

theorem nodup_keys (attributes : List Attribute) :
    ((attributes.map Attribute.pair).map Prod.fst).Nodup ↔
      (attributes.map Attribute.name).Nodup := by
  simp only [List.Nodup, List.pairwise_map, Attribute.pair]
  constructor
  · exact fun hkeys => hkeys.imp fun hne he => hne (congrArg Utf8.encode he)
  · exact fun hnames => hnames.imp fun hne he => hne (Utf8.encode_injective he)

/-- No key comes twice in the list of a tag that can be written. -/
theorem nodup_tagPairs (outer : Option String) (h : WellNamedTag name attributes) :
    ((tagPairs outer name attributes).map Prod.fst).Nodup := by
  have hattributes := (nodup_keys attributes).mpr h.distinct
  rw [tagPairs, declaredPair?]
  split
  · exact hattributes
  · rw [List.singleton_append, List.map_cons, List.nodup_cons]
    refine ⟨?_, hattributes⟩
    rw [List.map_map]
    intro hmem
    obtain ⟨a, ha, he⟩ := List.mem_map.mp hmem
    exact h.noDeclaration a ha (Utf8.encode_injective he)

/-- A start tag that was written does not look closed. -/
theorem getLast?_openingTag (outer : Option String) (h : NamedTag name attributes) :
    (Utf8.encode (openingTag outer name attributes)).getLast? ≠ some 47 := by
  rw [encode_openingTag]
  intro hlast
  rcases List.eq_nil_or_concat (tagPairs outer name attributes) with hnil | ⟨pairs, pair, hpairs⟩
  · rw [hnil, List.flatMap_nil, List.append_nil] at hlast
    exact notMem_tagBytes h.localName (List.mem_of_getLast? hlast) (by decide)
  · have hwritten : RawAttribute.written pair =
        32 :: (pair.1 ++ 61 :: 34 :: pair.2) ++ [34] := by simp [RawAttribute.written]
    rw [hpairs, List.concat_eq_append, List.flatMap_append, List.flatMap_singleton, hwritten,
      ← List.append_assoc, ← List.append_assoc, List.getLast?_concat] at hlast
    cases hlast

/-- What the list of a start tag is read as. -/
theorem scan_openingTag (outer : Option String) (distinct : Bool) (h : NamedTag name attributes) :
    RawAttribute.nameOf (Utf8.encode (openingTag outer name attributes)) =
        Utf8.encode name.localName ∧
      ∃ entries fault,
        RawAttribute.scan distinct (Utf8.encode (openingTag outer name attributes)) =
          (entries, fault) ∧
        (fault = none ↔
          (distinct = true → ((tagPairs outer name attributes).map Prod.fst).Nodup)) ∧
        (fault = none → entries.map (fun found => (found.key, found.value)) =
          tagPairs outer name attributes) := by
  have hspace : ∀ b ∈ Utf8.encode name.localName, isMarkupSpace b = false :=
    fun _ hb => RawAttribute.isMarkupSpace_of_notMem (notMem_tagBytes h.localName hb)
  rw [encode_openingTag]
  exact RawAttribute.scan_written distinct hspace (isPlain_of_mem outer h)

end Writing

section Declaring

/-- An attribute is no declaration. -/
theorem declared?_name (h : isNcName s) :
    Bindings.declared? (Utf8.encode s) = if s = "xmlns" then some none else none := by
  by_cases hs : s = "xmlns"
  · subst s
    rfl
  · rw [if_neg hs]
    generalize hkey : Utf8.encode s = key
    unfold Bindings.declared?
    split
    · exact absurd (Utf8.encode_injective hkey) hs
    · next label =>
      have hcolon : 58 ∈ Utf8.encode s := by simp [hkey]
      exact absurd (by decide) (notMem_tagBytes h hcolon)
    · rfl

theorem splitLabel_name (h : isNcName s) :
    Bindings.splitLabel (Utf8.encode s) = (none, Utf8.encode s) := by
  have hcolon : ∀ b ∈ Utf8.encode s, (b != 58) = true := by
    intro b hb
    rw [bne_iff_ne]
    rintro rfl
    exact notMem_tagBytes h hb (by decide)
  have hdrop : (Utf8.encode s ++ []).dropWhile (· != 58) = [] :=
    List.dropWhile_append_of_pos hcolon
  rw [List.append_nil] at hdrop
  rw [Bindings.splitLabel, hdrop]

theorem expand_name {uri : String} (h : isNcName s) (huri : bindings.resolve none = .ok uri) :
    bindings.expand (Utf8.encode s) = .ok ⟨uri, s⟩ := by
  simp only [Bindings.expand, splitLabel_name h, huri, Utf8.decode_encode, mapError_ok, bind,
    Except.bind]
  rfl

/-- An attribute that is not called like a declaration. -/
def Attribute.isOrdinary (a : Attribute) : Bool :=
  a.name != "xmlns"

/-- The entries of attributes are read as these, but for those called like a declaration. -/
theorem mapM_readAttribute (h : ∀ a ∈ attributes, isNcName a.name)
    (hentries : entries.map (fun found => (found.key, found.value)) =
      attributes.map Attribute.pair) :
    entries.mapM Nesting.readAttribute =
      .ok (attributes.map (Option.guard Attribute.isOrdinary)) := by
  induction attributes generalizing entries with
  | nil =>
    obtain rfl := List.map_eq_nil_iff.mp hentries
    rfl
  | cons a attributes ih =>
    obtain ⟨ha, hattributes⟩ := List.forall_mem_cons.mp h
    obtain ⟨found, entries, rfl, hfound, hrest⟩ := List.map_eq_cons_iff.mp hentries
    obtain ⟨hkey, hvalue⟩ := Prod.mk.inj hfound
    have hread : Nesting.readAttribute found = .ok (Option.guard Attribute.isOrdinary a) := by
      rw [Nesting.readAttribute, hkey, hvalue, declared?_name ha, Option.guard,
        Attribute.isOrdinary]
      by_cases hname : a.name = "xmlns"
      · simp [hname]
      · simp only [splitLabel_name ha, Utf8.decode_encode, mapError_ok, bind,
          Except.bind, Reference.unescape_escape, bne_iff_ne, ne_eq, hname, not_false_eq_true,
          if_true]
        rfl
    rw [List.mapM_cons, hread, ih hattributes hrest]
    rfl

theorem mapM_readAttribute_tagPairs (h : NamedTag name attributes)
    (hentries : entries.map (fun found => (found.key, found.value)) =
      tagPairs outer name attributes) :
    ∃ found, entries.mapM Nesting.readAttribute = .ok found ∧
      found.filterMap id = attributes.filter Attribute.isOrdinary := by
  have hfilter : (attributes.map (Option.guard Attribute.isOrdinary)).filterMap id =
      attributes.filter Attribute.isOrdinary := by
    rw [List.filterMap_map, Function.id_comp, List.filterMap_eq_filter]
  rw [tagPairs, declaredPair?] at hentries
  split at hentries
  · exact ⟨_, mapM_readAttribute h.named hentries, hfilter⟩
  · obtain ⟨found, entries, rfl, hfound, hrest⟩ := List.map_eq_cons_iff.mp hentries
    have hread : Nesting.readAttribute found = .ok none := by
      rw [Nesting.readAttribute, (Prod.mk.inj hfound).1]
      rfl
    refine ⟨none :: attributes.map (Option.guard Attribute.isOrdinary), ?_, hfilter⟩
    rw [List.mapM_cons, hread, mapM_readAttribute h.named hrest]
    rfl

/-- The attributes of a tag are read back just if no two have one name and none looks like a
declaration. -/
theorem readAttributes_openingTag (outer : Option String) (h : NamedTag name attributes) :
    Nesting.readAttributes (Utf8.encode (openingTag outer name attributes)) = .ok attributes ↔
      (∀ a ∈ attributes, a.name ≠ "xmlns") ∧
        ((tagPairs outer name attributes).map Prod.fst).Nodup := by
  obtain ⟨-, entries, fault, hscan, hfault, hentries⟩ := scan_openingTag outer true h
  have hordinary : attributes.filter Attribute.isOrdinary = attributes ↔
      ∀ a ∈ attributes, a.name ≠ "xmlns" := by
    simp [Attribute.isOrdinary]
  cases fault with
  | none =>
    obtain ⟨found, hfound, hback⟩ := mapM_readAttribute_tagPairs h (hentries rfl)
    have hread : Nesting.readAttributes (Utf8.encode (openingTag outer name attributes)) =
        .ok (attributes.filter Attribute.isOrdinary) := by
      simp only [Nesting.readAttributes, hscan, hfound, bind, Except.bind]
      rw [← hback]
      rfl
    have hnodup : ((tagPairs outer name attributes).map Prod.fst).Nodup := hfault.mp rfl rfl
    rw [hread, Except.ok.injEq, hordinary, and_iff_left hnodup]
  | some fault =>
    have hrepeated : ¬ ((tagPairs outer name attributes).map Prod.fst).Nodup := by
      intro hnodup
      cases hfault.mpr fun _ => hnodup
    have hread : Nesting.readAttributes (Utf8.encode (openingTag outer name attributes)) ≠
        .ok attributes := by
      simp only [Nesting.readAttributes, hscan]
      intro hok
      obtain ⟨found, -, hthrow⟩ := Nesting.ok_of_bind hok
      cases hthrow
    exact iff_of_false hread fun hnodup => hrepeated hnodup.2

/-- The namespace that a tag is read to be in. -/
def writtenUri (outer : Option String) (uri : String) : String :=
  if outer.getD "" = uri then uri else Reference.escape uri

/-- Attributes change no bindings. -/
theorem foldlM_declare (h : ∀ a ∈ attributes, isNcName a.name)
    (hordinary : ∀ a ∈ attributes, a.name ≠ "xmlns")
    (hentries : entries.map (fun found => (found.key, found.value)) =
      attributes.map Attribute.pair) :
    entries.foldlM Bindings.declare bindings = .ok bindings := by
  induction attributes generalizing entries with
  | nil =>
    obtain rfl := List.map_eq_nil_iff.mp hentries
    rfl
  | cons a attributes ih =>
    obtain ⟨ha, hattributes⟩ := List.forall_mem_cons.mp h
    obtain ⟨hname, hnames⟩ := List.forall_mem_cons.mp hordinary
    obtain ⟨found, entries, rfl, hfound, hrest⟩ := List.map_eq_cons_iff.mp hentries
    have hdeclare : bindings.declare found = .ok bindings := by
      rw [Bindings.declare, (Prod.mk.inj hfound).1, declared?_name ha, if_neg hname]
    rw [List.foldlM_cons, hdeclare]
    exact ih hattributes hnames hrest

/-- The declaration of a tag, if there is one, sets the namespace for names without a label. -/
theorem foldlM_declare_openingTag (outer : Option String) (h : NamedTag name attributes)
    (hordinary : ∀ a ∈ attributes, a.name ≠ "xmlns")
    (hdefault : bindings.resolve none = .ok (outer.getD "")) :
    ∃ inside, (RawAttribute.scan false (Utf8.encode (openingTag outer name attributes))).1.foldlM
        Bindings.declare bindings = .ok inside ∧
      inside.resolve none = .ok (writtenUri outer name.uri) := by
  obtain ⟨-, entries, fault, hscan, hfault, hentries⟩ := scan_openingTag outer false h
  have hentries := hentries (hfault.mpr nofun)
  rw [tagPairs, declaredPair?] at hentries
  rw [hscan, writtenUri]
  split at hentries
  · next huri =>
    refine ⟨bindings, foldlM_declare h.named hordinary hentries, ?_⟩
    rw [hdefault, if_pos huri, huri]
  · next huri =>
    obtain ⟨found, entries, rfl, hfound, hrest⟩ := List.map_eq_cons_iff.mp hentries
    obtain ⟨hkey, hvalue⟩ := Prod.mk.inj hfound
    have hdeclare : bindings.declare found =
        .ok (⟨[], Utf8.encode (Reference.escape name.uri)⟩ :: bindings) := by
      rw [Bindings.declare, hkey, hvalue]
      rfl
    refine ⟨⟨[], Utf8.encode (Reference.escape name.uri)⟩ :: bindings, ?_, ?_⟩
    · rw [List.foldlM_cons, hdeclare]
      exact foldlM_declare h.named hordinary hrest
    · simp [Bindings.resolve, Bindings.lookup, Utf8.decode_encode, mapError_ok, huri]

theorem writtenUri_eq_self {uri : String} (h : ∀ c ∈ uri.toList, c ∉ Reference.reserved) :
    writtenUri outer uri = uri := by
  rw [writtenUri, Reference.escape_eq_self_iff.mpr h, ite_self]

theorem notMem_reserved_of_writtenUri {uri : String}
    (houter : ∀ c ∈ (outer.getD "").toList, c ∉ Reference.reserved)
    (h : writtenUri outer uri = uri) : ∀ c ∈ uri.toList, c ∉ Reference.reserved := by
  rw [writtenUri] at h
  split at h
  · next huri => exact huri ▸ houter
  · exact Reference.escape_eq_self_iff.mp h

end Declaring

namespace Nesting

/-- What the content of a start tag says, if it can be read. -/
structure Tells (bindings : Bindings) (content rawName : List UInt8) (inside : Bindings)
    (name : ExpandedName) (attributes : List Attribute) : Prop where
  named : RawAttribute.nameOf content = rawName
  declares : (RawAttribute.scan false content).1.foldlM Bindings.declare bindings = .ok inside
  expands : inside.expand rawName = .ok name
  reads : readAttributes content = .ok attributes

/-- A start tag that was written says what it was written for, if that can be written. -/
theorem tells_openingTag (outer : Option String) (h : WellNamedTag name attributes)
    (hdefault : bindings.resolve none = .ok (outer.getD "")) :
    ∃ inside, inside.resolve none = .ok name.uri ∧
      Tells bindings (Utf8.encode (openingTag outer name attributes))
        (Utf8.encode name.localName) inside name attributes := by
  have hnamed := h.toNamedTag
  obtain ⟨inside, hinside, huri⟩ := foldlM_declare_openingTag outer hnamed h.noDeclaration hdefault
  rw [writtenUri_eq_self h.uri] at huri
  exact ⟨inside, huri, (scan_openingTag outer true hnamed).1, hinside,
    expand_name h.localName huri,
    (readAttributes_openingTag outer hnamed).mpr ⟨h.noDeclaration, nodup_tagPairs outer h⟩⟩

/-- What is told by a start tag that was written for it can be written, inside a namespace that
can. -/
theorem wellNamedTag_of_tells (outer : Option String) (h : NamedTag name attributes)
    (houter : ∀ c ∈ (outer.getD "").toList, c ∉ Reference.reserved)
    (hdefault : bindings.resolve none = .ok (outer.getD ""))
    (htells : Tells bindings (Utf8.encode (openingTag outer name attributes))
      (Utf8.encode name.localName) inside name attributes) :
    WellNamedTag name attributes := by
  obtain ⟨hordinary, hnodup⟩ := (readAttributes_openingTag outer h).mp htells.reads
  obtain ⟨inside', hinside, huri⟩ := foldlM_declare_openingTag outer h hordinary hdefault
  obtain rfl := Except.ok.inj (hinside.symm.trans htells.declares)
  have hname := (expand_name h.localName huri).symm.trans htells.expands
  have huri : writtenUri outer name.uri = name.uri :=
    congrArg ExpandedName.uri (Except.ok.inj hname)
  rw [tagPairs, List.map_append, List.nodup_append] at hnodup
  exact ⟨h, notMem_reserved_of_writtenUri houter huri, hordinary,
    (nodup_keys attributes).mp hnodup.2.1⟩

theorem splitSlash_open {content : List UInt8} (h : content.getLast? ≠ some 47) :
    splitSlash content = (content, false) := by
  rw [splitSlash, if_neg h]

theorem splitSlash_closed (content : List UInt8) :
    splitSlash (content ++ [47]) = (content, true) := by
  rw [splitSlash, if_pos List.getLast?_concat, List.dropLast_concat]

theorem openElement_of_tells {content rawName : List UInt8}
    (h : Tells nesting.bindings content rawName inside name attributes)
    (hlast : content.getLast? ≠ some 47) :
    nesting.openElement content =
        .ok (⟨⟨rawName, inside⟩ :: nesting.stack, true⟩, [.start name attributes]) ∧
      nesting.openElement (content ++ [47]) =
        .ok (⟨nesting.stack, true⟩, [.start name attributes, .finish]) := by
  constructor
  · simp only [openElement, splitSlash_open hlast, h.named, h.declares, mapError_ok, bind,
      Except.bind, h.expands, h.reads]
    rfl
  · simp only [openElement, splitSlash_closed, h.named, h.declares, mapError_ok, bind,
      Except.bind, h.expands, h.reads]
    rfl

/-- What a start tag opens is what its content says. -/
theorem exists_tells {tag content : List UInt8} {closed : Bool} {nesting' : Nesting}
    {events : List Event} (hsplit : splitSlash tag = (content, closed))
    (h : nesting.openElement tag = .ok (nesting', events)) :
    ∃ name attributes more inside, events = .start name attributes :: more ∧
      Tells nesting.bindings content (RawAttribute.nameOf content) inside name attributes := by
  rw [openElement, hsplit] at h
  obtain ⟨inside, hinside, h⟩ := ok_of_bind h
  obtain ⟨name, hname, h⟩ := ok_of_bind h
  obtain ⟨attributes, hattributes, h⟩ := ok_of_bind h
  have htells : Tells nesting.bindings content (RawAttribute.nameOf content) inside name
    attributes := ⟨rfl, ok_of_mapError hinside, hname, hattributes⟩
  cases closed with
  | true =>
    cases h
    exact ⟨name, attributes, [.finish], inside, rfl, htells⟩
  | false =>
    cases h
    exact ⟨name, attributes, [], inside, rfl, htells⟩

/-- The end tag of the innermost element closes it. -/
theorem closeElement_written {rooted : Bool} {stack : List OpenElement} (h : isNcName s) :
    (⟨⟨Utf8.encode s, bindings⟩ :: stack, rooted⟩ : Nesting).closeElement (Utf8.encode s) =
      .ok (⟨stack, rooted⟩, [.finish]) := by
  have hend : endName (Utf8.encode s) = Utf8.encode s := by
    have hspace : ∀ b ∈ (Utf8.encode s).reverse, isMarkupSpace b = false := fun _ hb =>
      RawAttribute.isMarkupSpace_of_notMem (notMem_tagBytes h (List.mem_reverse.mp hb))
    have hne : (Utf8.encode s).reverse ≠ [] := by
      rw [ne_eq, List.reverse_eq_nil_iff]
      exact encode_name_ne_nil h
    rw [endName, ← List.reverse_reverse (Utf8.encode s)]
    generalize (Utf8.encode s).reverse = bs at hspace hne
    cases bs with
    | nil => exact absurd rfl hne
    | cons b bs =>
      rw [List.reverse_reverse,
        List.dropWhile_cons_of_neg (by simp [hspace b List.mem_cons_self])]
      exact if_neg (by simp)
  simp only [closeElement, hend, if_true]

end Nesting

end ContactCards
