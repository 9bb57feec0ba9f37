import ContactCards.Proofs.Markup.Prefix
import ContactCards.Proofs.Markup.Tidy
import ContactCards.Proofs.Markup.WrittenTag

/-! What bytes of a document bring about, whatever follows them: character data, and tags that were
written. -/
namespace ContactCards

variable {nesting nesting' : Nesting} {lexer lexer' : Lexer} {b : UInt8} {bs bs' : List UInt8}
  {events events' : List Event} {name : ExpandedName} {attributes : List Attribute}
  {outer : Option String} {held : String} {c d inner : Content} {stack : List OpenElement}

theorem Nesting.fault_run_found (nesting : Nesting) (found : List Event) (fault : Option Fault)
    (tokens : List Token) :
    (nesting.run found fault tokens).fault = (nesting.run [] fault tokens).fault := by
  induction tokens generalizing nesting found with
  | nil => rfl
  | cons token tokens ih =>
    simp only [run]
    cases nesting.step token with
    | error fault => rfl
    | ok after => exact (ih ..).trans (ih ..).symm

/-- A place between two bytes of a document, inside the elements that are open there. -/
structure Cursor where
  lexer : Lexer
  nesting : Nesting

namespace Cursor

variable {x y z : Cursor}

/-- What the rest of a document says. -/
def transcript (x : Cursor) (rest : List UInt8) : Transcript :=
  x.nesting.run [] (x.lexer.run [] rest).2 (x.lexer.run [] rest).1

/-- Bytes lead from one place to another and bring about events, whatever follows them. -/
def Reads (x : Cursor) (bs : List UInt8) (events : List Event) (y : Cursor) : Prop :=
  ∀ rest, (x.transcript (bs ++ rest)).events = events ++ (y.transcript rest).events ∧
    (x.transcript (bs ++ rest)).fault = (y.transcript rest).fault

theorem Reads.nil (x : Cursor) : x.Reads [] [] x := fun _ => ⟨rfl, rfl⟩

theorem Reads.trans (h : x.Reads bs events y) (h' : y.Reads bs' events' z) :
    x.Reads (bs ++ bs') (events ++ events') z := by
  intro rest
  obtain ⟨hevents, hfault⟩ := h (bs' ++ rest)
  obtain ⟨hevents', hfault'⟩ := h' rest
  rw [List.append_assoc, List.append_assoc, ← hevents', ← hfault']
  exact ⟨hevents, hfault⟩

/-- A byte that completes no token. -/
theorem reads_skip (nesting : Nesting) (h : lexer.step b = .ok (lexer', [])) :
    Reads ⟨lexer, nesting⟩ [b] [] ⟨lexer', nesting⟩ := by
  intro rest
  refine ⟨eventsFrom_skip h, ?_⟩
  simp only [transcript, List.singleton_append, Lexer.run_cons, h]
  rfl

/-- A byte that completes a token. -/
theorem reads_token {token : Token} (h : lexer.step b = .ok (lexer', [token]))
    (hn : nesting.step token = .ok (nesting', events)) :
    Reads ⟨lexer, nesting⟩ [b] events ⟨lexer', nesting'⟩ := by
  intro rest
  refine ⟨eventsFrom_token h hn, ?_⟩
  simp only [transcript, List.singleton_append, Lexer.run_cons, h]
  rw [Lexer.run_found]
  simp only [List.reverse_nil, List.reverse_cons, List.nil_append, List.singleton_append,
    Nesting.run, hn]
  exact Nesting.fault_run_found ..

/-- The place behind the character data `held`. -/
def afterText (nesting : Nesting) (held : String) : Cursor :=
  ⟨.text (Utf8.encode held).reverse, nesting⟩

/-- The start of a tag or a reference ends character data. -/
theorem reads_flush (held : String) (nesting : Nesting)
    (h : (Lexer.text (Utf8.encode held).reverse).step b =
      .ok (lexer, Lexer.flush (Utf8.encode held).reverse)) :
    (afterText nesting held).Reads [b] (Content.empty.addText held).events ⟨lexer, nesting⟩ := by
  by_cases hheld : held = ""
  · subst held
    exact reads_skip nesting h
  · have hflush : Lexer.flush (Utf8.encode held).reverse = [.text (Utf8.encode held)] := by
      have hne : Utf8.encode held ≠ [] := fun hnil => hheld (Utf8.encode_injective hnil)
      simp [Lexer.flush, hne]
    rw [hflush] at h
    rw [Content.empty_addText hheld]
    refine reads_token h ?_
    simp only [Nesting.step, Utf8.decode_encode]
    rfl

/-- Bytes that a lexer only keeps. -/
theorem reads_held (nesting : Nesting) (place : List UInt8 → Lexer)
    (h : ∀ b ∈ bs, ∀ held, (place held).step b = .ok (place (b :: held), []))
    (held : List UInt8) :
    Reads ⟨place held, nesting⟩ bs [] ⟨place (bs.reverse ++ held), nesting⟩ := by
  induction bs generalizing held with
  | nil => exact Reads.nil _
  | cons b bs ih =>
    obtain ⟨hb, hbs⟩ := List.forall_mem_cons.mp h
    have hrest := (reads_skip nesting (hb held)).trans (ih hbs (b :: held))
    simpa using hrest

theorem ne_of_notMem_tagBytes (h : b ∉ RawAttribute.tagBytes) (b' : UInt8)
    (h' : b' ∈ RawAttribute.tagBytes) : b ≠ b' := by
  rintro rfl
  exact h h'

/-- Bytes that mean nothing in a tag. -/
theorem reads_name (nesting : Nesting) (h : ∀ b ∈ bs, b ∉ RawAttribute.tagBytes)
    (held : List UInt8) :
    Reads ⟨.tag none held, nesting⟩ bs [] ⟨.tag none (bs.reverse ++ held), nesting⟩ := by
  refine reads_held nesting (.tag none) ?_ held
  intro b hb held
  have hne := ne_of_notMem_tagBytes (h b hb)
  simp [Lexer.step, Lexer.stepTag, hne 62 (by decide), hne 34 (by decide),
    hne 39 (by decide)]

/-- The rest of a value in quotes. -/
theorem reads_value (nesting : Nesting) (h : ∀ b ∈ bs, b ≠ 34) (held : List UInt8) :
    Reads ⟨.tag (some 34) held, nesting⟩ (bs ++ [34]) []
      ⟨.tag none (34 :: (bs.reverse ++ held)), nesting⟩ := by
  have hkeep : ∀ b ∈ bs, ∀ held, (Lexer.tag (some 34) held).step b =
      .ok (.tag (some 34) (b :: held), []) := by
    intro b hb held
    simp [Lexer.step, Lexer.stepTag, h b hb]
  exact (reads_held nesting (.tag (some 34)) hkeep held).trans (reads_skip nesting rfl)

/-- An entry of an attribute list. -/
theorem reads_written {pair : List UInt8 × List UInt8} (h : RawAttribute.IsPlain pair)
    (held : List UInt8) :
    Reads ⟨.tag none held, nesting⟩ (RawAttribute.written pair) []
      ⟨.tag none ((RawAttribute.written pair).reverse ++ held), nesting⟩ := by
  have hspace : (Lexer.tag none held).step 32 = .ok (.tag none (32 :: held), []) := rfl
  have hequals (held : List UInt8) :
      (Lexer.tag none held).step 61 = .ok (.tag none (61 :: held), []) := rfl
  have hquote (held : List UInt8) :
      (Lexer.tag none held).step 34 = .ok (.tag (some 34) (34 :: held), []) := rfl
  have hread := (reads_skip nesting hspace).trans <| (reads_name nesting h.key _).trans <|
    (reads_skip nesting (hequals _)).trans <| (reads_skip nesting (hquote _)).trans <|
      reads_value nesting h.value _
  simpa [RawAttribute.written] using hread

theorem reads_list (nesting : Nesting) {pairs : List (List UInt8 × List UInt8)}
    (h : ∀ pair ∈ pairs, RawAttribute.IsPlain pair) (held : List UInt8) :
    Reads ⟨.tag none held, nesting⟩ (pairs.flatMap RawAttribute.written) []
      ⟨.tag none ((pairs.flatMap RawAttribute.written).reverse ++ held), nesting⟩ := by
  induction pairs generalizing held with
  | nil => exact Reads.nil _
  | cons pair pairs ih =>
    obtain ⟨hpair, hpairs⟩ := List.forall_mem_cons.mp h
    have hread := (reads_written hpair held).trans (ih hpairs _)
    simpa using hread

/-- A name behind `<` starts a tag. -/
theorem reads_markup (nesting : Nesting) (hs : bs ≠ [])
    (h : ∀ b ∈ bs, b ∉ RawAttribute.tagBytes) :
    Reads ⟨.markup, nesting⟩ bs [] ⟨.tag none bs.reverse, nesting⟩ := by
  cases bs with
  | nil => exact absurd rfl hs
  | cons b bs =>
    obtain ⟨hb, hbs⟩ := List.forall_mem_cons.mp h
    have hne := ne_of_notMem_tagBytes hb
    have hstep : Lexer.markup.step b = .ok (.tag none [b], []) := by
      simp [Lexer.step, Lexer.stepTag, hne 33 (by decide), hne 63 (by decide),
        hne 62 (by decide), hne 34 (by decide), hne 39 (by decide)]
    have hread := (reads_skip nesting hstep).trans (reads_name nesting hbs [b])
    simpa using hread

/-- The inside of a start tag. -/
theorem reads_openingTag (nesting : Nesting) (outer : Option String)
    (h : NamedTag name attributes) :
    Reads ⟨.markup, nesting⟩ (Utf8.encode (openingTag outer name attributes)) []
      ⟨.tag none (Utf8.encode (openingTag outer name attributes)).reverse, nesting⟩ := by
  have hname := reads_markup nesting (encode_name_ne_nil h.localName)
    fun _ hb => notMem_tagBytes h.localName hb
  have hlist := reads_list nesting (isPlain_of_mem outer h) (Utf8.encode name.localName).reverse
  rw [encode_openingTag, List.reverse_append]
  exact hname.trans hlist

/-- The slash of an element without content. -/
theorem reads_slash (nesting : Nesting) (content : List UInt8) :
    Reads ⟨.tag none content.reverse, nesting⟩ [47] []
      ⟨.tag none (content ++ [47]).reverse, nesting⟩ := by
  rw [List.reverse_append]
  exact reads_skip nesting rfl

theorem step_tagEnd (content : List UInt8) : (Lexer.tag none content.reverse).step 62 =
    .ok (.text [], [Lexer.tagToken content]) := by
  simp [Lexer.step, Lexer.stepTag]

/-- The end of a tag. -/
theorem reads_tagEnd {content : List UInt8}
    (h : nesting.step (Lexer.tagToken content) = .ok (nesting', events)) :
    Reads ⟨.tag none content.reverse, nesting⟩ [62] events (afterText nesting' "") :=
  reads_token (step_tagEnd content) h

theorem tagToken_openingTag (outer : Option String) (h : NamedTag name attributes)
    (closing : List UInt8) :
    Lexer.tagToken (Utf8.encode (openingTag outer name attributes) ++ closing) =
      .startTag (Utf8.encode (openingTag outer name attributes) ++ closing) := by
  rw [encode_openingTag]
  have hbytes : ∀ b ∈ Utf8.encode name.localName, b ∉ RawAttribute.tagBytes :=
    fun _ hb => notMem_tagBytes h.localName hb
  cases hname : Utf8.encode name.localName with
  | nil => exact absurd hname (encode_name_ne_nil h.localName)
  | cons b bs =>
    have hb : b ≠ 47 := by
      rintro rfl
      exact hbytes 47 (by simp [hname]) (by decide)
    simp [Lexer.tagToken, hb]

/-- A start tag, and the tag of an element without content. -/
theorem reads_startTag (h : WellNamedTag name attributes)
    (hdefault : nesting.bindings.resolve none = .ok (outer.getD "")) :
    (∃ inside, inside.resolve none = .ok name.uri ∧
      Reads ⟨.markup, nesting⟩ (Utf8.encode (openingTag outer name attributes) ++ [62])
        [.start name attributes]
        (afterText ⟨⟨Utf8.encode name.localName, inside⟩ :: nesting.stack, true⟩ "")) ∧
    Reads ⟨.markup, nesting⟩ (Utf8.encode (openingTag outer name attributes) ++ [47, 62])
      [.start name attributes, .finish] (afterText ⟨nesting.stack, true⟩ "") := by
  obtain ⟨inside, huri, htells⟩ := Nesting.tells_openingTag outer h hdefault
  obtain ⟨hopen, hclosed⟩ :=
    Nesting.openElement_of_tells htells (getLast?_openingTag outer h.toNamedTag)
  have hread := reads_openingTag nesting outer h.toNamedTag
  constructor
  · refine ⟨inside, huri, hread.trans (reads_tagEnd ?_)⟩
    have htoken := tagToken_openingTag outer h.toNamedTag []
    rw [List.append_nil] at htoken
    rw [htoken]
    exact hopen
  · refine hread.trans ((reads_slash nesting _).trans (reads_tagEnd ?_))
    rw [tagToken_openingTag outer h.toNamedTag]
    exact hclosed

/-- An end tag. -/
theorem reads_endTag {s : String} (h : isNcName s) (hn : nesting.closeElement (Utf8.encode s) =
      .ok (nesting', [.finish])) :
    Reads ⟨.markup, nesting⟩ (47 :: (Utf8.encode s ++ [62])) [.finish] (afterText nesting' "") := by
  have hslash : Lexer.markup.step 47 = .ok (.tag none [47], []) := rfl
  have hname := reads_name nesting (fun _ hb => notMem_tagBytes h hb) [47]
  rw [← List.reverse_cons] at hname
  exact (reads_skip nesting hslash).trans (hname.trans (reads_tagEnd hn))

end Cursor
end ContactCards
