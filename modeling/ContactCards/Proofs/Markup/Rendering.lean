import ContactCards.Proofs.Markup.Cursor
import ContactCards.Proofs.Markup.Loading

/-! An element that was written is read back, but for the cuts of its character data. -/
namespace ContactCards

variable {nesting : Nesting} {bs bs' : List UInt8} {name : ExpandedName}
  {attributes : List Attribute} {outer : Option String} {held : String} {c d : Content}

namespace Cursor

/-- Bytes behind the character data `held` bring about a content, but for the cuts of its character
data. What comes last of it may be pending. -/
def Replays (nesting : Nesting) (held : String) (bs : List UInt8) (c : Content) : Prop :=
  ∃ (d : Content) (after : String),
    (afterText nesting held).Reads bs d.events (afterText nesting after) ∧
      (d.append (.text after .empty)).Alike (.text held c)

namespace Replays

theorem nil (nesting : Nesting) (held : String) : Replays nesting held [] .empty :=
  ⟨.empty, held, Reads.nil _, .refl _⟩

theorem congr (h : Replays nesting held bs c) (hc : c.Alike d) : Replays nesting held bs d := by
  obtain ⟨found, after, hread, halike⟩ := h
  exact ⟨found, after, hread, halike.trans (hc.text held)⟩

theorem append (h : Replays nesting held bs c) (h' : ∀ held, Replays nesting held bs' d) :
    Replays nesting held (bs ++ bs') (c.append d) := by
  obtain ⟨found, after, hread, halike⟩ := h
  obtain ⟨found', after', hread', halike'⟩ := h' after
  refine ⟨found.append found', after', ?_, ?_⟩
  · rw [Content.events_append]
    exact hread.trans hread'
  · have hjoin : (found.append (.text after d)).Alike (.text held (c.append d)) := by
      have happend := halike.append (.refl d)
      rwa [Content.append_assoc] at happend
    rw [Content.append_assoc]
    exact (Content.Alike.append (.refl found) halike').trans hjoin

/-- A character that is written as itself. -/
theorem plainChar {c : Char} (nesting : Nesting) (held : String) (hc : c ∉ Reference.reserved) :
    Replays nesting held (Utf8.encode (String.ofList [c])) (.text (String.ofList [c]) .empty) := by
  have hno {b : UInt8} (hb : b ∈ Utf8.encode (String.ofList [c])) (hsmall : b.toNat < 0x80) :
      Char.ofNat b.toNat ∉ Reference.reserved := by
    have hmem := Utf8.ofNat_mem_of_mem_encode hb hsmall
    rw [String.toList_ofList, List.mem_singleton] at hmem
    rwa [hmem]
  have hkeep : ∀ b ∈ Utf8.encode (String.ofList [c]), ∀ held,
      (Lexer.text held).step b = .ok (.text (b :: held), []) := by
    intro b hb held
    have hlt : b ≠ 60 := by
      rintro rfl
      exact hno hb (by decide) (by decide)
    have hamp : b ≠ 38 := by
      rintro rfl
      exact hno hb (by decide) (by decide)
    simp [Lexer.step, hlt, hamp]
  have hread := reads_held nesting .text hkeep (Utf8.encode held).reverse
  rw [← List.reverse_append, ← Utf8.encode_append] at hread
  exact ⟨.empty, held ++ String.ofList [c], hread, (Content.Alike.text_text _ _ _).symm⟩

/-- A character that is written as a reference. -/
theorem reference {name : List Char} {c : Char} (nesting : Nesting) (held : String)
    (h : Reference.Names name c) :
    Replays nesting held (Utf8.encode (String.ofList ('&' :: (name ++ [';']))))
      (.text (String.ofList [c]) .empty) := by
  have hbytes : Utf8.encode (String.ofList ('&' :: (name ++ [';']))) =
      [38] ++ (Utf8.encode (String.ofList name) ++ [59]) := by
    rw [Utf8.encode_cons, String.ofList_append, Utf8.encode_append]
    rfl
  have hkeep : ∀ b ∈ Utf8.encode (String.ofList name), ∀ held,
      (Lexer.reference held).step b = .ok (.reference (b :: held), []) := by
    intro b hb held
    have hmem (hsmall : b.toNat < 0x80) := Utf8.ofNat_mem_of_mem_encode hb hsmall
    simp only [String.toList_ofList] at hmem
    have hend : b ≠ 59 := by
      rintro rfl
      exact (h.plain _ (hmem (by decide))).2.1 (by decide)
    have hamp : b ≠ 38 := by
      rintro rfl
      exact (h.plain _ (hmem (by decide))).1 (by decide)
    have hlt : b ≠ 60 := by
      rintro rfl
      exact (h.plain _ (hmem (by decide))).2.2.1 (by decide)
    simp [Lexer.step, hend, hamp, hlt]
  have hstart := reads_flush held nesting (b := 38) rfl
  have hname := reads_held nesting .reference hkeep []
  rw [List.append_nil] at hname
  have hlexer : (Lexer.reference (Utf8.encode (String.ofList name)).reverse).step 59 =
      .ok (.text [], [.reference (Utf8.encode (String.ofList name))]) := by
    simp [Lexer.step]
  have hnesting : nesting.step (.reference (Utf8.encode (String.ofList name))) =
      .ok (nesting, [.characters (String.ofList [c])]) := by
    simp only [Nesting.step, Utf8.decode_encode, mapError_ok, bind, Except.bind, h.expand]
    rfl
  have hread := hstart.trans (hname.trans (reads_token hlexer hnesting))
  rw [← hbytes] at hread
  refine ⟨(Content.empty.addText held).append (.text (String.ofList [c]) .empty), "", ?_, ?_⟩
  · rw [Content.events_append]
    exact hread
  · rw [Content.append_assoc]
    refine (Content.Alike.addText held _).trans ?_
    exact ((Content.Alike.text_empty .empty).text (String.ofList [c])).text held

/-- A character as it is escaped. -/
theorem char (nesting : Nesting) (held : String) (c : Char) :
    Replays nesting held (Utf8.encode (String.ofList (Reference.escapeChar c)))
      (.text (String.ofList [c]) .empty) := by
  obtain ⟨hc, hself⟩ | ⟨-, name, hname, hnames⟩ := Reference.escapeChar_cases c
  · rw [hself]
    exact plainChar nesting held hc
  · rw [hname]
    exact reference nesting held hnames

/-- A text as it is escaped. -/
theorem text (nesting : Nesting) (held s : String) :
    Replays nesting held (Utf8.encode (Reference.escape s)) (.text s .empty) := by
  have hchars (cs : List Char) (held : String) :
      Replays nesting held (Utf8.encode (String.ofList (cs.flatMap Reference.escapeChar)))
        (.text (String.ofList cs) .empty) := by
    induction cs generalizing held with
    | nil => exact (nil nesting held).congr (Content.Alike.text_empty .empty).symm
    | cons c cs ih =>
      have hcons : String.ofList ([c] ++ cs) = String.ofList [c] ++ String.ofList cs :=
        String.ofList_append
      rw [List.singleton_append] at hcons
      rw [List.flatMap_cons, String.ofList_append, Utf8.encode_append, hcons]
      exact ((char nesting held c).append ih).congr (Content.Alike.text_text _ _ _)
  have hs := hchars s.toList held
  rwa [String.ofList_toList] at hs

end Replays

/-- An element as it is written inside the namespace `outer`. -/
def written (outer : Option String) (e : Element) : List UInt8 :=
  Utf8.encode ("<" ++ openingTag outer e.name e.attributes ++
    if e.content.isEmpty then "/>"
    else ">" ++ e.content.render e.name.uri ++ "</" ++ e.name.localName ++ ">")

theorem written_of_isEmpty (outer : Option String) {e : Element} (h : e.content.isEmpty) :
    written outer e = [60] ++ (Utf8.encode (openingTag outer e.name e.attributes) ++ [47, 62]) := by
  rw [written, if_pos h, Utf8.encode_append, Utf8.encode_append, List.append_assoc]
  rfl

theorem written_of_not_isEmpty (outer : Option String) {e : Element} (h : ¬ e.content.isEmpty) :
    written outer e =
      [60] ++ ((Utf8.encode (openingTag outer e.name e.attributes) ++ [62]) ++
        (Utf8.encode (e.content.render e.name.uri) ++
          ([60] ++ (47 :: (Utf8.encode e.name.localName ++ [62]))))) := by
  have hopening : Utf8.encode "<" = [60] := rfl
  have hslash : Utf8.encode "</" = [60, 47] := rfl
  have hend : Utf8.encode ">" = [62] := rfl
  rw [written, if_neg h]
  simp [Utf8.encode_append, hopening, hslash, hend]

theorem eq_empty_of_isEmpty (h : c.isEmpty) : c = .empty := by
  cases c with
  | empty => rfl
  | text => cases h
  | element => cases h

/-- An element whose content is replayed is read as an element that differs in the cuts of its
character data only. -/
theorem reads_element (nesting : Nesting) (outer : Option String) {e : Element}
    (h : WellNamedTag e.name e.attributes)
    (hdefault : nesting.bindings.resolve none = .ok (outer.getD ""))
    (hcontent : ∀ (stack : List OpenElement),
      (⟨stack, true⟩ : Nesting).bindings.resolve none = .ok e.name.uri →
      Replays ⟨stack, true⟩ "" (Utf8.encode (e.content.render e.name.uri)) e.content)
    (held : String) :
    ∃ d : Content, d.Alike e.content ∧
      (afterText nesting held).Reads (written outer e)
        ((Content.empty.addText held).events ++
          (⟨e.name, e.attributes, d⟩ : Element).events) (afterText ⟨nesting.stack, true⟩ "") := by
  obtain ⟨⟨inside, huri, hopen⟩, hclosed⟩ := reads_startTag h hdefault
  have hlt := reads_flush held nesting (b := 60) rfl
  by_cases hempty : e.content.isEmpty
  · rw [written_of_isEmpty outer hempty]
    refine ⟨.empty, ?_, hlt.trans hclosed⟩
    rw [eq_empty_of_isEmpty hempty]
    exact .refl _
  · rw [written_of_not_isEmpty outer hempty]
    obtain ⟨d, after, hinner, halike⟩ :=
      hcontent (⟨Utf8.encode e.name.localName, inside⟩ :: nesting.stack) huri
    have hend := (reads_flush after ⟨⟨Utf8.encode e.name.localName, inside⟩ :: nesting.stack, true⟩
      (b := 60) rfl).trans (reads_endTag h.localName (Nesting.closeElement_written h.localName))
    have hread := hlt.trans (hopen.trans (hinner.trans hend))
    refine ⟨d.append (Content.empty.addText after), ?_, ?_⟩
    · have hflush := Content.Alike.addText after .empty
      rw [Content.append_empty] at hflush
      exact (Content.Alike.append (.refl d) hflush).trans
        (halike.trans (Content.Alike.text_empty e.content))
    · simpa [Element.events, Content.events_append] using hread

theorem encode_render_element (outer : String) (name : ExpandedName) (attributes : List Attribute)
    (inner rest : Content) :
    Utf8.encode (Content.render outer (.element name attributes inner rest)) =
      written (some outer) ⟨name, attributes, inner⟩ ++ Utf8.encode (rest.render outer) := by
  rw [Content.render, Utf8.encode_append]
  rfl

theorem replays_content (c : Content) (h : c.EveryTag WellNamedTag) (stack : List OpenElement)
    (outer : String)
    (hdefault : (⟨stack, true⟩ : Nesting).bindings.resolve none = .ok outer) (held : String) :
    Replays ⟨stack, true⟩ held (Utf8.encode (c.render outer)) c := by
  induction c generalizing stack outer held with
  | empty => exact Replays.nil _ held
  | text s rest ih =>
    rw [Content.render, Utf8.encode_append]
    exact (Replays.text _ held s).append (ih h stack outer hdefault)
  | element name attributes inner rest ihi ihr =>
    obtain ⟨htag, hinner, hrest⟩ := h
    obtain ⟨d, hd, hread⟩ := reads_element ⟨stack, true⟩ (some outer)
      (e := ⟨name, attributes, inner⟩) htag hdefault
      (fun stack hstack => ihi hinner stack name.uri hstack "") held
    have helement : Replays ⟨stack, true⟩ held (written (some outer) ⟨name, attributes, inner⟩)
        (.element name attributes inner .empty) := by
      refine ⟨(Content.empty.addText held).append (.element name attributes d .empty), "", ?_, ?_⟩
      · rw [Content.events_append]
        simpa [Element.events, Content.events] using hread
      · rw [Content.append_assoc]
        refine (Content.Alike.addText held _).trans (Content.Alike.text ?_ held)
        exact Content.Alike.element hd (Content.Alike.text_empty .empty)
    rw [encode_render_element]
    exact helement.append (ihr hrest stack outer hdefault)

/-- A document that was written is read from its first byte on. -/
theorem ofDocument_eq (e : Element) : Transcript.ofDocument (Utf8.encode e.render) =
    (afterText .empty "").transcript (written none e) := by
  have hunmarked : Token.unmarked (written none e) = written none e := by
    have hno (rest : List UInt8) : ¬ byteOrderMark.isPrefixOf (Utf8.encode "<" ++ rest) :=
      Bool.false_ne_true
    rw [written, Utf8.encode_append, Utf8.encode_append, List.append_assoc]
    exact if_neg (hno _)
  have hdocument : Transcript.ofDocument (Utf8.encode e.render) =
      (afterText .empty "").transcript (Token.unmarked (written none e)) := rfl
  rw [hdocument, hunmarked]

/-- Around the root there is no namespace. -/
theorem resolve_empty :
    Nesting.empty.bindings.resolve none = .ok ((none : Option String).getD "") :=
  congrArg (Except.mapError Fault.namespaceEncoding) (Utf8.decode_encode "")

end Cursor

namespace Element

/-- The events of an element that was written are those of one that differs in the cuts of its
character data only, and nothing is wrong with them. -/
theorem ofDocument_render {e : Element} (h : e.WellNamed) :
    ∃ d : Content, d.Alike e.content ∧ Transcript.ofDocument (Utf8.encode e.render) =
      ⟨(⟨e.name, e.attributes, d⟩ : Element).events, none⟩ := by
  obtain ⟨d, hd, hread⟩ := Cursor.reads_element .empty none h.tag Cursor.resolve_empty
    (fun stack hdefault => Cursor.replays_content e.content h.content stack e.name.uri hdefault "")
    ""
  obtain ⟨hevents, hfault⟩ := hread []
  rw [List.append_nil] at hevents hfault
  refine ⟨d, hd, ?_⟩
  rw [Cursor.ofDocument_eq]
  generalize (Cursor.afterText .empty "").transcript (Cursor.written none e) = t at hevents hfault
  obtain ⟨events, fault⟩ := t
  -- Behind the root there is only the end of the document, which has no events and no fault.
  obtain rfl : events = _ := hevents.trans (List.append_nil _)
  obtain rfl : fault = none := hfault
  rfl

/-- An element that was written is loaded as itself, tidied. -/
theorem parse_render {e : Element} (h : e.WellNamed) :
    parse e.render = .ok ⟨e.name, e.attributes, e.content.tidy⟩ := by
  obtain ⟨d, hd, htranscript⟩ := ofDocument_render h
  have hfeed := (Loading.feed_root ⟨e.name, e.attributes, d⟩).2
  have hfinish : ((Trail.start e.name e.attributes).extend d).toDraft.finish =
      ⟨e.name, e.attributes, e.content.tidy⟩ := by
    rw [Trail.toDraft_finish, Trail.start_extend_finish, hd]
  rw [parse, ofDocument, htranscript, ofTranscript, Sink.play, hfeed]
  exact congrArg Except.ok hfinish

end Element
end ContactCards
