import ContactCards.Proofs.Markup.Rendering

/-! An element is read back from its text just if its names can be written as they are. -/
namespace ContactCards

variable {nesting : Nesting} {c d : Content} {e : Element} {outer : Option String}
  {held : String} {rest tag : List UInt8} {xs ys : List Event}

namespace Event

/-- The start tags among events. -/
def starts (events : List Event) : List (ExpandedName × List Attribute) :=
  events.filterMap fun
    | .start name attributes => some (name, attributes)
    | _ => none

theorem starts_append (xs ys : List Event) : starts (xs ++ ys) = starts xs ++ starts ys :=
  List.filterMap_append

theorem starts_joinTo (s : String) (xs : List Event) :
    starts (joinTo (.characters s) xs) = starts xs := by
  cases xs with
  | nil => by_cases hs : s = "" <;> simp [joinTo, hs, starts]
  | cons event xs => cases event <;> by_cases hs : s = "" <;> simp [joinTo, hs, starts]

/-- Start tags do not depend on the cuts of character data. -/
theorem starts_condense (xs : List Event) : starts (condense xs) = starts xs := by
  induction xs with
  | nil => rfl
  | cons event xs ih =>
    rw [condense_cons]
    cases event with
    | characters s =>
      rw [starts_joinTo, ih]
      rfl
    | start name attributes => exact congrArg ((name, attributes) :: ·) ih
    | finish => exact ih

theorem starts_element (e : Element) :
    starts e.events = (e.name, e.attributes) :: starts e.content.events := by
  simp [Element.events, starts]

theorem starts_of_isTag_eq_false (h : ∀ event ∈ xs, event.isTag = false) : starts xs = [] := by
  rw [starts, List.filterMap_eq_nil_iff]
  intro event hevent
  cases event with
  | characters => rfl
  | start => cases h _ hevent
  | finish => rfl

end Event

namespace Content

theorem Alike.starts_eq (h : c.Alike d) : Event.starts c.events = Event.starts d.events := by
  rw [← Event.starts_condense, ← events_tidy, h, events_tidy, Event.starts_condense]

theorem starts_addText (s : String) : Event.starts (Content.empty.addText s).events = [] := by
  by_cases hs : s = "" <;> simp [addText, hs, events, Event.starts]

end Content

namespace Cursor

theorem starts_of_reads {x y : Cursor} {bs : List UInt8} {events : List Event}
    (h : x.Reads bs events y) (rest : List UInt8) :
    Event.starts (x.transcript (bs ++ rest)).events =
      Event.starts events ++ Event.starts (y.transcript rest).events := by
  rw [(h rest).1, Event.starts_append]

/-- A start tag that is found was opened. -/
theorem exists_openElement {found : ExpandedName × List Attribute}
    {more : List (ExpandedName × List Attribute)} (htag : Lexer.tagToken tag = .startTag tag)
    (h : found :: more <+:
      Event.starts (transcript ⟨.tag none tag.reverse, nesting⟩ (62 :: rest)).events) :
    ∃ nesting' events,
      nesting.openElement tag = .ok (nesting', .start found.1 found.2 :: events) := by
  have hstep := step_tagEnd tag
  have hevents : (transcript ⟨.tag none tag.reverse, nesting⟩ (62 :: rest)).events =
      eventsFrom (.tag none tag.reverse) nesting (62 :: rest) := rfl
  rw [hevents] at h
  cases hopen : nesting.openElement tag with
  | error fault =>
    have hn : nesting.step (Lexer.tagToken tag) = .error fault := by
      rw [htag]
      exact hopen
    simp only [eventsFrom, Lexer.run_cons, hstep] at h
    rw [Lexer.run_found] at h
    simp [Nesting.run, hn, Event.starts] at h
  | ok after =>
    obtain ⟨nesting', events⟩ := after
    obtain ⟨name, attributes, events', inside, rfl, -⟩ := Nesting.exists_tells rfl hopen
    have hn : nesting.step (Lexer.tagToken tag) =
        .ok (nesting', .start name attributes :: events') := by
      rw [htag]
      exact hopen
    rw [eventsFrom_token hstep hn, List.cons_append] at h
    obtain rfl := (List.cons_prefix_cons.mp h).1
    exact ⟨nesting', events', rfl⟩

section Element

variable {found : List (ExpandedName × List Attribute)} (hnamed : NamedTag e.name e.attributes)
  (houter : ∀ c ∈ (outer.getD "").toList, c ∉ Reference.reserved)
  (hdefault : nesting.bindings.resolve none = .ok (outer.getD ""))

include hnamed houter hdefault

theorem wellNamedTag_of_openElement {nesting' : Nesting} {closed : Bool} {more : List Event}
    (hsplit : Nesting.splitSlash tag =
      (Utf8.encode (openingTag outer e.name e.attributes), closed))
    (h : nesting.openElement tag = .ok (nesting', .start e.name e.attributes :: more)) :
    WellNamedTag e.name e.attributes := by
  obtain ⟨name, attributes, more', inside, hevents, htells⟩ := Nesting.exists_tells hsplit h
  cases hevents
  rw [(scan_openingTag outer true hnamed).1] at htells
  exact Nesting.wellNamedTag_of_tells outer hnamed houter hdefault htells

/-- An element whose start tag is found can be written, as far as the tag goes. -/
theorem wellNamedTag_of_starts
    (h : (e.name, e.attributes) :: found <+:
      Event.starts ((afterText nesting held).transcript (written outer e ++ rest)).events) :
    WellNamedTag e.name e.attributes := by
  have hread := (reads_flush held nesting (b := 60) rfl).trans
    (reads_openingTag nesting outer hnamed)
  have hnone : Event.starts ((Content.empty.addText held).events ++ []) = [] := by
    rw [List.append_nil, Content.starts_addText]
  by_cases hempty : e.content.isEmpty
  · have hbytes : written outer e ++ rest = ([60] ++
        Utf8.encode (openingTag outer e.name e.attributes)) ++ ([47] ++ 62 :: rest) := by
      simp [written_of_isEmpty outer hempty]
    rw [hbytes, starts_of_reads hread, hnone, List.nil_append,
      starts_of_reads (reads_slash nesting _)] at h
    obtain ⟨nesting', events, hopen⟩ :=
      exists_openElement (tagToken_openingTag outer hnamed [47]) h
    exact wellNamedTag_of_openElement hnamed houter hdefault (Nesting.splitSlash_closed _) hopen
  · have hbytes : written outer e ++ rest = ([60] ++
        Utf8.encode (openingTag outer e.name e.attributes)) ++
          62 :: (Utf8.encode (e.content.render e.name.uri) ++
            ([60] ++ (47 :: (Utf8.encode e.name.localName ++ [62]))) ++ rest) := by
      simp [written_of_not_isEmpty outer hempty]
    have htag := tagToken_openingTag outer hnamed []
    rw [List.append_nil] at htag
    rw [hbytes, starts_of_reads hread, hnone, List.nil_append] at h
    obtain ⟨nesting', events, hopen⟩ := exists_openElement htag h
    exact wellNamedTag_of_openElement hnamed houter hdefault
      (Nesting.splitSlash_open (getLast?_openingTag outer hnamed)) hopen

/-- An element whose start tags are all found can be written. What is found inside it is found after
its start tag. -/
theorem wellNamed_of_starts
    (hcontent : ∀ (stack : List OpenElement) (rest : List UInt8),
      (∀ c ∈ e.name.uri.toList, c ∉ Reference.reserved) →
      (⟨stack, true⟩ : Nesting).bindings.resolve none = .ok e.name.uri →
      Event.starts e.content.events <+: Event.starts ((afterText ⟨stack, true⟩ "").transcript
        (Utf8.encode (e.content.render e.name.uri) ++ rest)).events →
      e.content.EveryTag WellNamedTag)
    (h : Event.starts e.events <+:
      Event.starts ((afterText nesting held).transcript (written outer e ++ rest)).events) :
    e.WellNamed := by
  rw [Event.starts_element] at h
  have htag := wellNamedTag_of_starts hnamed houter hdefault h
  refine ⟨htag, ?_⟩
  by_cases hempty : e.content.isEmpty
  · rw [eq_empty_of_isEmpty hempty]
    trivial
  · obtain ⟨⟨inside, huri, hopen⟩, -⟩ := reads_startTag htag hdefault
    have hread := (reads_flush held nesting (b := 60) rfl).trans hopen
    rw [written_of_not_isEmpty outer hempty, ← List.append_assoc, List.append_assoc,
      starts_of_reads hread, Event.starts_append, Content.starts_addText] at h
    simp only [List.append_assoc, List.nil_append] at h
    exact hcontent (⟨Utf8.encode e.name.localName, inside⟩ :: nesting.stack) _ htag.uri huri
      (List.cons_prefix_cons.mp h).2

end Element

theorem wellNamed_content_of_starts (c : Content) (hnamed : c.EveryTag NamedTag)
    (stack : List OpenElement) (outer : String) (rest : List UInt8)
    (houter : ∀ c ∈ outer.toList, c ∉ Reference.reserved)
    (hdefault : (⟨stack, true⟩ : Nesting).bindings.resolve none = .ok outer) (held : String)
    (h : Event.starts c.events <+: Event.starts ((afterText ⟨stack, true⟩ held).transcript
      (Utf8.encode (c.render outer) ++ rest)).events) :
    c.EveryTag WellNamedTag := by
  induction c generalizing stack outer rest held with
  | empty => trivial
  | text s tail ih =>
    obtain ⟨d, after, hread, halike⟩ := Replays.text ⟨stack, true⟩ held s
    have hnone : Event.starts d.events = [] := by
      have hstarts := halike.starts_eq
      rw [Content.events_append, Event.starts_append] at hstarts
      exact (List.append_eq_nil_iff.mp hstarts).1
    rw [Content.render, Utf8.encode_append, List.append_assoc, starts_of_reads hread, hnone] at h
    exact ih hnamed stack outer rest houter hdefault after h
  | element name attributes inner tail ihi ihr =>
    obtain ⟨htag, hinner, htail⟩ := hnamed
    let e : Element := ⟨name, attributes, inner⟩
    have hstarts : Event.starts (Content.element name attributes inner tail).events =
        Event.starts e.events ++ Event.starts tail.events := by
      simp [e, Content.events, Element.events, Event.starts]
    rw [encode_render_element, List.append_assoc, hstarts] at h
    have hsome : ∀ c ∈ ((some outer).getD "").toList, c ∉ Reference.reserved := houter
    have he : e.WellNamed := by
      refine wellNamed_of_starts htag hsome hdefault ?_
        ((List.prefix_append _ _).trans h)
      intro stack' rest' hplain hresolve hfound
      exact ihi hinner stack' name.uri rest' hplain hresolve "" hfound
    obtain ⟨d, hd, hread⟩ := reads_element ⟨stack, true⟩ (some outer) he.tag hdefault
      (fun stack hstack => replays_content inner he.content stack name.uri hstack "") held
    have hfound : Event.starts ((Content.empty.addText held).events ++
        (⟨name, attributes, d⟩ : Element).events) = Event.starts e.events := by
      rw [Event.starts_append, Content.starts_addText, List.nil_append,
        Event.starts_element, Event.starts_element, hd.starts_eq]
    rw [starts_of_reads hread, hfound, List.prefix_append_right_inj] at h
    exact ⟨he.tag, he.content, ihr htail stack outer rest houter hdefault "" h⟩

end Cursor

/-- An element without colons in its names is loaded from its text as itself, tidied, just if it can
be written with its names as they are. -/
theorem Element.parse_render_iff (h : e.Named) :
    parse e.render = .ok ⟨e.name, e.attributes, e.content.tidy⟩ ↔ e.WellNamed := by
  refine ⟨fun hparse => ?_, parse_render⟩
  obtain ⟨c, hc⟩ := Transcript.exists_completes (Utf8.encode e.render)
  obtain ⟨lead, root, rest, hevents, hlead, hroot⟩ := of_ofTranscript hc hparse
  have hstarts : Event.starts e.events <+:
      Event.starts (Transcript.ofDocument (Utf8.encode e.render)).events := by
    obtain ⟨hname, hattributes, hcontent⟩ := Element.mk.inj hroot
    have halike : e.content.Alike root.content := hcontent
    rw [hevents, Event.starts_append, Event.starts_append, Event.starts_of_isTag_eq_false hlead,
      Event.starts_element e, hname, hattributes, halike.starts_eq, ← Event.starts_element root]
    exact List.prefix_append _ _
  have hwritten := List.append_nil (Cursor.written none e)
  rw [Cursor.ofDocument_eq, ← hwritten] at hstarts
  have hnone : ∀ c ∈ ((none : Option String).getD "").toList, c ∉ Reference.reserved := nofun
  refine Cursor.wellNamed_of_starts h.tag hnone Cursor.resolve_empty ?_ hstarts
  intro stack rest' huri hresolve hfound
  exact Cursor.wellNamed_content_of_starts e.content h.content stack e.name.uri rest' huri hresolve
    "" hfound

end ContactCards
