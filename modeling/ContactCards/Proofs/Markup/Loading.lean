import ContactCards.Markup.Load
import ContactCards.Proofs.Markup.Completion
import ContactCards.Proofs.Markup.Feeding
import ContactCards.Proofs.Markup.Trail

/-! Loading a document as a tree gives its root element, tidied. -/
namespace ContactCards

variable {c : Content} {events lead : List Event}

namespace Loading

/-- Inside the root the items of a content are added to the draft. -/
theorem feed_content (c : Content) (trail : Trail) (depth : Nat) :
    Loading.sink.feed ⟨some trail.toDraft, depth + 1⟩ c.events =
      (⟨some (trail.extend c).toDraft, depth + 1⟩, .more) := by
  induction c generalizing trail depth with
  | empty => rfl
  | text s rest ih =>
    have hreceive : Loading.sink.receive ⟨some trail.toDraft, depth + 1⟩ (.characters s) =
        (⟨some (trail.addText s).toDraft, depth + 1⟩, .more) := by
      simp [sink, receive, Trail.toDraft_addText]
    rw [Content.events, Sink.feed_more hreceive]
    exact ih (trail.addText s) depth
  | element name attributes inner rest ihi ihr =>
    have hstart : Loading.sink.receive ⟨some trail.toDraft, depth + 1⟩ (.start name attributes) =
        (⟨some (trail.openChild name attributes).toDraft, depth + 1 + 1⟩, .more) := by
      simp [sink, receive, Trail.toDraft_openChild]
    let inside := (trail.openChild name attributes).extend inner
    have hfinish : Loading.sink.receive ⟨some inside.toDraft, depth + 1 + 1⟩ .finish =
        (⟨some inside.closeChild.toDraft, depth + 1⟩, .more) := by
      simp [sink, receive, Trail.toDraft_closeChild]
    rw [Content.events, List.cons_append, Sink.feed_more hstart,
      Sink.feed_append_more (ihi _ (depth + 1)), Sink.feed_more hfinish, Trail.extend_element]
    exact ihr _ depth

/-- Up to its end tag the root is read, and nothing after it. -/
theorem feed_root (root : Element) :
    (Loading.sink.feed .empty (.start root.name root.attributes :: root.content.events)).2 = .more ∧
    Loading.sink.feed .empty root.events =
      (⟨some ((Trail.start root.name root.attributes).extend root.content).toDraft, 0⟩, .stop) := by
  have hstart : Loading.sink.receive .empty (.start root.name root.attributes) =
      (⟨some (Trail.start root.name root.attributes).toDraft, 0 + 1⟩, .more) := rfl
  have hcontent := feed_content root.content (Trail.start root.name root.attributes) 0
  constructor
  · rw [Sink.feed_more hstart, hcontent]
  · rw [Element.events, List.cons_append, Sink.feed_more hstart, Sink.feed_append_more hcontent]
    exact Sink.feed_stop rfl

/-- Character data before the root is dropped. -/
theorem feed_lead (h : ∀ event ∈ lead, event.isTag = false) :
    Loading.sink.feed .empty lead = (.empty, .more) := by
  induction lead with
  | nil => rfl
  | cons event lead ih =>
    obtain ⟨hevent, hlead⟩ := List.forall_mem_cons.mp h
    cases event with
    | start => cases hevent
    | finish => cases hevent
    | characters s =>
      rw [Sink.feed_more (t := .empty) rfl]
      exact ih hlead

end Loading

/-- A content is character data only, or its first element comes after some. -/
theorem Content.eq_text_or_split (c : Content) :
    (∀ event ∈ c.events, event.isTag = false) ∨
      ∃ (lead : List Event) (root : Element) (rest : List Event),
        (∀ event ∈ lead, event.isTag = false) ∧ c.events = lead ++ root.events ++ rest := by
  induction c with
  | empty => exact Or.inl (List.forall_mem_nil _)
  | text s rest ih =>
    rcases ih with h | ⟨lead, root, after, hlead, hrest⟩
    · exact Or.inl (List.forall_mem_cons.mpr ⟨rfl, h⟩)
    · refine Or.inr ⟨.characters s :: lead, root, after, List.forall_mem_cons.mpr ⟨rfl, hlead⟩, ?_⟩
      rw [Content.events, hrest]
      rfl
  | element name attributes inner rest _ _ =>
    refine Or.inr ⟨[], ⟨name, attributes, inner⟩, rest.events, List.forall_mem_nil _, ?_⟩
    simp [Content.events, Element.events]

/-- A loader that sees a whole transcript sees its fault, too. -/
theorem Element.fault_of_ofTranscript {t : Transcript} {e : Element}
    (h : Element.ofTranscript t = .ok e)
    (hmore : (Loading.sink.feed .empty t.events).2 = .more) :
    t.fault = none ∧ (Loading.sink.feed .empty t.events).1.draft ≠ none := by
  rw [ofTranscript, Sink.play] at h
  generalize Loading.sink.feed .empty t.events = fed at h hmore
  obtain ⟨⟨draft, depth⟩, flow⟩ := fed
  cases hmore
  cases hfault : t.fault with
  | some fault => simp [hfault] at h
  | none =>
    cases draft with
    | none => simp [hfault] at h
    | some draft => exact ⟨rfl, Option.some_ne_none draft⟩

/-- What is loaded is the root element of the transcript, tidied. -/
theorem Element.of_ofTranscript {t : Transcript} {e : Element} (hc : c.Completes t)
    (h : Element.ofTranscript t = .ok e) :
    ∃ (lead : List Event) (root : Element) (rest : List Event),
      t.events = lead ++ root.events ++ rest ∧ (∀ event ∈ lead, event.isTag = false) ∧
        e = ⟨root.name, root.attributes, root.content.tidy⟩ := by
  obtain ⟨n, hn, hfault⟩ := hc
  have hprefix : t.events <+: c.events := ⟨_, hn.symm⟩
  rcases c.eq_text_or_split with htext | ⟨lead, root, after, hlead, hsplit⟩
  · have hfeed := Loading.feed_lead fun event he => htext event (List.IsPrefix.subset hprefix he)
    have hdraft := (fault_of_ofTranscript h (by rw [hfeed])).2
    rw [hfeed] at hdraft
    exact absurd rfl hdraft
  · let opening := lead ++ .start root.name root.attributes :: root.content.events
    have hopening : lead ++ root.events = opening ++ [.finish] := by simp [opening, Element.events]
    have hfeed : Loading.sink.feed .empty (lead ++ root.events) = _ :=
      (Sink.feed_append_more (Loading.feed_lead hlead)).trans (Loading.feed_root root).2
    -- The end of the root is there: short of it the loader gets to a fault.
    have hroot : lead ++ root.events <+: t.events := by
      rcases List.prefix_or_prefix_of_prefix hprefix ⟨after, hsplit.symm⟩ with hp | hp
      · rw [hopening, List.prefix_concat_iff, ← hopening] at hp
        rcases hp with heq | hp
        · exact heq ▸ List.prefix_refl _
        · have hmore : (Loading.sink.feed .empty opening).2 = .more := by
            rw [Sink.feed_append_more (Loading.feed_lead hlead)]
            exact (Loading.feed_root root).1
          have hzero := hfault (fault_of_ofTranscript h (Sink.feed_prefix_more hmore hp)).1
          subst n
          rw [List.replicate_zero, List.append_nil] at hn
          exact ⟨after, by rw [← hn, hsplit]⟩
      · exact hp
    obtain ⟨rest, hrest⟩ := hroot
    refine ⟨lead, root, rest, hrest.symm, hlead, ?_⟩
    rw [ofTranscript, Sink.play, ← hrest, Sink.feed_append_stop hfeed] at h
    have he := Except.ok.inj h
    rw [← he, Trail.toDraft_finish, Trail.start_extend_finish]

end ContactCards
