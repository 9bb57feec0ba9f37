import ContactCards.Markup.Event

/-! Feeding a receiver: where it stops, nothing that follows matters. -/
namespace ContactCards.Sink

variable {σ : Type} {sink : Sink σ} {s t : σ} {event : Event} {events xs ys : List Event}

theorem feed_more (h : sink.receive s event = (t, .more)) :
    sink.feed s (event :: events) = sink.feed t events := by
  simp [feed, h]

theorem feed_stop (h : sink.receive s event = (t, .stop)) :
    sink.feed s (event :: events) = (t, .stop) := by
  simp [feed, h]

/-- Events after others are handed over if the receiver wants to see them. -/
theorem feed_append (sink : Sink σ) (s : σ) (xs ys : List Event) :
    sink.feed s (xs ++ ys) =
      match sink.feed s xs with
      | (t, .more) => sink.feed t ys
      | (t, .stop) => (t, .stop) := by
  induction xs generalizing s with
  | nil => rfl
  | cons event xs ih =>
    rw [List.cons_append, feed, feed]
    cases sink.receive s event with
    | mk u flow =>
      cases flow with
      | more => exact ih u
      | stop => rfl

theorem feed_append_more (h : sink.feed s xs = (t, .more)) :
    sink.feed s (xs ++ ys) = sink.feed t ys := by
  rw [feed_append, h]

theorem feed_append_stop (h : sink.feed s xs = (t, .stop)) :
    sink.feed s (xs ++ ys) = (t, .stop) := by
  rw [feed_append, h]

/-- A receiver that wants to see more after events wanted to before. -/
theorem feed_prefix_more (h : (sink.feed s ys).2 = .more) (hp : xs <+: ys) :
    (sink.feed s xs).2 = .more := by
  obtain ⟨rest, rfl⟩ := hp
  cases hfeed : sink.feed s xs with
  | mk t flow =>
    cases flow with
    | more => rfl
    | stop =>
      rw [feed_append_stop hfeed] at h
      exact h

/-- Behind a stop neither events nor a fault count. -/
theorem play_stop {transcript : Transcript} (h : sink.feed s xs = (t, .stop))
    (hevents : transcript.events = xs ++ ys) : sink.play s transcript = (t, none) := by
  rw [play, hevents, feed_append_stop h]

/-- The receiver with the events that it is handed. -/
def recording (sink : Sink σ) : Sink (σ × List Event) where
  receive := fun (s, seen) event =>
    (((sink.receive s event).1, seen ++ [event]), (sink.receive s event).2)

theorem feed_recording_more {seen : List Event} (h : sink.feed s xs = (t, .more)) :
    sink.recording.feed (s, seen) xs = ((t, seen ++ xs), .more) := by
  induction xs generalizing s seen with
  | nil =>
    cases h
    rw [List.append_nil]
    rfl
  | cons event xs ih =>
    cases hreceive : sink.receive s event with
    | mk u flow =>
      cases flow with
      | more =>
        rw [feed_more hreceive] at h
        have hrecord : sink.recording.receive (s, seen) event = ((u, seen ++ [event]), .more) := by
          simp [recording, hreceive]
        rw [feed_more hrecord, ih h, List.append_assoc, List.singleton_append]
      | stop =>
        rw [feed_stop hreceive] at h
        cases h

/-- The receiver always wants to see more. -/
def NeverStops (sink : Sink σ) : Prop := ∀ s event, (sink.receive s event).2 = .more

theorem feed_of_neverStops (h : sink.NeverStops) (s : σ) (events : List Event) :
    (sink.feed s events).2 = .more := by
  induction events generalizing s with
  | nil => rfl
  | cons event events ih =>
    have hreceive : sink.receive s event = ((sink.receive s event).1, .more) :=
      Prod.ext rfl (h s event)
    rw [feed_more hreceive]
    exact ih _

/-- A receiver that never stops is handed all events, and hears of the fault. -/
theorem play_recording_of_neverStops (h : sink.NeverStops) (s : σ) (transcript : Transcript) :
    (sink.recording.play (s, []) transcript).1.2 = transcript.events ∧
      (sink.recording.play (s, []) transcript).2 = transcript.fault := by
  have hfeed : sink.feed s transcript.events = ((sink.feed s transcript.events).1, .more) :=
    Prod.ext rfl (feed_of_neverStops h s transcript.events)
  rw [play, feed_recording_more hfeed, List.nil_append]
  exact ⟨rfl, rfl⟩

/-- A receiver that stops is handed nothing after that. -/
theorem feed_recording_stop {seen : List Event} {u : σ} (hpre : sink.feed s xs = (u, .more))
    (hstop : sink.receive u event = (t, .stop)) :
    sink.recording.feed (s, seen) (xs ++ event :: ys) = ((t, seen ++ xs ++ [event]), .stop) := by
  have hrecord : sink.recording.receive (u, seen ++ xs) event =
      ((t, seen ++ xs ++ [event]), .stop) := by
    simp [recording, hstop]
  rw [feed_append_more (feed_recording_more hpre), feed_stop hrecord]

/-- A receiver that stops does so at one of the events. -/
theorem exists_stop (h : sink.feed s events = (t, .stop)) :
    ∃ (pre : List Event) (event : Event) (post : List Event) (u : σ),
      events = pre ++ event :: post ∧ sink.feed s pre = (u, .more) ∧
        sink.receive u event = (t, .stop) := by
  induction events generalizing s with
  | nil => cases h
  | cons event events ih =>
    cases hreceive : sink.receive s event with
    | mk u flow =>
      cases flow with
      | more =>
        rw [feed_more hreceive] at h
        obtain ⟨pre, last, post, v, rfl, hpre, hlast⟩ := ih h
        exact ⟨event :: pre, last, post, v, rfl, (feed_more hreceive).trans hpre, hlast⟩
      | stop =>
        rw [feed_stop hreceive] at h
        cases h
        exact ⟨[], event, events, s, rfl, rfl, hreceive⟩

end ContactCards.Sink
