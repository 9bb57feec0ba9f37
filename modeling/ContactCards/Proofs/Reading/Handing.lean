import ContactCards.Proofs.Markup.Feeding
import ContactCards.Proofs.Reading.Journal

/-! What a listener gets. Reading events for a listener is handing it the deliveries of the events
one by one until it stops. -/
namespace ContactCards

variable {σ : Type} {r : Registry} {x : Reader} {listener : Listener σ} {s : σ}
  {es : List Event} {d : Delivery} {ds : List Delivery}

namespace Listener

/-- Hands deliveries over until the listener stops. -/
def hand (listener : Listener σ) (s : σ) : List Delivery → σ × Flow
  | [] => (s, .more)
  | d :: ds =>
    match listener.take s d with
    | (s, .more) => listener.hand s ds
    | (s, .stop) => (s, .stop)

/-- A listener after deliveries, whether it wants more of them or not. -/
def after (listener : Listener σ) (s : σ) (ds : List Delivery) : σ :=
  ds.foldl (fun s d => (listener.take s d).1) s

theorem after_cons (listener : Listener σ) (s : σ) (d : Delivery) (ds : List Delivery) :
    listener.after s (d :: ds) = listener.after (listener.take s d).1 ds := rfl

theorem after_collect (taken ds : List Delivery) : collect.after taken ds = taken ++ ds := by
  induction ds generalizing taken with
  | nil => exact (List.append_nil taken).symm
  | cons d ds ih =>
    rw [after_cons, ih, List.append_cons]
    rfl

/-- The listener with the deliveries that it is handed. -/
def recording (listener : Listener σ) : Listener (σ × List Delivery) where
  take := fun (s, taken) d => (((listener.take s d).1, taken ++ [d]), (listener.take s d).2)

theorem after_recording (listener : Listener σ) (s : σ) (taken ds : List Delivery) :
    listener.recording.after (s, taken) ds = (listener.after s ds, taken ++ ds) := by
  induction ds generalizing s taken with
  | nil => simp [after]
  | cons d ds ih =>
    rw [after_cons, after_cons]
    exact (ih _ _).trans (by rw [List.append_assoc]; rfl)

/-- A listener that never stops. -/
def NeverStops (listener : Listener σ) : Prop := ∀ s d, (listener.take s d).2 = .more

theorem collect_neverStops : collect.NeverStops := fun _ _ => rfl

theorem hand_more (h : (listener.take s d).2 = .more) :
    listener.hand s (d :: ds) = listener.hand (listener.take s d).1 ds := by
  rw [hand]
  split
  · next t he => rw [he]
  · next t he => rw [he] at h; cases h

theorem hand_stop (h : (listener.take s d).2 = .stop) :
    listener.hand s (d :: ds) = ((listener.take s d).1, .stop) := by
  rw [hand]
  split
  · next t he => rw [he] at h; cases h
  · next t he => rw [he]

theorem hand_append_more {t : σ} (h : listener.hand s ds = (t, .more))
    (ds' : List Delivery) : listener.hand s (ds ++ ds') = listener.hand t ds' := by
  induction ds generalizing s with
  | nil =>
    cases h
    rfl
  | cons d ds ih =>
    cases hflow : (listener.take s d).2 with
    | more =>
      rw [hand_more hflow] at h
      rw [List.cons_append, hand_more hflow]
      exact ih h
    | stop =>
      rw [hand_stop hflow] at h
      cases h

/-- What a listener is handed is a prefix. -/
theorem exists_hand (listener : Listener σ) (s : σ) (ds : List Delivery) :
    ∃ taken, taken <+: ds ∧ (listener.hand s ds).1 = listener.after s taken := by
  induction ds generalizing s with
  | nil => exact ⟨[], List.prefix_refl [], rfl⟩
  | cons d ds ih =>
    cases hflow : (listener.take s d).2 with
    | more =>
      obtain ⟨taken, hprefix, hafter⟩ := ih (listener.take s d).1
      rw [hand_more hflow]
      exact ⟨d :: taken, List.cons_prefix_cons.mpr ⟨rfl, hprefix⟩, hafter⟩
    | stop =>
      rw [hand_stop hflow]
      exact ⟨[d], List.cons_prefix_cons.mpr ⟨rfl, List.nil_prefix⟩, rfl⟩

theorem hand_of_neverStops (h : listener.NeverStops) (s : σ) (ds : List Delivery) :
    listener.hand s ds = (listener.after s ds, .more) := by
  induction ds generalizing s with
  | nil => rfl
  | cons d ds ih => rw [hand_more (h s d), ih, after_cons]

end Listener

namespace Reader

theorem deliveries_cons (x : Reader) (e : Event) (es : List Event) :
    x.deliveries r (e :: es) = (x.step r e).2.toList ++ (x.step r e).1.deliveries r es := by
  rw [step_snd]
  cases e with
  | characters => rfl
  | start => rfl
  | finish =>
    simp only [deliveries, journal, Act.delivered, List.filterMap_cons]
    cases (x.act? .finish).bind Act.delivery? <;> rfl

theorem deliveries_append (x : Reader) (es es' : List Event) :
    x.deliveries r (es ++ es') = x.deliveries r es ++ (x.after r es).deliveries r es' := by
  simp only [deliveries, journal_append, Act.delivered, List.filterMap_append]

/-- Only the end of an element delivers a card. -/
theorem deliveries_of_notMem {es : List Event} (h : .finish ∉ es) (x : Reader) :
    x.deliveries r es = [] := by
  induction es generalizing x with
  | nil => rfl
  | cons e es ih =>
    rw [List.mem_cons, not_or] at h
    rw [deliveries_cons, ih h.2, List.append_nil]
    cases e with
    | start => rfl
    | characters => rfl
    | finish => exact absurd rfl h.1

theorem receive_none (listener : Listener σ) (s : σ) {e : Event} (h : (x.step r e).2 = none) :
    (sink r listener).receive (x, s) e = (((x.step r e).1, s), .more) := by
  simp only [sink]
  generalize x.step r e = after at h ⊢
  obtain ⟨y, d⟩ := after
  subst h
  rfl

theorem receive_some (listener : Listener σ) (s : σ) {e : Event} (h : (x.step r e).2 = some d) :
    (sink r listener).receive (x, s) e =
      (((x.step r e).1, (listener.take s d).1), (listener.take s d).2) := by
  simp only [sink]
  generalize x.step r e = after at h ⊢
  obtain ⟨y, d⟩ := after
  subst h
  rfl

/-- Reading for a listener is handing it the deliveries. -/
theorem feed_sink (r : Registry) (listener : Listener σ) (x : Reader) (s : σ) (es : List Event) :
    ((sink r listener).feed (x, s) es).1.2 = (listener.hand s (x.deliveries r es)).1 ∧
    ((sink r listener).feed (x, s) es).2 = (listener.hand s (x.deliveries r es)).2 ∧
    ((listener.hand s (x.deliveries r es)).2 = .more →
      ((sink r listener).feed (x, s) es).1.1 = x.after r es) := by
  induction es generalizing x s with
  | nil => exact ⟨rfl, rfl, fun _ => rfl⟩
  | cons e es ih =>
    rw [deliveries_cons]
    cases hd : (x.step r e).2 with
    | none =>
      rw [Sink.feed_more (receive_none listener s hd)]
      exact ih (x.step r e).1 s
    | some d =>
      have hreceive := receive_some listener s hd
      simp only [Option.toList_some, List.singleton_append]
      cases hflow : (listener.take s d).2 with
      | more =>
        rw [hflow] at hreceive
        rw [Sink.feed_more hreceive, Listener.hand_more hflow]
        exact ih (x.step r e).1 (listener.take s d).1
      | stop =>
        rw [hflow] at hreceive
        rw [Sink.feed_stop hreceive, Listener.hand_stop hflow]
        exact ⟨rfl, rfl, nofun⟩

end Reader
end ContactCards
