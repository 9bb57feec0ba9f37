import ContactCards.Proofs.Markup.Prefix
import ContactCards.Proofs.Reading.InputRun

/-! Reading that a listener stops, or a limit. What the listener gets is a prefix of what it would
get otherwise, and nothing after the stop matters. -/
namespace ContactCards

variable {σ : Type} {r : Registry} {listener : Listener σ} {s : σ} {d : Delivery}
  {ds ds' : List Delivery} {k n : Nat} {input : Input}

namespace Listener

/-- When it is given deliveries, the listener first stops at call `k`, if there are so many. -/
def StopsFirstAt (listener : Listener σ) : Nat → σ → List Delivery → Prop
  | 0, _, _ => False
  | _ + 1, _, [] => True
  | 1, s, d :: _ => (listener.take s d).2 = .stop
  | k + 2, s, d :: ds =>
    (listener.take s d).2 = .more ∧ listener.StopsFirstAt (k + 1) (listener.take s d).1 ds

theorem StopsFirstAt.pos (h : listener.StopsFirstAt k s ds) : 0 < k := by
  cases k with
  | zero => exact h.elim
  | succ k => exact Nat.succ_pos k

theorem StopsFirstAt.of_append (h : listener.StopsFirstAt k s (ds ++ ds')) :
    listener.StopsFirstAt k s ds := by
  induction ds generalizing k s with
  | nil =>
    match k, h.pos with
    | k + 1, _ => trivial
  | cons d ds ih =>
    match k, h with
    | 1, h => exact h
    | k + 2, ⟨hmore, h⟩ => exact ⟨hmore, ih h⟩

/-- The listener gets the deliveries up to its stop. -/
theorem hand_of_stopsFirstAt (h : listener.StopsFirstAt k s ds) :
    listener.hand s ds =
      (listener.after s (ds.take k), if k ≤ ds.length then .stop else .more) := by
  induction ds generalizing k s with
  | nil =>
    have hk := h.pos
    rw [if_neg (by simp; omega), List.take_nil]
    rfl
  | cons d ds ih =>
    match k, h with
    | 1, h =>
      rw [hand_stop h, if_pos (by simp)]
      rfl
    | k + 2, ⟨hmore, h⟩ =>
      rw [hand_more hmore, ih h, List.take_succ_cons, List.length_cons, after_cons]
      simp

/-- The call that a listener stops at is call `k`. -/
theorem StopsFirstAt.length_eq {u : σ} (h : listener.StopsFirstAt k s (ds ++ d :: ds'))
    (hds : listener.hand s ds = (u, .more)) (hstop : (listener.take u d).2 = .stop) :
    ds.length + 1 = k := by
  have hbefore := congrArg Prod.snd (hand_of_stopsFirstAt h.of_append)
  rw [List.append_cons] at h
  have hat := congrArg Prod.snd (hand_of_stopsFirstAt h.of_append)
  rw [hds] at hbefore
  rw [hand_append_more hds, hand_stop hstop, List.length_append, List.length_singleton] at hat
  have hlt : ¬ k ≤ ds.length := by
    intro hk
    rw [if_pos hk] at hbefore
    cases hbefore
  have hle : k ≤ ds.length + 1 := by
    by_cases hk : k ≤ ds.length + 1
    · exact hk
    · rw [if_neg hk] at hat
      cases hat
  omega

theorem stopsFirstAt_recording {taken : List Delivery} (h : listener.StopsFirstAt k s ds) :
    listener.recording.StopsFirstAt k (s, taken) ds := by
  induction ds generalizing k s taken with
  | nil =>
    match k, h with
    | k + 1, _ => trivial
  | cons d ds ih =>
    match k, h with
    | 1, h => exact h
    | k + 2, ⟨hmore, h⟩ => exact ⟨hmore, ih h⟩

theorem after_limited (isEnough : Nat → Bool) (s : σ) (n : Nat) (ds : List Delivery) :
    (listener.limited isEnough).after (s, n) ds = (listener.after s ds, n + ds.length) := by
  induction ds generalizing s n with
  | nil => rfl
  | cons d ds ih =>
    rw [after_cons, after_cons, List.length_cons, Nat.add_comm ds.length 1, ← Nat.add_assoc]
    exact ih _ _

/-- A limited listener stops at call `m` if the limit is not reached before, and if the limit is
reached or the listener stops at that call. -/
theorem stopsFirstAt_limited {isEnough : Nat → Bool} {m : Nat} (hm : 0 < m) (hk : m ≤ k)
    (hbefore : ∀ i, 0 < i → i < m → isEnough (n + i) = false)
    (hat : m = k ∨ isEnough (n + m) = true) (h : listener.StopsFirstAt k s ds) :
    (listener.limited isEnough).StopsFirstAt m (s, n) ds := by
  induction ds generalizing k m n s with
  | nil =>
    match m, hm with
    | m + 1, _ => trivial
  | cons d ds ih =>
    match m, hm with
    | 1, _ =>
      rcases hat with rfl | hat
      · by_cases henough : isEnough (n + 1) = true
        · exact if_pos henough
        · exact (if_neg henough).trans h
      · exact if_pos hat
    | m + 2, _ =>
      match k, hk, h with
      | k + 2, hk, ⟨hmore, h⟩ =>
        have hno : isEnough (n + 1) = false := hbefore 1 (by omega) (by omega)
        refine ⟨(if_neg (by simp [hno])).trans hmore, ih (by omega) (by omega) ?_ ?_ h⟩
        · intro i hi him
          rw [Nat.add_assoc]
          exact hbefore (1 + i) (by omega) (by omega)
        · rcases hat with hat | hat
          · exact Or.inl (by omega)
          · right
            rw [Nat.add_assoc, Nat.add_comm 1]
            exact hat

end Listener

namespace Input

/-- The call that a listener is stopped at when it would first stop at call `k` itself. The limit is
looked at after a call, so there is always one. -/
def stopWithin (k : Nat) (limit : Option Nat) : Nat :=
  match limit with
  | none => k
  | some most => min k (max most 1)

theorem stopsFirstAt_limit (limit : Option Nat) (h : listener.StopsFirstAt k s ds) :
    (listener.limited (limitReached limit)).StopsFirstAt (stopWithin k limit) (s, 0) ds := by
  have hpos := h.pos
  cases limit with
  | none =>
    exact Listener.stopsFirstAt_limited hpos (Nat.le_refl k) (fun _ _ _ => rfl) (Or.inl rfl) h
  | some most =>
    refine Listener.stopsFirstAt_limited ?_ ?_ ?_ ?_ h
    · simp only [stopWithin]
      omega
    · simp only [stopWithin]
      omega
    · intro i hi him
      simp only [stopWithin] at him
      simp [limitReached]
      omega
    · by_cases hmost : k ≤ max most 1
      · left
        simp only [stopWithin]
        omega
      · right
        simp [stopWithin, limitReached]
        omega

/-- Reading for a listener that first stops at call `k`. -/
theorem read_of_stopsFirstAt (h : listener.StopsFirstAt k s (input.deliveries r)) :
    input.read r listener s =
      (listener.after s ((input.deliveries r).take k),
        if k ≤ (input.deliveries r).length then none else input.transcript.fault) := by
  rw [read_eq, Listener.hand_of_stopsFirstAt h]
  by_cases hk : k ≤ (input.deliveries r).length
  · simp [hk]
  · simp [hk]

/-- Reading for a listener ends with the end tag after the events `pre`, which completes card
`k`. -/
structure EndsAfter (input : Input) (r : Registry) (listener : Listener σ) (s : σ) (k : Nat)
    (pre : List Event) : Prop where
  here : ∃ post, input.transcript.events = pre ++ .finish :: post
  before : Reader.empty.deliveries r pre = (input.deliveries r).take (k - 1)
  upTo : Reader.empty.deliveries r (pre ++ [.finish]) = (input.deliveries r).take k
  /-- No event after that tag is handed over. -/
  seen : ((Reader.sink r listener).recording.feed ((.empty, s), [])
    input.transcript.events).1.2 = pre ++ [.finish]
  /-- Neither events nor faults after that tag make a difference. -/
  unaffected : ∀ other : Input, pre ++ [.finish] <+: other.transcript.events →
    other.read r listener s = input.read r listener s

end Input

namespace Reader

/-- A reader stops at the end of an element, where its listener is handed a card and stops. -/
theorem receive_stop {x : Reader} {event : Event} {y : Reader × σ}
    (h : (sink r listener).receive (x, s) event = (y, .stop)) :
    event = .finish ∧ ∃ d, (x.step r event).2 = some d ∧ (listener.take s d).2 = .stop := by
  cases hd : (x.step r event).2 with
  | none =>
    rw [receive_none listener s hd] at h
    cases h
  | some d =>
    rw [receive_some listener s hd] at h
    have hfinish : event = .finish := by
      cases event with
      | finish => rfl
      | start => cases hd
      | characters => cases hd
    exact ⟨hfinish, d, rfl, congrArg Prod.snd h⟩

end Reader

namespace Input

/-- A listener that stops ends the reading with the card that it stops at. -/
theorem exists_endsAfter (h : listener.StopsFirstAt k s (input.deliveries r))
    (hk : k ≤ (input.deliveries r).length) : ∃ pre, input.EndsAfter r listener s k pre := by
  obtain ⟨-, hflow, -⟩ := Reader.feed_sink r listener .empty s input.transcript.events
  rw [← deliveries, Listener.hand_of_stopsFirstAt h] at hflow
  simp only [if_pos hk] at hflow
  have hfeed : (Reader.sink r listener).feed (.empty, s) input.transcript.events =
      (_, .stop) := Prod.ext rfl hflow
  obtain ⟨pre, event, post, ⟨x, u⟩, hevents, hpre, hlast⟩ := Sink.exists_stop hfeed
  obtain ⟨rfl, d, hd, hstop⟩ := Reader.receive_stop hlast
  obtain ⟨hstate, hmore, hplace⟩ := Reader.feed_sink r listener .empty s pre
  rw [hpre] at hstate hmore hplace
  obtain rfl : x = Reader.empty.after r pre := hplace hmore.symm
  have hupTo : Reader.empty.deliveries r (pre ++ [.finish]) =
      Reader.empty.deliveries r pre ++ [d] := by
    rw [Reader.deliveries_append, Reader.deliveries_cons, hd]
    rfl
  have hall : input.deliveries r = Reader.empty.deliveries r pre ++ d ::
      ((Reader.empty.after r pre).step r .finish).1.deliveries r post := by
    rw [deliveries, hevents, Reader.deliveries_append, Reader.deliveries_cons, hd]
    rfl
  have hlength : (Reader.empty.deliveries r pre).length + 1 = k := by
    rw [hall] at h
    exact h.length_eq (Prod.ext hstate.symm hmore.symm) hstop
  refine ⟨pre, ⟨post, hevents⟩, ?_, ?_, ?_, ?_⟩
  · rw [hall, ← hlength]
    simp
  · have hlast : (Reader.empty.deliveries r pre ++ [d]).length = k := by
      rw [← hlength, List.length_append, List.length_singleton]
    rw [List.append_cons] at hall
    rw [hupTo, hall, List.take_left' hlast]
  · rw [hevents, Sink.feed_recording_stop hpre hlast]
    rfl
  · intro other hprefix
    obtain ⟨rest, hrest⟩ := hprefix
    have hstopped : (Reader.sink r listener).feed (.empty, s) (pre ++ [.finish]) = _ :=
      (Sink.feed_append_more hpre).trans (Sink.feed_stop hlast)
    rw [read, read, Sink.play_stop hstopped hrest.symm,
      Sink.play_stop hstopped (hevents.trans (List.append_cons ..))]

/-- In a document that tag stands at the end of some first bytes, and the others may be any. -/
theorem EndsAfter.exists_head {document : List UInt8} {pre : List Event}
    (h : (Input.document document).EndsAfter r listener s k pre) :
    ∃ head rest : List UInt8, document = head ++ rest ∧
      (Transcript.ofDocument head).events = pre ++ [.finish] ∧
      ∀ tail, (Input.document (head ++ tail)).read r listener s =
        (Input.document document).read r listener s := by
  obtain ⟨post, hevents⟩ := h.here
  obtain ⟨head, rest, hbytes, hhead, htail⟩ := Transcript.exists_head hevents
  exact ⟨head, rest, hbytes, hhead, fun tail => h.unaffected _ (htail tail)⟩

/-- The cards that an input delivers are those whose end tags are among its tags. -/
theorem deliveries_eq_take {tree : Content} (h : tree.Completes input.transcript) (r : Registry) :
    input.deliveries r =
      Act.delivered ((tree.acts r .outside).take (Event.tags input.transcript.events)) := by
  rw [deliveries, Reader.deliveries, h.journal_eq]

/-- Reading up to a limit for a listener that would first stop at call `k` itself. -/
theorem readLimited_eq (limit : Option Nat)
    (h : listener.StopsFirstAt k s (input.deliveries r)) :
    input.readLimited r limit listener s =
      (listener.after s ((input.deliveries r).take (stopWithin k limit)),
        if stopWithin k limit ≤ (input.deliveries r).length then .ok (stopWithin k limit)
        else input.transcript.fault.elim (.ok (input.deliveries r).length) .error) := by
  have hread := read_of_stopsFirstAt (stopsFirstAt_limit limit h)
  rw [Listener.after_limited, Nat.zero_add, List.length_take] at hread
  rw [readLimited, hread]
  by_cases hk : stopWithin k limit ≤ (input.deliveries r).length
  · simp [hk]
  · have hall : min (stopWithin k limit) (input.deliveries r).length = _ :=
      Nat.min_eq_right (Nat.le_of_not_le hk)
    rw [if_neg hk, if_neg hk, hall]
    cases input.transcript.fault <;> rfl

/-- The count of a reading that ends without a fault is that of the cards that the listener got. -/
theorem readLimited_of_stopsFirstAt (limit : Option Nat)
    (h : listener.StopsFirstAt k s (input.deliveries r)) :
    (input.readLimited r limit listener s).1 =
        listener.after s ((input.deliveries r).take (stopWithin k limit)) ∧
      ∀ n, (input.readLimited r limit listener s).2 = .ok n →
        n = ((input.deliveries r).take (stopWithin k limit)).length := by
  rw [readLimited_eq limit h, List.length_take]
  refine ⟨rfl, ?_⟩
  intro n hn
  split at hn
  · next hk => exact (Except.ok.inj hn).symm.trans (Nat.min_eq_left hk).symm
  · next hk =>
    cases hfault : input.transcript.fault with
    | none =>
      rw [hfault] at hn
      exact (Except.ok.inj hn).symm.trans (Nat.min_eq_right (Nat.le_of_not_le hk)).symm
    | some fault => rw [hfault] at hn; cases hn

end Input

/-- A listener that first stops at call `k` gets the first `k` cards of those that the input has, or
all if there are fewer. If there are as many, reading ends there without a fault; otherwise it ends
as it does for a listener that never stops. -/
theorem stopping_takes_prefix (input : Input) (r : Registry) {listener : Listener σ} {s : σ}
    {k : Nat} (h : listener.StopsFirstAt k s (input.read r .collect []).1) :
    let cards := (input.read r .collect []).1
    let stopped := input.read r listener.recording (s, [])
    stopped.1.2 = cards.take k ∧
    (k ≤ cards.length → stopped.2 = none ∧
      ∃ pre, input.EndsAfter r listener.recording (s, []) k pre ∧
        ∀ document, input = .document document → ∃ head rest, document = head ++ rest ∧
          (Transcript.ofDocument head).events = pre ++ [.finish] ∧
          ∀ tail, (Input.document (head ++ tail)).read r listener.recording (s, []) = stopped) ∧
    (cards.length < k → stopped.2 = (input.read r .collect []).2) ∧
    (∃ tree : Content, tree.Completes input.transcript ∧ cards =
      Act.delivered ((tree.acts r .outside).take (Event.tags input.transcript.events))) ∧
    ∀ limit,
      let limited := input.readLimited r limit listener.recording (s, [])
      limited.1.2 = cards.take (Input.stopWithin k limit) ∧
        ∀ n, limited.2 = .ok n → n = limited.1.2.length := by
  rw [Input.read_collect] at h ⊢
  intro cards stopped
  have hrecording : listener.recording.StopsFirstAt k (s, []) cards :=
    Listener.stopsFirstAt_recording h
  have hstopped : stopped = ((listener.after s (cards.take k), cards.take k),
      if k ≤ cards.length then none else input.transcript.fault) := by
    have hafter := listener.after_recording s [] (cards.take k)
    rw [List.nil_append] at hafter
    rw [← hafter]
    exact Input.read_of_stopsFirstAt hrecording
  refine ⟨?_, ?_, ?_, ?_, ?_⟩
  · rw [hstopped]
  · intro hk
    obtain ⟨pre, hends⟩ := Input.exists_endsAfter hrecording hk
    refine ⟨by rw [hstopped, if_pos hk], pre, hends, ?_⟩
    rintro document rfl
    exact hends.exists_head
  · intro hk
    rw [hstopped, if_neg (by omega)]
  · obtain ⟨tree, htree⟩ := input.exists_completes
    exact ⟨tree, htree, Input.deliveries_eq_take htree r⟩
  · intro limit limited
    obtain ⟨htaken, hcount⟩ := Input.readLimited_of_stopsFirstAt limit hrecording
    rw [Listener.after_recording, List.nil_append] at htaken
    have htaken : limited.1.2 = cards.take (Input.stopWithin k limit) := congrArg Prod.snd htaken
    refine ⟨htaken, ?_⟩
    intro n hn
    rw [htaken]
    exact hcount n hn

/-- Two cards, and a listener that stops at the first. -/
theorem stopping_takes_prefix_first :
    let input : Input :=
      .tree ⟨.vcards, [], .element .vcard [] .empty (.element .vcard [] .empty .empty)⟩
    let listener : Listener Unit := ⟨fun _ _ => ((), .stop)⟩
    listener.StopsFirstAt 1 () (input.read .empty .collect []).1 ∧
    input.read .empty .collect [] = ([.empty, .empty], none) ∧
    (input.read .empty listener.recording ((), [])).1.2 = [.empty] ∧
    (input.readLimited .empty (some 3) listener.recording ((), [])).1.2 = [.empty] := by
  intro input listener
  have hread : input.read .empty .collect [] = ([.empty, .empty], none) := rfl
  have h : listener.StopsFirstAt 1 () (input.read .empty .collect []).1 := by
    rw [hread]
    rfl
  obtain ⟨htaken, -, -, -, hlimited⟩ := stopping_takes_prefix input .empty h
  exact ⟨h, hread, htaken, (hlimited (some 3)).1⟩

end ContactCards
