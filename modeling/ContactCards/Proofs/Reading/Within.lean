import ContactCards.Proofs.Reading.Stopping

/-! Reading within a limit. What a listener gets that wants all are the first cards of the input, and
a fault behind the last card that the limit allows does not count; one that stops gets the first of
these cards. -/
namespace ContactCards

variable {σ : Type} {r : Registry} {listener : Listener σ} {s : σ} {ds : List Delivery}
  {limit : Option Nat} {input : Input} {k : Nat}

namespace Listener

/-- Given deliveries, a listener first stops at one of its calls, or not at all. -/
theorem exists_stopsFirstAt (listener : Listener σ) (s : σ) (ds : List Delivery) :
    ∃ k, listener.StopsFirstAt k s ds := by
  induction ds generalizing s with
  | nil => exact ⟨1, trivial⟩
  | cons d ds ih =>
    cases hflow : (listener.take s d).2 with
    | more =>
      obtain ⟨k, h⟩ := ih (listener.take s d).1
      match k, h.pos with
      | k + 1, _ => exact ⟨k + 2, hflow, h⟩
    | stop => exact ⟨1, hflow⟩

/-- A listener that wants to see more as long as an invariant holds does not stop. -/
theorem stopsFirstAt_of_invariant {P : σ → Prop}
    (hstep : ∀ s d, P s → P (listener.take s d).1 ∧ (listener.take s d).2 = .more)
    (hs : P s) (ds : List Delivery) : listener.StopsFirstAt (ds.length + 1) s ds := by
  induction ds generalizing s with
  | nil => trivial
  | cons d ds ih =>
    obtain ⟨hnext, hmore⟩ := hstep s d hs
    exact ⟨hmore, ih hnext⟩

theorem stopsFirstAt_of_neverStops (h : listener.NeverStops) (s : σ) (ds : List Delivery) :
    listener.StopsFirstAt (ds.length + 1) s ds :=
  stopsFirstAt_of_invariant (P := fun _ => True) (fun s d _ => ⟨trivial, h s d⟩) trivial ds

end Listener

namespace Input

/-- The cards that a limit allows. -/
def allowed (limit : Option Nat) (cards : List Delivery) : List Delivery :=
  limit.elim cards (cards.take ·)

/-- The cards that an input has within a limit, and the fault that reading it gets to. -/
def readWithin (input : Input) (r : Registry) (limit : Option Nat) :
    List Delivery × Option Fault :=
  let (cards, fault) := input.read r .collect []
  (allowed limit cards, if limitReached limit cards.length then none else fault)

theorem readWithin_eq (input : Input) (r : Registry) (limit : Option Nat) :
    input.readWithin r limit = (allowed limit (input.deliveries r),
      if limitReached limit (input.deliveries r).length then none
      else input.transcript.fault) := by
  rw [readWithin, read_collect]

/-- A failure of reading loses no card that ends before it. It is a fault, or one comes before it,
unless the limit does. -/
theorem readWithin_interrupted (bytes : List UInt8) (reason : String) (r : Registry)
    (limit : Option Nat) :
    ((interrupted bytes reason).readWithin r limit).1 =
        ((document bytes).readWithin r limit).1 ∧
      (((interrupted bytes reason).readWithin r limit).2 = none ↔
        limitReached limit ((document bytes).deliveries r).length) := by
  obtain ⟨rest, hevents, hrest⟩ := Transcript.events_ofInterrupted bytes reason
  have hdeliveries : (document bytes).deliveries r = (interrupted bytes reason).deliveries r := by
    have hbytes : (document bytes).transcript.events = _ := hevents
    rw [deliveries, hbytes, Reader.deliveries_append, Reader.deliveries_of_notMem hrest,
      List.append_nil]
    rfl
  have hfault : (interrupted bytes reason).transcript.fault ≠ none :=
    Transcript.fault_ofInterrupted bytes reason
  rw [readWithin_eq, readWithin_eq, hdeliveries]
  by_cases hreached : limitReached limit ((interrupted bytes reason).deliveries r).length <;>
    simp [hreached, hfault]

/-- A listener that does not stop itself is stopped after the cards that a limit allows. -/
theorem stopWithin_eq (h : limit ≠ some 0) (ds : List Delivery) :
    ds.take (stopWithin (ds.length + 1) limit) = allowed limit ds ∧
      (stopWithin (ds.length + 1) limit ≤ ds.length ↔ limitReached limit ds.length) := by
  cases limit with
  | none =>
    refine ⟨List.take_of_length_le (Nat.le_succ _), ?_⟩
    simp [stopWithin, limitReached]
  | some most =>
    have hmost : most ≠ 0 := by
      intro hzero
      exact h (congrArg some hzero)
    constructor
    · by_cases hle : most ≤ ds.length
      · have hmin : min (ds.length + 1) (max most 1) = most := by omega
        simp [stopWithin, allowed, hmin]
      · have hall : ds.length ≤ min (ds.length + 1) (max most 1) := by omega
        have hmore : ds.length ≤ most := by omega
        simp only [stopWithin, allowed, Option.elim]
        rw [List.take_of_length_le hall, List.take_of_length_le hmore]
    · simp only [stopWithin, limitReached, Option.map_some, Option.getD_some, decide_eq_true_eq]
      omega

/-- Reading within a limit, for a listener that does not stop itself. -/
theorem read_limited (input : Input) (r : Registry) (h : limit ≠ some 0)
    (hlistener : listener.StopsFirstAt ((input.deliveries r).length + 1) s (input.deliveries r)) :
    input.read r (listener.limited (limitReached limit)) (s, 0) =
      ((listener.after s (input.readWithin r limit).1, (input.readWithin r limit).1.length),
        (input.readWithin r limit).2) := by
  obtain ⟨htake, hreached⟩ := stopWithin_eq h (input.deliveries r)
  have hread := read_of_stopsFirstAt (stopsFirstAt_limit limit hlistener)
  rw [Listener.after_limited, Nat.zero_add, htake] at hread
  rw [hread, readWithin_eq]
  simp only [hreached]

/-- If there are as many cards as a limit allows, they stand in some first bytes, and the others may
be any. -/
theorem exists_head_within {document : List UInt8} (h : limit ≠ some 0)
    (hreached : limitReached limit ((Input.document document).deliveries r).length) :
    ∃ head rest : List UInt8, document = head ++ rest ∧ ∀ tail,
      (Input.document (head ++ tail)).readWithin r limit =
        (((Input.document document).readWithin r limit).1, none) := by
  let listener := Listener.collect.limited (limitReached limit)
  have hcollect (input : Input) : Listener.collect.StopsFirstAt
      ((input.deliveries r).length + 1) [] (input.deliveries r) :=
    Listener.stopsFirstAt_of_neverStops Listener.collect_neverStops _ _
  have hread : ∀ input : Input, input.read r listener ([], 0) =
      (((input.readWithin r limit).1, (input.readWithin r limit).1.length),
        (input.readWithin r limit).2) := by
    intro input
    have hlimited := read_limited input r h (hcollect input)
    rwa [Listener.after_collect, List.nil_append] at hlimited
  have hnone : ((Input.document document).readWithin r limit).2 = none := by
    rw [readWithin_eq]
    exact if_pos hreached
  have hstops := stopsFirstAt_limit limit (hcollect (.document document))
  obtain ⟨pre, hends⟩ := exists_endsAfter hstops ((stopWithin_eq h _).2.mpr hreached)
  obtain ⟨head, rest, hbytes, -, htail⟩ := hends.exists_head
  refine ⟨head, rest, hbytes, ?_⟩
  intro tail
  have heq := htail tail
  rw [hread, hread, hnone] at heq
  obtain ⟨hcards, hfault⟩ := Prod.mk.inj heq
  exact Prod.ext (Prod.mk.inj hcards).1 hfault

/-- With `n` cards, a stop at call `k` is the stop at call `k` among the cards within the limit, unless
there is no stop at all. -/
theorem stopWithin_eq_min (k : Nat) (limit : Option Nat) (n : Nat) :
    stopWithin k limit = min k (stopWithin (n + 1) limit) ∨
      n < stopWithin k limit ∧ n < min k (stopWithin (n + 1) limit) := by
  cases limit with
  | none =>
    simp only [stopWithin]
    omega
  | some most =>
    simp only [stopWithin]
    omega

/-- The cards of an input within a limit: those that a listener gets that keeps them all. -/
def kept (input : Input) (r : Registry) (limit : Option Nat) : List Delivery :=
  (input.readLimited r limit .collect []).1

/-- Reading within a limit is reading the cards within the limit: the listener gets them up to its
own stop, and if it does not stop, reading ends as it does for a listener that keeps them all. -/
theorem readLimited_eq_kept (limit : Option Nat)
    (h : listener.StopsFirstAt k s (input.deliveries r)) :
    input.readLimited r limit listener s =
      (listener.after s ((input.kept r limit).take k),
        if k ≤ (input.kept r limit).length then .ok k
        else (input.readLimited r limit .collect []).2) := by
  have hcollect := Listener.stopsFirstAt_of_neverStops Listener.collect_neverStops []
    (input.deliveries r)
  simp only [kept, readLimited_eq limit h, readLimited_eq limit hcollect, Listener.after_collect,
    List.nil_append, List.length_take, List.take_take]
  generalize hn : (input.deliveries r).length = n
  rcases stopWithin_eq_min k limit n with hmin | ⟨hnone, hnone'⟩
  · rw [hmin]
    by_cases hk : k ≤ stopWithin (n + 1) limit
    · rw [Nat.min_eq_left hk]
      by_cases hkn : k ≤ n
      · rw [if_pos hkn, if_pos (Nat.le_min.mpr ⟨hk, hkn⟩)]
      · rw [if_neg hkn, if_neg (by omega), if_neg (by omega)]
    · have hlate : ¬ k ≤ min (stopWithin (n + 1) limit) n := by omega
      rw [Nat.min_eq_right (by omega), if_neg hlate]
  · rw [List.take_of_length_le (by omega), List.take_of_length_le (by omega),
      if_neg (by omega), if_neg (by omega), if_neg (by omega)]

theorem kept_eq_take (input : Input) (r : Registry) (limit : Option Nat) :
    input.kept r limit = (input.deliveries r).take
      (stopWithin ((input.deliveries r).length + 1) limit) := by
  rw [kept, readLimited_eq limit (Listener.stopsFirstAt_of_neverStops Listener.collect_neverStops _ _)]
  exact Listener.after_collect _ _

/-- Reading within a limit for a listener ends with the end tag that completes card `k`. Nothing that
follows is looked at: in a document it may be anything. -/
def EndsWithin (input : Input) (r : Registry) (limit : Option Nat) (listener : Listener σ) (s : σ)
    (k : Nat) : Prop :=
  ∃ pre, input.EndsAfter r (listener.limited (limitReached limit)) (s, 0) k pre ∧
    ∀ document, input = .document document → ∃ head rest : List UInt8,
      document = head ++ rest ∧ (Transcript.ofDocument head).events = pre ++ [.finish] ∧
      ∀ tail, (Input.document (head ++ tail)).readLimited r limit listener s =
        input.readLimited r limit listener s

/-- A listener that stops at a card within the limit ends the reading with that card. -/
theorem endsWithin_of_stopsFirstAt (h : listener.StopsFirstAt k s (input.deliveries r))
    (hk : k ≤ (input.kept r limit).length) : input.EndsWithin r limit listener s k := by
  rw [kept_eq_take, List.length_take] at hk
  have hstop : stopWithin k limit = k := by
    rcases stopWithin_eq_min k limit (input.deliveries r).length with hmin | ⟨-, hnone⟩ <;> omega
  have hlimited := stopsFirstAt_limit limit h
  rw [hstop] at hlimited
  obtain ⟨pre, hends⟩ := exists_endsAfter hlimited (by omega)
  refine ⟨pre, hends, ?_⟩
  rintro document rfl
  obtain ⟨head, rest, hbytes, hhead, htail⟩ := hends.exists_head
  refine ⟨head, rest, hbytes, hhead, ?_⟩
  intro tail
  rw [readLimited, readLimited, htail]

end Input

end ContactCards
