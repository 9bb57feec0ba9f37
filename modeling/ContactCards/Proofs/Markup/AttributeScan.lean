import ContactCards.Markup.AttributeList
import ContactCards.Proofs.Markup.Escaping

/-! An attribute list that was written entry by entry is read back. -/
namespace ContactCards.RawAttribute

variable {seen : Option (List (List UInt8 × Nat))} {position : Nat} {b : UInt8}
  {key value rest name : List UInt8} {pairs : List (List UInt8 × List UInt8)}

/-- The bytes that mean something in a tag. -/
def tagBytes : List UInt8 :=
  [9, 10, 13, 32, 33, 34, 38, 39, 47, 58, 59, 60, 61, 62, 63]

theorem endsKey_of_notMem (h : b ∉ tagBytes) : endsKey b = false := by
  rw [Bool.eq_false_iff]
  intro hends
  simp only [endsKey, isMarkupSpace, Bool.or_eq_true, beq_iff_eq] at hends
  rcases hends with rfl | ((rfl | rfl) | rfl) | rfl
  all_goals exact h (by decide)

theorem isMarkupSpace_of_notMem (h : b ∉ tagBytes) : isMarkupSpace b = false := by
  have hends := endsKey_of_notMem h
  rw [endsKey, Bool.or_eq_false_iff] at hends
  exact hends.2

/-- A key and a value as they are written. -/
def written (pair : List UInt8 × List UInt8) : List UInt8 :=
  32 :: (pair.1 ++ 61 :: 34 :: (pair.2 ++ [34]))

/-- A key and a value that can be written. -/
structure IsPlain (pair : List UInt8 × List UInt8) : Prop where
  named : pair.1 ≠ []
  key : ∀ b ∈ pair.1, b ∉ tagBytes
  value : ∀ b ∈ pair.2, b ≠ 34

theorem skipSpace_cons (h : isMarkupSpace b = false) :
    skipSpace position (b :: rest) = (position, b :: rest) := by
  have hb : ¬ isMarkupSpace b = true := by simp [h]
  rw [skipSpace, List.takeWhile_cons_of_neg hb, List.dropWhile_cons_of_neg hb]
  rfl

theorem skipSpace_space_cons (h : isMarkupSpace b = false) :
    skipSpace position (32 :: b :: rest) = (position + 1, b :: rest) := by
  have hb : ¬ isMarkupSpace b = true := by simp [h]
  rw [skipSpace, List.takeWhile_cons_of_pos rfl, List.dropWhile_cons_of_pos rfl,
    List.takeWhile_cons_of_neg hb, List.dropWhile_cons_of_neg hb]
  rfl

theorem equals_cons : equals position (61 :: rest) = .ok (position + 1, rest) := by
  simp only [equals, skipSpace_cons (b := 61) rfl]

theorem quotedValue_cons (h : ∀ b ∈ value, b ≠ 34) :
    quotedValue position (34 :: (value ++ 34 :: rest)) =
      .ok (value, position + value.length + 2, rest) := by
  have hvalue : ∀ b ∈ value, (b != 34) = true := by simpa using h
  have htake : (value ++ 34 :: rest).takeWhile (· != 34) = value :=
    takeWhile_append_cons hvalue rfl
  have hdrop : (value ++ 34 :: rest).dropWhile (· != 34) = 34 :: rest :=
    dropWhile_append_cons hvalue rfl
  simp only [quotedValue, skipSpace_cons (b := 34) rfl, htake, hdrop]
  rfl

/-- An entry that was written is read, and reading goes on behind it, unless its key is taken. -/
theorem entry_written (h : IsPlain (b :: key, value)) (rest : List UInt8) :
    ∃ next, entry seen position b (key ++ 61 :: 34 :: (value ++ 34 :: rest)) =
      match (seen.getD []).lookup (b :: key) with
      | some earlier => .error (.repeated position earlier)
      | none => .ok (⟨b :: key, position, value⟩, next, rest) := by
  have hkey : ∀ x ∈ key, (! endsKey x) = true := by
    intro x hx
    simp [endsKey_of_notMem (h.key x (List.mem_cons_of_mem b hx))]
  have htake (after : List UInt8) : (key ++ 61 :: after).takeWhile (! endsKey ·) = key :=
    takeWhile_append_cons hkey rfl
  have hdrop (after : List UInt8) : (key ++ 61 :: after).dropWhile (! endsKey ·) = 61 :: after :=
    dropWhile_append_cons hkey rfl
  simp only [entry, htake, hdrop, equals_cons, quotedValue_cons h.value]
  exact ⟨_, rfl⟩

/-- The list that starts with an entry that was written, read by one entry. -/
theorem scanFrom_cons (h : IsPlain (key, value)) (rest : List UInt8) :
    ∃ next, scanFrom seen position (written (key, value) ++ rest) =
      match (seen.getD []).lookup key with
      | some earlier => ([], some (.repeated (position + 1) earlier))
      | none =>
        let (more, fault) := scanFrom (seen.map ((key, position + 1) :: ·)) next rest
        (⟨key, position + 1, value⟩ :: more, fault) := by
  cases key with
  | nil => exact absurd rfl h.named
  | cons b key =>
    have hspace : isMarkupSpace b = false :=
      isMarkupSpace_of_notMem (h.key b List.mem_cons_self)
    have hskip : skipSpace position (written (b :: key, value) ++ rest) =
        (position + 1, b :: (key ++ 61 :: 34 :: (value ++ 34 :: rest))) := by
      simp [written, skipSpace_space_cons hspace]
    obtain ⟨next, hentry⟩ := entry_written h rest
    refine ⟨next, ?_⟩
    rw [scanFrom]
    split
    · next he =>
      rw [hskip] at he
      cases he
    · next he =>
      rw [hskip] at he
      cases he
      rw [hentry]
      cases (seen.getD []).lookup (b :: key) <;> rfl

/-- No key is taken or comes twice, if that matters. -/
def Fresh (seen : Option (List (List UInt8 × Nat))) (pairs : List (List UInt8 × List UInt8)) :
    Prop :=
  ∀ taken, seen = some taken →
    (pairs.map Prod.fst).Nodup ∧ ∀ pair ∈ pairs, taken.lookup pair.1 = none

theorem fresh_cons (position : Nat) {pair : List UInt8 × List UInt8} :
    Fresh seen (pair :: pairs) ↔
      (seen.getD []).lookup pair.1 = none ∧ Fresh (seen.map ((pair.1, position) :: ·)) pairs := by
  cases seen with
  | none => simp [Fresh]
  | some taken =>
    have hlookup (later : List UInt8 × List UInt8) :
        ((pair.1, position) :: taken).lookup later.1 = none ↔
          later.1 ≠ pair.1 ∧ taken.lookup later.1 = none := by
      rw [List.lookup_cons]
      cases h : later.1 == pair.1 with
      | true => simp [beq_iff_eq.mp h]
      | false => simp [beq_eq_false_iff_ne.mp h]
    have hnew : pair.1 ∉ pairs.map Prod.fst ↔ ∀ later ∈ pairs, later.1 ≠ pair.1 := by
      simp only [List.mem_map, not_exists, not_and]
    simp only [Fresh, Option.some.injEq, forall_eq', Option.map_some, Option.getD_some,
      List.map_cons, List.nodup_cons, List.forall_mem_cons, hlookup, imp_and, forall_and, hnew]
    constructor
    · rintro ⟨⟨hne, hnodup⟩, hpair, hpairs⟩
      exact ⟨hpair, hnodup, hne, hpairs⟩
    · rintro ⟨hpair, hnodup, hne, hpairs⟩
      exact ⟨⟨hne, hnodup⟩, hpair, hpairs⟩

/-- The entries of a list that was written are its keys and values, wherever they stand. There is a
fault just if a key comes twice and must not. -/
theorem scanFrom_written (seen : Option (List (List UInt8 × Nat))) (position : Nat)
    (hplain : ∀ pair ∈ pairs, IsPlain pair) :
    ∃ entries fault, scanFrom seen position (pairs.flatMap written) = (entries, fault) ∧
      (fault = none ↔ Fresh seen pairs) ∧
      (fault = none → entries.map (fun found => (found.key, found.value)) = pairs) := by
  induction pairs generalizing seen position with
  | nil =>
    refine ⟨[], none, by simp [scanFrom, skipSpace], ?_, fun _ => rfl⟩
    simp [Fresh]
  | cons pair pairs ih =>
    obtain ⟨hpair, hpairs⟩ := List.forall_mem_cons.mp hplain
    obtain ⟨next, hcons⟩ := scanFrom_cons hpair (pairs.flatMap written)
    rw [List.flatMap_cons, hcons, fresh_cons (position + 1)]
    cases hlookup : (seen.getD []).lookup pair.1 with
    | some earlier => exact ⟨[], some (.repeated (position + 1) earlier), rfl, by simp, nofun⟩
    | none =>
      obtain ⟨entries, fault, hscan, hfault, hentries⟩ :=
        ih (seen.map ((pair.1, position + 1) :: ·)) next hpairs
      refine ⟨⟨pair.1, position + 1, pair.2⟩ :: entries, fault, ?_, ?_, ?_⟩
      · simp only [hscan]
      · simpa using hfault
      · intro hnone
        rw [List.map_cons, hentries hnone]

/-- The name in a start tag that was written, and its entries. -/
theorem scan_written (distinct : Bool) (hname : ∀ b ∈ name, isMarkupSpace b = false)
    (hplain : ∀ pair ∈ pairs, IsPlain pair) :
    nameOf (name ++ pairs.flatMap written) = name ∧
      ∃ entries fault, scan distinct (name ++ pairs.flatMap written) = (entries, fault) ∧
        (fault = none ↔ (distinct = true → (pairs.map Prod.fst).Nodup)) ∧
        (fault = none → entries.map (fun found => (found.key, found.value)) = pairs) := by
  have hname : ∀ b ∈ name, (! isMarkupSpace b) = true := by simpa using hname
  have hends : (name ++ pairs.flatMap written).takeWhile (! isMarkupSpace ·) = name ∧
      (name ++ pairs.flatMap written).dropWhile (! isMarkupSpace ·) = pairs.flatMap written := by
    cases pairs with
    | nil =>
      rw [List.flatMap_nil, List.takeWhile_append_of_pos hname,
        List.dropWhile_append_of_pos hname]
      exact ⟨List.append_nil name, rfl⟩
    | cons pair pairs => exact ⟨takeWhile_append_cons hname rfl, dropWhile_append_cons hname rfl⟩
  have hfresh : Fresh (if distinct then some [] else none) pairs ↔
      (distinct = true → (pairs.map Prod.fst).Nodup) := by
    cases distinct <;> simp [Fresh]
  refine ⟨hends.1, ?_⟩
  rw [scan, hends.2, ← hfresh]
  exact scanFrom_written _ _ hplain

end ContactCards.RawAttribute
