import ContactCards.Text.Numeral
import Mathlib

/-! Which texts are read as numerals: digits alone, at least one, with a number that is not above
the limit. Leading zeros do not count, however many there are. -/
namespace ContactCards.Numeral

variable {base limit value n d : Nat} {c : Char} {cs : List Char}

/-- A digit of a base and its value, letters in either case. -/
def IsDigit (base : Nat) (c : Char) (d : Nat) : Prop :=
  d < base ∧ (c = d.digitChar ∨ c = d.digitChar.toUpper)

/-- Characters write a number: they are digits, at least one, the most significant first. -/
def Writes (base : Nat) (cs : List Char) (n : Nat) : Prop :=
  cs ≠ [] ∧ ∃ ds, List.Forall₂ (IsDigit base) cs ds ∧ n = Nat.ofDigits base ds.reverse

theorem digitValue_digitChar (h : d < 16) :
    digitValue d.digitChar = some d ∧ digitValue d.digitChar.toUpper = some d := by
  interval_cases d <;> exact ⟨rfl, rfl⟩

/-- A character with a value below sixteen is a digit or one of the first letters. -/
theorem eq_digitChar (h : digitValue c = some d) (hd : d < 16) :
    c = d.digitChar ∨ c = d.digitChar.toUpper := by
  have hc : c = Char.ofNat c.toNat := (Char.ofNat_toNat c).symm
  rw [digitValue] at h
  split at h
  · next hdigit =>
    have hrange : 48 ≤ c.toNat ∧ c.toNat ≤ 57 := by
      simpa [Char.isDigit, UInt32.le_iff_toNat_le] using hdigit
    have hvalue : c.toNat - 48 = d := Option.some.inj h
    have hcode : c.toNat = 48 + d := by omega
    have hten : d < 10 := by omega
    rw [hc, hcode]
    interval_cases d <;> exact Or.inl rfl
  split at h
  · next hlower =>
    have hrange : 97 ≤ c.toNat ∧ c.toNat ≤ 122 := by
      simpa [Char.isLower, UInt32.le_iff_toNat_le] using hlower
    have hvalue : c.toNat - 97 + 10 = d := Option.some.inj h
    have hcode : c.toNat = 87 + d := by omega
    have hten : 10 ≤ d := by omega
    rw [hc, hcode]
    interval_cases d <;> exact Or.inl rfl
  split at h
  · next hupper =>
    have hrange : 65 ≤ c.toNat ∧ c.toNat ≤ 90 := by
      simpa [Char.isUpper, UInt32.le_iff_toNat_le] using hupper
    have hvalue : c.toNat - 65 + 10 = d := Option.some.inj h
    have hcode : c.toNat = 55 + d := by omega
    have hten : 10 ≤ d := by omega
    rw [hc, hcode]
    interval_cases d <;> exact Or.inr rfl
  · cases h

/-- One plus sign is passed over. -/
theorem readSigned_plus :
    readSigned base limit ('+' :: cs) = .ok n ↔ read base limit cs = .ok n := by
  cases cs with
  | nil => exact iff_of_false nofun nofun
  | cons c cs => rfl

theorem readSigned_unsigned (h : ∀ digits, cs ≠ '+' :: digits) :
    readSigned base limit cs = read base limit cs := by
  rw [readSigned.eq_def]
  split
  · exact absurd rfl (h [])
  · next digits _ => exact absurd rfl (h digits)
  · rfl

section Bases

/- The bases that numerals are read in. -/
variable (hbase : base ≤ 16)

include hbase

theorem digit_eq_some_iff : digit base c = some d ↔ IsDigit base c d := by
  rw [digit, Option.filter_eq_some_iff, decide_eq_true_iff, IsDigit, and_comm]
  refine and_congr_right fun hd => ⟨fun h => eq_digitChar h (by omega), ?_⟩
  have hvalue := digitValue_digitChar (show d < 16 by omega)
  rintro (rfl | rfl)
  · exact hvalue.1
  · exact hvalue.2

/-- Digits that follow a number already read extend it, up to the limit. -/
theorem readFrom_eq_ok_iff (hvalue : value ≤ limit) :
    readFrom base limit value cs = .ok n ↔ ∃ ds, List.Forall₂ (IsDigit base) cs ds ∧
      n = value * base ^ cs.length + Nat.ofDigits base ds.reverse ∧ n ≤ limit := by
  induction cs generalizing value with
  | nil =>
    rw [readFrom, Except.ok.injEq]
    constructor
    · rintro rfl
      exact ⟨[], .nil, by simp, hvalue⟩
    · rintro ⟨ds, hds, rfl, -⟩
      cases hds
      simp
  | cons c cs ih =>
    rw [readFrom]
    -- What a first digit adds to the number is the same on both sides.
    have hshift (d : Nat) (ds : List Nat) (hlength : cs.length = ds.length) :
        value * base ^ (c :: cs).length + Nat.ofDigits base (d :: ds).reverse =
          (value * base + d) * base ^ cs.length + Nat.ofDigits base ds.reverse := by
      rw [List.reverse_cons, Nat.ofDigits_append, List.length_reverse, ← hlength,
        Nat.ofDigits_singleton, List.length_cons]
      ring
    cases hdigit : digit base c with
    | none =>
      refine iff_of_false nofun ?_
      rintro ⟨ds, hds, -⟩
      obtain ⟨d, ds, hd, -, rfl⟩ := List.forall₂_cons_left_iff.mp hds
      rw [← digit_eq_some_iff hbase, hdigit] at hd
      cases hd
    | some d =>
      have hd : IsDigit base c d := (digit_eq_some_iff hbase).mp hdigit
      have hunique {d' : Nat} (h : IsDigit base c d') : d' = d := by
        rw [← digit_eq_some_iff hbase, hdigit] at h
        exact (Option.some.inj h).symm
      by_cases hlimit : value * base + d ≤ limit
      · simp only [hlimit, ↓reduceIte, ih hlimit]
        constructor
        · rintro ⟨ds, hds, rfl, hn⟩
          exact ⟨d :: ds, .cons hd hds, (hshift d ds hds.length_eq).symm, hn⟩
        · rintro ⟨ds, hds, rfl, hn⟩
          obtain ⟨d', ds, hd', hrest, rfl⟩ := List.forall₂_cons_left_iff.mp hds
          obtain rfl := hunique hd'
          exact ⟨ds, hrest, hshift d' ds hrest.length_eq, hn⟩
      · simp only [hlimit, ↓reduceIte]
        refine iff_of_false nofun ?_
        rintro ⟨ds, hds, rfl, hn⟩
        obtain ⟨d', ds, hd', hrest, rfl⟩ := List.forall₂_cons_left_iff.mp hds
        obtain rfl := hunique hd'
        rw [hshift d' ds hrest.length_eq] at hn
        have hpos : 0 < base ^ cs.length := Nat.pow_pos (Nat.zero_lt_of_lt hd.1)
        have hmul := Nat.le_mul_of_pos_right (value * base + d') hpos
        omega

/-- What is read without a sign is what digits write, up to the limit. -/
theorem read_eq_ok_iff : read base limit cs = .ok n ↔ Writes base cs n ∧ n ≤ limit := by
  cases cs with
  | nil => exact iff_of_false nofun fun h => h.1.1 rfl
  | cons c cs =>
    rw [read, readFrom_eq_ok_iff hbase (Nat.zero_le limit), Writes]
    simp only [Nat.zero_mul, Nat.zero_add, ne_eq, reduceCtorEq, not_false_eq_true, true_and]
    constructor
    · rintro ⟨ds, hds, hn, hlimit⟩
      exact ⟨⟨ds, hds, hn⟩, hlimit⟩
    · rintro ⟨⟨ds, hds, hn⟩, hlimit⟩
      exact ⟨ds, hds, hn, hlimit⟩

/-- Nothing is written by what does not begin with a digit. -/
theorem not_writes_cons (h : digit base c = none) : ¬ Writes base (c :: cs) n := by
  rintro ⟨-, ds, hds, -⟩
  obtain ⟨d, ds, hd, -, -⟩ := List.forall₂_cons_left_iff.mp hds
  rw [← digit_eq_some_iff hbase, h] at hd
  cases hd

/-- What is read with a plus sign or without is what the digits write. -/
theorem readSigned_eq_ok_iff : readSigned base limit cs = .ok n ↔
    ∃ sign digits, (sign = [] ∨ sign = ['+']) ∧ cs = sign ++ digits ∧ Writes base digits n ∧
      n ≤ limit := by
  by_cases hplus : ∃ digits, cs = '+' :: digits
  · obtain ⟨digits, rfl⟩ := hplus
    rw [readSigned_plus, read_eq_ok_iff hbase]
    constructor
    · rintro ⟨hwrites, hlimit⟩
      exact ⟨['+'], digits, Or.inr rfl, rfl, hwrites, hlimit⟩
    · rintro ⟨sign, digits', rfl | rfl, hcs, h⟩
      · rw [List.nil_append] at hcs
        rw [← hcs] at h
        exact absurd h.1 (not_writes_cons hbase rfl)
      · cases hcs
        exact h
  · rw [readSigned_unsigned fun digits hcs => hplus ⟨digits, hcs⟩, read_eq_ok_iff hbase]
    constructor
    · rintro ⟨hwrites, hlimit⟩
      exact ⟨[], cs, Or.inl rfl, rfl, hwrites, hlimit⟩
    · rintro ⟨sign, digits, rfl | rfl, rfl, h⟩
      · exact h
      · exact absurd ⟨digits, rfl⟩ hplus

end Bases

end ContactCards.Numeral
