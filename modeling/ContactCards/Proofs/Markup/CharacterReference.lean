import ContactCards.Proofs.Markup.Acceptance
import ContactCards.Proofs.Text.Numeral
import Mathlib

/-! Which references to characters are understood in running text: the five names, and the numerals
of characters in base ten and sixteen. A plus sign may stand before the digits; in the value of an
attribute it may not. -/
namespace ContactCards

variable {nesting : Nesting} {name : String} {c : Char} {n : Nat} {cs : List Char}
  {bytes : List UInt8}

namespace Reference

/-- The characters that have a name in every document. -/
def predefined : List (String × Char) :=
  [("amp", '&'), ("lt", '<'), ("gt", '>'), ("apos", '\''), ("quot", '"')]

/-- What a reference stands for. Numbers of characters are exactly the scalar values. -/
inductive Denotes (name : String) (c : Char) : Prop where
  | named (h : (name, c) ∈ predefined)
  | decimal (sign digits : List Char) (hsign : sign = [] ∨ sign = ['+'])
    (hname : name.toList = '#' :: (sign ++ digits)) (h : Numeral.Writes 10 digits c.toNat)
  | hexadecimal (sign digits : List Char) (hsign : sign = [] ∨ sign = ['+'])
    (hname : name.toList = '#' :: 'x' :: (sign ++ digits))
    (h : Numeral.Writes 16 digits c.toNat)

theorem named_eq_some_iff : named name = some c ↔ (name, c) ∈ predefined := by
  simp only [predefined, List.mem_cons, Prod.mk.injEq, List.not_mem_nil, or_false]
  rw [named.eq_def]
  split <;> simp_all [eq_comm]

theorem head?_of_mem_predefined (h : (name, c) ∈ predefined) : name.toList.head? ≠ some '#' := by
  simp only [predefined, List.mem_cons, Prod.mk.injEq, List.not_mem_nil, or_false] at h
  rcases h with ⟨rfl, -⟩ | ⟨rfl, -⟩ | ⟨rfl, -⟩ | ⟨rfl, -⟩ | ⟨rfl, -⟩ <;> decide

theorem scalar_eq_some_iff : scalar n = some c ↔ n = c.toNat := by
  rw [scalar]
  constructor
  · intro h
    split at h
    · next hvalid =>
      rw [← Option.some.inj h, Char.toNat_ofNat, if_pos hvalid]
    · cases h
  · rintro rfl
    have hvalid : c.toNat.isValidChar := c.valid
    rw [if_pos hvalid, Char.ofNat_toNat]

theorem toNat_le_max32 (c : Char) : c.toNat ≤ Numeral.max32 := by
  have := c.val.toNat_lt
  rw [Numeral.max32]
  change c.val.toNat ≤ _
  omega

/-- A numeral names a character just if it writes its number. -/
theorem scalar_of_numeral_iff {base : Nat} (hbase : base ≤ 16) :
    (Numeral.readSigned base Numeral.max32 cs).toOption.bind scalar = some c ↔
      ∃ sign digits, (sign = [] ∨ sign = ['+']) ∧ cs = sign ++ digits ∧
        Numeral.Writes base digits c.toNat := by
  have hread : (Numeral.readSigned base Numeral.max32 cs).toOption.bind scalar = some c ↔
      Numeral.readSigned base Numeral.max32 cs = .ok c.toNat := by
    cases Numeral.readSigned base Numeral.max32 cs with
    | error fault => exact iff_of_false nofun nofun
    | ok n =>
      rw [Except.ok.injEq]
      exact scalar_eq_some_iff
  rw [hread, Numeral.readSigned_eq_ok_iff hbase]
  simp only [toNat_le_max32, and_true]

/-- What is expanded is what has a meaning. -/
theorem expand_eq_some_iff : expand name = some c ↔ Denotes name c := by
  rw [expand]
  split
  · next cs hcs =>
    rw [scalar_of_numeral_iff (by decide)]
    constructor
    · rintro ⟨sign, digits, hsign, rfl, h⟩
      exact .hexadecimal sign digits hsign hcs h
    · intro h
      cases h with
      | named h => exact absurd (by rw [hcs]; rfl) (head?_of_mem_predefined h)
      | decimal sign digits hsign hname h =>
        rw [hcs] at hname
        rcases hsign with rfl | rfl
        · obtain rfl : 'x' :: cs = digits := (List.cons.inj hname).2
          exact absurd h (Numeral.not_writes_cons (by decide) rfl)
        · cases hname
      | hexadecimal sign digits hsign hname h =>
        rw [hcs] at hname
        cases hname
        exact ⟨sign, digits, hsign, rfl, h⟩
  · next cs hx hcs =>
    rw [scalar_of_numeral_iff (by decide)]
    constructor
    · rintro ⟨sign, digits, hsign, rfl, h⟩
      exact .decimal sign digits hsign hcs h
    · intro h
      cases h with
      | named h => exact absurd (by rw [hcs]; rfl) (head?_of_mem_predefined h)
      | decimal sign digits hsign hname h =>
        rw [hcs] at hname
        exact ⟨sign, digits, hsign, (List.cons.inj hname).2, h⟩
      | hexadecimal sign digits hsign hname h =>
        exact absurd (List.cons.inj (hcs.symm.trans hname)).2 (hx _)
  · next hx hnumeral =>
    rw [named_eq_some_iff]
    constructor
    · exact .named
    · intro h
      cases h with
      | named h => exact h
      | decimal sign digits hsign hname h => exact absurd hname (hnumeral _)
      | hexadecimal sign digits hsign hname h => exact absurd hname (hnumeral _)

end Reference

namespace Nesting

theorem step_reference (nesting : Nesting) (h : Utf8.decode bytes = .ok name) :
    nesting.step (.reference bytes) = match Reference.expand name with
      | some c => .ok (nesting, [.characters c.toString])
      | none => .error (.unknownReference name) := by
  simp only [step, h, Except.mapError, bind, Except.bind]
  cases Reference.expand name <;> rfl

theorem step_reference_eq_ok_iff (h : Utf8.decode bytes = .ok name) :
    nesting.step (.reference bytes) = .ok (nesting, [.characters c.toString]) ↔
      Reference.Denotes name c := by
  rw [step_reference nesting h, ← Reference.expand_eq_some_iff]
  cases Reference.expand name with
  | none => exact iff_of_false nofun nofun
  | some c' => simp [← String.toList_inj]

theorem step_reference_eq_error_iff (h : Utf8.decode bytes = .ok name) :
    nesting.step (.reference bytes) = .error (.unknownReference name) ↔
      ∀ c, ¬ Reference.Denotes name c := by
  simp only [step_reference nesting h, ← Reference.expand_eq_some_iff]
  cases Reference.expand name with
  | none => simp
  | some c' => simp

end Nesting

/-- A reference in running text is read as the character that it stands for, by name or by number.
If it stands for none this is a fault that shows the name, and the document ends there. -/
theorem references_read (nesting : Nesting) (h : Utf8.decode bytes = .ok name) :
    (∀ c, nesting.step (.reference bytes) = .ok (nesting, [.characters c.toString]) ↔
      Reference.Denotes name c) ∧
    (nesting.step (.reference bytes) = .error (.unknownReference name) ↔
      ∀ c, ¬ Reference.Denotes name c) ∧
    ∀ document before after events, (Token.scan document).1 = before ++ .reference bytes :: after →
      Nesting.empty.through before = .ok (nesting, events) →
      (∀ c, ¬ Reference.Denotes name c) →
      Transcript.ofDocument document = ⟨events, some (.unknownReference name)⟩ := by
  refine ⟨fun c => Nesting.step_reference_eq_ok_iff h, Nesting.step_reference_eq_error_iff h, ?_⟩
  intro document before after events hscan hbefore hnone
  have hstep : nesting.step (.reference bytes) = .error (.unknownReference name) :=
    (Nesting.step_reference_eq_error_iff h).mpr hnone
  exact Transcript.ofDocument_of_error hscan hbefore hstep

/-- A numeral with more zeros than digits of 32 bits, and the number of a surrogate. -/
theorem references_read_zeros :
    let zeros := "#x000000000041"
    let surrogate := "#xD800"
    (Utf8.decode (Utf8.encode zeros) = .ok zeros ∧ Reference.Denotes zeros 'A') ∧
      Utf8.decode (Utf8.encode surrogate) = .ok surrogate ∧
      (∀ c, ¬ Reference.Denotes surrogate c) ∧
      Transcript.ofDocument (Utf8.encode "<a>&#xD800;</a>") =
        ⟨[.start ⟨"", "a"⟩ []], some (.unknownReference surrogate)⟩ := by
  intro zeros surrogate
  have hzeros : Utf8.decode (Utf8.encode zeros) = .ok zeros := by cbv
  have hsurrogate : Utf8.decode (Utf8.encode surrogate) = .ok surrogate := by cbv
  have hnone : ∀ c, ¬ Reference.Denotes surrogate c :=
    (references_read .empty hsurrogate).2.1.mp (by cbv)
  let inside : Nesting := ⟨[⟨Utf8.encode "a", .reserved⟩], true⟩
  have hscan : (Token.scan (Utf8.encode "<a>&#xD800;</a>")).1 =
      [.startTag (Utf8.encode "a")] ++ .reference (Utf8.encode surrogate) ::
        [.endTag (Utf8.encode "a")] := by cbv
  have hbefore : Nesting.empty.through [.startTag (Utf8.encode "a")] =
      .ok (inside, [.start ⟨"", "a"⟩ []]) := by cbv
  exact ⟨⟨hzeros, ((references_read .empty hzeros).1 'A').mp (by cbv)⟩, hsurrogate, hnone,
    (references_read inside hsurrogate).2.2 _ _ _ _ hscan hbefore hnone⟩

/-- A sign before the digits is no digit, but the reference is read; in the value of an attribute it
is a fault. -/
theorem signed_reference_read :
    (∀ n, ¬ Numeral.Writes 10 "+65".toList n) ∧ Reference.expand "#+65" = some 'A' ∧
      Transcript.ofDocument (Utf8.encode "<a>&#+65;</a>") =
        ⟨[.start ⟨"", "a"⟩ [], .characters "A", .finish], none⟩ ∧
      Reference.unescape "&#+65;" = .error .sign := by
  have hdigits (n : Nat) : ¬ Numeral.Writes 10 "+65".toList n :=
    Numeral.not_writes_cons (by decide) rfl
  refine ⟨hdigits, ?_, ?_, ?_⟩
  · cbv
  · cbv
  · cbv

end ContactCards
