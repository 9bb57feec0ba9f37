import ContactCards.Markup.Reference

/-! Escaped text is read back. -/
namespace ContactCards

section Ends

variable {α : Type} {p : α → Bool} {xs ys : List α} {y : α}

theorem takeWhile_append_cons (h : ∀ x ∈ xs, p x = true) (hy : p y = false) :
    (xs ++ y :: ys).takeWhile p = xs := by
  rw [List.takeWhile_append_of_pos h, List.takeWhile_cons_of_neg (by simp [hy]), List.append_nil]

theorem dropWhile_append_cons (h : ∀ x ∈ xs, p x = true) (hy : p y = false) :
    (xs ++ y :: ys).dropWhile p = y :: ys := by
  rw [List.dropWhile_append_of_pos h, List.dropWhile_cons_of_neg (by simp [hy])]

end Ends

namespace Reference

variable {c : Char} {cs name : List Char} {s : String}

/-- The characters that are never written as themselves. -/
def reserved : List Char := ['&', '<', '>', '\'', '"']

/-- `&name;` stands for a character wherever it is written. -/
structure Names (name : List Char) (c : Char) : Prop where
  plain : ∀ x ∈ name, x ≠ '&' ∧ x ≠ ';' ∧ x ≠ '<' ∧ x ≠ '"'
  expand : Reference.expand (String.ofList name) = some c
  inValue : ∀ first last, expandInValue first last name = .ok c

/-- A character is written as itself or by its name. -/
theorem escapeChar_cases (c : Char) :
    c ∉ reserved ∧ escapeChar c = [c] ∨
      c ∈ reserved ∧ ∃ name, escapeChar c = '&' :: (name ++ [';']) ∧ Names name c := by
  fun_cases escapeChar c with
  | case1 => exact Or.inr ⟨by decide, ['l', 't'], rfl, by simp, rfl, fun _ _ => rfl⟩
  | case2 => exact Or.inr ⟨by decide, ['g', 't'], rfl, by simp, rfl, fun _ _ => rfl⟩
  | case3 => exact Or.inr ⟨by decide, ['a', 'm', 'p'], rfl, by simp, rfl, fun _ _ => rfl⟩
  | case4 => exact Or.inr ⟨by decide, ['a', 'p', 'o', 's'], rfl, by simp, rfl, fun _ _ => rfl⟩
  | case5 => exact Or.inr ⟨by decide, ['q', 'u', 'o', 't'], rfl, by simp, rfl, fun _ _ => rfl⟩
  | case6 _ hlt hgt hamp hapos hquot =>
    refine Or.inl ⟨?_, rfl⟩
    simp only [reserved, List.mem_cons, List.not_mem_nil, or_false]
    rintro (rfl | rfl | rfl | rfl | rfl)
    · exact hamp rfl
    · exact hlt rfl
    · exact hgt rfl
    · exact hapos rfl
    · exact hquot rfl

theorem length_le_flatMap_escapeChar (cs : List Char) :
    cs.length ≤ (cs.flatMap escapeChar).length := by
  induction cs with
  | nil => exact Nat.le_refl 0
  | cons c cs ih =>
    rw [List.flatMap_cons, List.length_append, List.length_cons]
    obtain ⟨-, hself⟩ | ⟨-, name, hname, -⟩ := escapeChar_cases c
    · simp only [hself, List.length_singleton]
      omega
    · simp only [hname, List.length_cons]
      omega

/-- A text is written as itself just if none of its characters has to be escaped. -/
theorem escape_eq_self_iff : escape s = s ↔ ∀ c ∈ s.toList, c ∉ reserved := by
  have hchars (cs : List Char) : cs.flatMap escapeChar = cs ↔ ∀ c ∈ cs, c ∉ reserved := by
    induction cs with
    | nil => simp
    | cons c cs ih =>
      rw [List.flatMap_cons, List.forall_mem_cons]
      obtain ⟨hc, hself⟩ | ⟨hc, name, hname, -⟩ := escapeChar_cases c
      · rw [hself, List.singleton_append, List.cons.injEq, ih]
        simp [hc]
      · refine iff_of_false ?_ fun h => h.1 hc
        -- The reference is longer than the character, and the rest gets no shorter.
        intro heq
        have hlength := congrArg List.length heq
        have hle := length_le_flatMap_escapeChar cs
        simp only [hname, List.length_append, List.length_cons, List.length_nil] at hlength
        omega
  rw [← hchars, ← String.ofList_inj, String.ofList_toList, escape]

/-- An escaped text can stand in quotes. -/
theorem quote_notMem_escape (s : String) : '"' ∉ (escape s).toList := by
  rw [escape, String.toList_ofList, List.mem_flatMap]
  rintro ⟨c, -, hmem⟩
  obtain ⟨hc, hself⟩ | ⟨-, name, hname, hnames⟩ := escapeChar_cases c
  · rw [hself, List.mem_singleton] at hmem
    exact hc (hmem ▸ by decide)
  · rw [hname, List.mem_cons, List.mem_append, List.mem_singleton] at hmem
    rcases hmem with h | hmem | h
    · cases h
    · exact (hnames.plain '"' hmem).2.2.2 rfl
    · cases h

section Unescaping

variable {total position : Nat}

theorem unescapeFrom_char (h : c ≠ '&') :
    unescapeFrom total position (c :: cs) =
      (unescapeFrom total (position + c.utf8Size) cs).map (c :: ·) := by
  rw [unescapeFrom, if_neg h]

theorem unescapeFrom_name (h : Names name c) :
    unescapeFrom total position ('&' :: (name ++ ';' :: cs)) =
      (unescapeFrom total (position + 1 + byteLength name + 1) cs).map (c :: ·) := by
  have hname : ∀ x ∈ name, isNameChar x := by
    intro x hx
    simp [isNameChar, h.plain x hx]
  have htake : (name ++ ';' :: cs).takeWhile isNameChar = name :=
    takeWhile_append_cons hname rfl
  have hdrop : (name ++ ';' :: cs).dropWhile isNameChar = ';' :: cs :=
    dropWhile_append_cons hname rfl
  rw [unescapeFrom, if_pos rfl]
  split
  · next rest hrest =>
    rw [hdrop] at hrest
    cases hrest
    simp only [htake, h.inValue]
    cases unescapeFrom total (position + 1 + byteLength name + 1) cs <;> rfl
  · next hno => exact absurd hdrop (hno cs)

theorem unescapeFrom_escape (cs : List Char) :
    unescapeFrom total position (cs.flatMap escapeChar) = .ok cs := by
  induction cs generalizing position with
  | nil => simp [unescapeFrom]
  | cons c cs ih =>
    obtain ⟨hc, hself⟩ | ⟨-, name, hname, hnames⟩ := escapeChar_cases c
    · have hamp : c ≠ '&' := by
        rintro rfl
        exact hc (by decide)
      rw [List.flatMap_cons, hself, List.singleton_append, unescapeFrom_char hamp, ih]
      rfl
    · rw [List.flatMap_cons, hname, List.cons_append, List.append_assoc, List.singleton_append,
        unescapeFrom_name hnames, ih]
      rfl

/-- A value that was escaped is read back. -/
theorem unescape_escape (value : String) : unescape (escape value) = .ok value := by
  rw [unescape, escape, String.toList_ofList, unescapeFrom_escape]
  exact congrArg Except.ok String.ofList_toList

end Unescaping

end Reference
end ContactCards
