import Mathlib

/-! Texts that are joined with a separator between them, and the pieces that a text is cut into at
each separator. What is joined can be told from the whole as far as its pieces go. -/
namespace ContactCards

variable {c : Char} {s t : String} {texts texts' : List String}

/-- The pieces of a text between the separators in it. -/
def pieces (separator : Char) (s : String) : List String :=
  (s.toList.splitOn separator).map String.ofList

/-- Texts with a separator between them. -/
def joined (separator : Char) (texts : List String) : String :=
  (String.singleton separator).intercalate texts

theorem joined_cons (h : texts ≠ []) :
    joined c (s :: texts) = s ++ String.singleton c ++ joined c texts :=
  String.intercalate_cons_of_ne_nil h

theorem joined_pieces (c : Char) (s : String) : joined c (pieces c s) = s := by
  apply String.toList_inj.mp
  rw [joined, String.toList_intercalate, String.toList_singleton, pieces, List.map_map]
  have hid : String.toList ∘ String.ofList = id := funext fun _ => String.toList_ofList
  rw [hid, List.map_id, List.intercalate_splitOn]

theorem pieces_injective (c : Char) : Function.Injective (pieces c) :=
  Function.LeftInverse.injective (joined_pieces c)

theorem pieces_append (c : Char) (s t : String) :
    pieces c (s ++ String.singleton c ++ t) = pieces c s ++ pieces c t := by
  rw [pieces, String.toList_append, String.toList_append, String.toList_singleton,
    List.append_assoc, List.singleton_append, List.splitOn_append_cons_self, List.map_append]
  rfl

theorem pieces_joined (c : Char) (h : texts ≠ []) :
    pieces c (joined c texts) = texts.flatMap (pieces c) := by
  induction texts with
  | nil => exact absurd rfl h
  | cons s texts ih =>
    cases texts with
    | nil => rw [joined, String.intercalate_singleton, List.flatMap_singleton]
    | cons t texts =>
      rw [joined_cons (List.cons_ne_nil t texts), pieces_append, ih (List.cons_ne_nil t texts)]
      rfl

/-- Joined texts are the same exactly if the texts are cut into the same pieces. -/
theorem joined_eq_iff (h : texts ≠ []) (h' : texts' ≠ []) :
    joined c texts = joined c texts' ↔ texts.flatMap (pieces c) = texts'.flatMap (pieces c) := by
  rw [← pieces_joined c h, ← pieces_joined c h', (pieces_injective c).eq_iff]

theorem pieces_eq_singleton (h : c ∉ s.toList) : pieces c s = [s] := by
  rw [pieces, List.splitOn_eq_singleton h, List.map_singleton, String.ofList_toList]

theorem flatMap_pieces_eq_self (h : ∀ s ∈ texts, c ∉ s.toList) :
    texts.flatMap (pieces c) = texts := by
  rw [List.flatMap_congr fun s hs => pieces_eq_singleton (h s hs)]
  exact List.flatMap_singleton' texts

/-- Texts without the separator can be told from the joined text. -/
theorem joined_inj (hne : texts ≠ []) (hne' : texts' ≠ []) (h : ∀ s ∈ texts, c ∉ s.toList)
    (h' : ∀ s ∈ texts', c ∉ s.toList) : joined c texts = joined c texts' ↔ texts = texts' := by
  rw [joined_eq_iff hne hne', flatMap_pieces_eq_self h, flatMap_pieces_eq_self h']

theorem eq_nil_of_joined_eq_empty (hempty : "" ∉ texts) (h : joined c texts = "") :
    texts = [] := by
  cases texts with
  | nil => rfl
  | cons s texts =>
    cases texts with
    | nil =>
      rw [joined, String.intercalate_singleton] at h
      exact absurd (h ▸ List.mem_cons_self) hempty
    | cons t texts =>
      rw [joined_cons (List.cons_ne_nil t texts)] at h
      simpa using congrArg String.toList h

/-- Texts that are not empty and have no separator can be told from the joined text. -/
theorem joined_inj_of_ne_empty (hempty : "" ∉ texts) (hempty' : "" ∉ texts')
    (h : ∀ s ∈ texts, c ∉ s.toList) (h' : ∀ s ∈ texts', c ∉ s.toList)
    (hjoined : joined c texts = joined c texts') : texts = texts' := by
  by_cases hne : texts = []
  · subst hne
    exact (eq_nil_of_joined_eq_empty hempty' hjoined.symm).symm
  by_cases hne' : texts' = []
  · subst hne'
    exact eq_nil_of_joined_eq_empty hempty hjoined
  exact (joined_inj hne hne' h h').mp hjoined

/-- A joined text has no characters but those of its texts and the separator. -/
theorem notMem_joined {d : Char} (hd : d ≠ c) (h : ∀ s ∈ texts, d ∉ s.toList) :
    d ∉ (joined c texts).toList := by
  induction texts with
  | nil => exact List.not_mem_nil
  | cons s texts ih =>
    obtain ⟨hs, htexts⟩ := List.forall_mem_cons.mp h
    by_cases hne : texts = []
    · subst hne
      rw [joined, String.intercalate_singleton]
      exact hs
    · rw [joined_cons hne]
      simp [hs, hd, ih htexts]

end ContactCards
