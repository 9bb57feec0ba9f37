import ContactCards.Proofs.Text.Pieces
import Mathlib

/-! Line breaks in texts. They add up where texts are put together, and a text has one piece more
than it has line breaks. -/
namespace ContactCards

variable {c : Char} {s t : String} {texts : List String}

def lineBreaks (s : String) : Nat :=
  s.toList.count '\n'

/-- The line breaks of texts taken together. -/
def lineBreaksIn (texts : List String) : Nat :=
  (texts.map lineBreaks).sum

theorem lineBreaks_eq_zero_iff : lineBreaks s = 0 ↔ '\n' ∉ s.toList :=
  List.count_eq_zero

@[simp] theorem lineBreaks_empty : lineBreaks "" = 0 :=
  rfl

@[simp] theorem lineBreaks_append (s t : String) :
    lineBreaks (s ++ t) = lineBreaks s + lineBreaks t := by
  rw [lineBreaks, String.toList_append, List.count_append]
  rfl

@[simp] theorem lineBreaksIn_nil : lineBreaksIn [] = 0 :=
  rfl

@[simp] theorem lineBreaksIn_cons (s : String) (texts : List String) :
    lineBreaksIn (s :: texts) = lineBreaks s + lineBreaksIn texts :=
  rfl

@[simp] theorem lineBreaksIn_append (texts texts' : List String) :
    lineBreaksIn (texts ++ texts') = lineBreaksIn texts + lineBreaksIn texts' := by
  rw [lineBreaksIn, List.map_append, List.sum_append]
  rfl

/-- Texts that are listed in groups have the line breaks of the groups. -/
theorem lineBreaksIn_flatMap {α : Type} {f : α → List String} {g : α → String} {l : List α}
    (h : ∀ a ∈ l, lineBreaks (g a) = lineBreaksIn (f a)) :
    lineBreaksIn (l.flatMap f) = lineBreaksIn (l.map g) := by
  induction l with
  | nil => rfl
  | cons a l ih =>
    obtain ⟨ha, hl⟩ := List.forall_mem_cons.mp h
    rw [List.flatMap_cons, List.map_cons, lineBreaksIn_append, lineBreaksIn_cons, ha, ih hl]

theorem lineBreaksIn_eq_zero_iff : lineBreaksIn texts = 0 ↔ ∀ s ∈ texts, '\n' ∉ s.toList := by
  rw [lineBreaksIn, List.sum_eq_zero_iff, List.forall_mem_map]
  exact forall₂_congr fun s _ => lineBreaks_eq_zero_iff

/-- A text that may be missing, with what stands around it on one line. -/
theorem lineBreaks_optional {f : String → String} (h : ∀ s, lineBreaks (f s) = lineBreaks s)
    (o : Option String) : lineBreaks ((o.map f).getD "") = lineBreaksIn o.toList := by
  cases o with
  | none => rfl
  | some s => simp [h]

theorem lineBreaks_join (texts : List String) :
    lineBreaks (String.join texts) = lineBreaksIn texts := by
  induction texts with
  | nil => rfl
  | cons s texts ih => rw [String.join_cons, lineBreaks_append, lineBreaksIn_cons, ih]

/-- A separator on one line adds no line breaks. -/
theorem lineBreaks_intercalate (h : lineBreaks s = 0) (texts : List String) :
    lineBreaks (s.intercalate texts) = lineBreaksIn texts := by
  induction texts with
  | nil => simp
  | cons t texts ih =>
    by_cases hne : texts = []
    · subst hne
      rw [String.intercalate_singleton, lineBreaksIn_cons, lineBreaksIn_nil, Nat.add_zero]
    · rw [String.intercalate_cons_of_ne_nil hne, lineBreaks_append, lineBreaks_append, h,
        Nat.add_zero, lineBreaksIn_cons, ih]

theorem length_pieces (c : Char) (s : String) : (pieces c s).length = s.toList.count c + 1 := by
  induction h : s.toList.count c generalizing s with
  | zero =>
    rw [pieces_eq_singleton (List.count_eq_zero.mp h), List.length_singleton]
  | succ n ih =>
    -- The text is cut at its first separator.
    have hmem : c ∈ s.toList := List.count_pos_iff.mp (by omega)
    obtain ⟨before, after, hs, hbefore⟩ := List.eq_append_cons_of_mem hmem
    have hcount : after.count c = n := by
      rw [hs, List.count_append, List.count_cons_self, List.count_eq_zero.mpr hbefore] at h
      omega
    have hcut : s = String.ofList before ++ String.singleton c ++ String.ofList after := by
      apply String.toList_inj.mp
      simp [hs]
    have hfirst : pieces c (String.ofList before) = [String.ofList before] :=
      pieces_eq_singleton (by rwa [String.toList_ofList])
    rw [hcut, pieces_append, hfirst, List.length_append, List.length_singleton,
      ih (String.ofList after) (by rwa [String.toList_ofList])]
    omega

/-- A line break after each text ends the last piece of it; nothing is left behind the last. -/
theorem pieces_lines (lines : List String) :
    pieces '\n' (String.join (lines.map (· ++ "\n"))) = lines.flatMap (pieces '\n') ++ [""] := by
  induction lines with
  | nil => rfl
  | cons line lines ih =>
    have hbreak : "\n" = String.singleton '\n' := rfl
    rw [List.map_cons, String.join_cons, hbreak, pieces_append, ← hbreak, ih, List.flatMap_cons,
      List.append_assoc]

/-- Lines that each end in a line break are lines with line breaks between them, and one behind. -/
theorem join_lines {lines : List String} (h : lines ≠ []) :
    String.join (lines.map (· ++ "\n")) = joined '\n' lines ++ "\n" := by
  induction lines with
  | nil => exact absurd rfl h
  | cons line lines ih =>
    rw [List.map_cons, String.join_cons]
    by_cases hne : lines = []
    · subst hne
      rw [joined, String.intercalate_singleton]
      exact String.append_empty
    · rw [ih hne, joined_cons hne, String.append_assoc, String.append_assoc, String.append_assoc]
      rfl

theorem length_lines (texts : List String) :
    (texts.flatMap (pieces '\n')).length = texts.length + lineBreaksIn texts := by
  induction texts with
  | nil => rfl
  | cons s texts ih =>
    rw [List.flatMap_cons, List.length_append, length_pieces, ih, List.length_cons,
      lineBreaksIn_cons, lineBreaks]
    omega

/-- Texts are lines just if they have no line breaks. -/
theorem lines_eq_self_iff : texts.flatMap (pieces '\n') = texts ↔ lineBreaksIn texts = 0 := by
  constructor
  · intro h
    have hlength := length_lines texts
    rw [h] at hlength
    omega
  · intro h
    exact flatMap_pieces_eq_self (lineBreaksIn_eq_zero_iff.mp h)

end ContactCards
