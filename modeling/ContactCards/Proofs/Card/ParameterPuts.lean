import ContactCards.Card.Parameter
import Mathlib

/-! Values put under names. Each name is stored once, in upper case and where it was first put, with
all values put under it in any letter case, in their order. -/
namespace ContactCards

variable {s t name value query : String} {ps : List Parameter}

@[simp] theorem upper_upper (s : String) : upper (upper s) = upper s := by
  rw [upper, upper, String.map_map]
  congr 1
  funext c
  exact Char.toUpper_toUpper_eq_toUpper c

theorem sameIgnoringCase_iff : sameIgnoringCase s t = true ↔ upper s = upper t :=
  beq_iff_eq

theorem sameIgnoringCase_upper (s t : String) :
    sameIgnoringCase (upper s) t = sameIgnoringCase s t := by
  rw [sameIgnoringCase, upper_upper, sameIgnoringCase]

theorem sameIgnoringCase_left (h : sameIgnoringCase s t = true) (u : String) :
    sameIgnoringCase s u = sameIgnoringCase t u := by
  rw [sameIgnoringCase, sameIgnoringCase_iff.mp h, sameIgnoringCase]

theorem sameIgnoringCase_right (h : sameIgnoringCase s t = true) (u : String) :
    sameIgnoringCase u s = sameIgnoringCase u t := by
  rw [sameIgnoringCase, sameIgnoringCase_iff.mp h, sameIgnoringCase]

/-- The last of some things is kept just if it is not among the others. -/
theorem eraseDups_concat {α : Type} [BEq α] [LawfulBEq α] (l : List α) (a : α) [Decidable (a ∈ l)] :
    (l ++ [a]).eraseDups = if a ∈ l then l.eraseDups else l.eraseDups ++ [a] := by
  rw [List.eraseDups_append]
  by_cases h : a ∈ l <;> simp [List.removeAll, List.eraseDups_cons, h]

theorem nodup_eraseDups {α : Type} [BEq α] [LawfulBEq α] (l : List α) : l.eraseDups.Nodup := by
  classical
  induction l using List.reverseRecOn with
  | nil => simp
  | append_singleton l a ih =>
    rw [eraseDups_concat]
    split_ifs with h
    · exact ih
    · rw [← List.concat_eq_append]
      exact ih.concat (mt List.mem_eraseDups.mp h)

namespace Parameters

/-- A value comes to the first parameter with its name, or makes a new parameter at the end. -/
theorem put_cases (ps : Parameters) (name value : String) :
    ((∀ p ∈ ps.toList, sameIgnoringCase p.name name = false) ∧
      ps.put name value = ⟨ps.toList ++ [⟨upper name, [value]⟩]⟩) ∨
    ∃ before p after, ps = ⟨before ++ p :: after⟩ ∧
      (∀ q ∈ before, sameIgnoringCase q.name name = false) ∧
      sameIgnoringCase p.name name = true ∧
      ps.put name value = ⟨before ++ ⟨p.name, p.values ++ [value]⟩ :: after⟩ := by
  obtain ⟨ps⟩ := ps
  simp only [put, mk.injEq]
  induction ps with
  | nil => exact .inl ⟨nofun, rfl⟩
  | cons p ps ih =>
    by_cases h : sameIgnoringCase p.name name = true
    · exact .inr ⟨[], p, ps, rfl, nofun, h, by simp [putList, h]⟩
    · have hno : sameIgnoringCase p.name name = false := Bool.eq_false_of_not_eq_true h
      rcases ih with ⟨hnone, hput⟩ | ⟨before, q, after, rfl, hbefore, hq, hput⟩
      · exact .inl ⟨List.forall_mem_cons.mpr ⟨hno, hnone⟩, by simp [putList, hno, hput]⟩
      · exact .inr ⟨p :: before, q, after, rfl, List.forall_mem_cons.mpr ⟨hno, hbefore⟩, hq,
          by simp [putList, hno, hput]⟩

/-- The names that are stored. -/
def names (ps : Parameters) : List String :=
  ps.toList.map Parameter.name

/-- Among names in upper case a name is new just if its upper case is not there. -/
theorem names_put {ps : Parameters} (hupper : ∀ p ∈ ps.toList, upper p.name = p.name)
    (name value : String) : (ps.put name value).names =
      if upper name ∈ ps.names then ps.names else ps.names ++ [upper name] := by
  have hsame : ∀ p ∈ ps.toList, (sameIgnoringCase p.name name = true ↔ p.name = upper name) := by
    intro p hp
    rw [sameIgnoringCase_iff, hupper p hp]
  rcases ps.put_cases name value with ⟨hnone, hput⟩ | ⟨before, p, after, rfl, -, hp, hput⟩
  · have hnew : upper name ∉ ps.names := by
      intro hmem
      obtain ⟨p, hp, hname⟩ := List.mem_map.mp hmem
      exact Bool.false_ne_true ((hnone p hp).symm.trans ((hsame p hp).mpr hname))
    rw [if_neg hnew, hput]
    simp [names]
  · have hold : upper name ∈ names ⟨before ++ p :: after⟩ := by
      rw [← (hsame p (by simp)).mp hp]
      exact List.mem_map_of_mem (by simp)
    rw [if_pos hold, hput]
    simp [names]

/-- A value comes behind those of its name, and those of other names stay as they are. -/
theorem values_put (ps : Parameters) (name value query : String) :
    (ps.put name value).values query =
      if sameIgnoringCase name query then ps.values query ++ [value] else ps.values query := by
  -- What does not have the name is not found, if the query is for the name.
  have hfind {l : List Parameter} (h : sameIgnoringCase name query = true)
      (hl : ∀ q ∈ l, sameIgnoringCase q.name name = false) :
      l.find? (sameIgnoringCase ·.name query) = none := by
    rw [List.find?_eq_none]
    intro q hq
    simp [← sameIgnoringCase_right h, hl q hq]
  rcases ps.put_cases name value with ⟨hnone, hput⟩ | ⟨before, p, after, rfl, hbefore, hp, hput⟩
  · have hname := sameIgnoringCase_upper name query
    rw [hput]
    by_cases h : sameIgnoringCase name query = true
    · simp [values, get?, List.find?_append, hfind h hnone, hname, h]
    · simp [values, get?, List.find?_append, hname, h]
  · have hname := sameIgnoringCase_left hp query
    rw [hput]
    by_cases h : sameIgnoringCase name query = true
    · simp [values, get?, List.find?_append, hfind h hbefore, hname, h]
    · simp [values, get?, List.find?_append, hname, h]

/-- The number of values that are stored. -/
def valueCount (ps : Parameters) : Nat :=
  (ps.toList.map (·.values.length)).sum

theorem valueCount_put (ps : Parameters) (name value : String) :
    (ps.put name value).valueCount = ps.valueCount + 1 := by
  rcases ps.put_cases name value with ⟨-, hput⟩ | ⟨before, p, after, rfl, -, -, hput⟩
  · rw [hput]
    simp [valueCount]
  · rw [hput]
    simp [valueCount]
    omega

theorem forall_values_put {ps : Parameters} (h : ∀ p ∈ ps.toList, p.values ≠ [])
    (name value : String) : ∀ p ∈ (ps.put name value).toList, p.values ≠ [] := by
  rcases ps.put_cases name value with ⟨-, hput⟩ | ⟨before, p, after, rfl, -, -, hput⟩
  · rw [hput, List.forall_mem_append]
    exact ⟨h, by simp⟩
  · rw [List.forall_mem_append, List.forall_mem_cons] at h
    rw [hput, List.forall_mem_append, List.forall_mem_cons]
    exact ⟨h.1, by simp, h.2.2⟩

/-- Parameters with other names stay where they are. -/
theorem getElem?_put {p : Parameter} (h : sameIgnoringCase p.name name = false) (ps : Parameters)
    (value : String) (i : Nat) :
    (ps.put name value).toList[i]? = some p ↔ ps.toList[i]? = some p := by
  have hne {q : Parameter} (hq : sameIgnoringCase q.name name = true) : q ≠ p := by
    rintro rfl
    exact Bool.false_ne_true (h.symm.trans hq)
  rcases ps.put_cases name value with ⟨-, hput⟩ | ⟨before, q, after, rfl, -, hq, hput⟩
  · have hlast : (⟨upper name, [value]⟩ : Parameter) ≠ p :=
      hne (sameIgnoringCase_iff.mpr (upper_upper name))
    rw [hput, List.getElem?_append]
    split_ifs with hi
    · rfl
    · rw [List.getElem?_eq_none (Nat.le_of_not_lt hi)]
      simp [List.getElem?_singleton, hlast]
  · rw [hput, List.getElem?_append, List.getElem?_append]
    split_ifs with hi
    · rfl
    · cases i - before.length with
      | zero => simp [hne hq, hne (q := ⟨q.name, q.values ++ [value]⟩) hq]
      | succ j => rfl

/-- The parameters hold exactly what was put, grouped by name. -/
structure Holds (ps : Parameters) (puts : List (String × String)) : Prop where
  names : ps.names = (puts.map fun (name, _) => upper name).eraseDups
  values : ∀ query, ps.values query =
    (puts.filter fun (name, _) => sameIgnoringCase name query).map Prod.snd
  filled : ∀ p ∈ ps.toList, p.values ≠ []
  count : ps.valueCount = puts.length

theorem holds_empty : empty.Holds [] :=
  ⟨rfl, fun _ => rfl, nofun, rfl⟩

/-- Stored names are in upper case. -/
theorem Holds.upper_name {ps : Parameters} {puts : List (String × String)} (h : ps.Holds puts) :
    ∀ p ∈ ps.toList, upper p.name = p.name := by
  intro p hp
  have hmem : p.name ∈ ps.names := List.mem_map_of_mem hp
  rw [h.names, List.mem_eraseDups] at hmem
  obtain ⟨⟨name, value⟩, -, hname⟩ := List.mem_map.mp hmem
  rw [← hname, upper_upper]

theorem Holds.put {ps : Parameters} {puts : List (String × String)} (h : ps.Holds puts)
    (name value : String) : (ps.put name value).Holds (puts ++ [(name, value)]) := by
  constructor
  · rw [names_put h.upper_name, h.names, List.map_append, List.map_singleton, eraseDups_concat]
    simp only [List.mem_eraseDups]
  · intro query
    rw [values_put, h.values, List.filter_append, List.map_append]
    by_cases hq : sameIgnoringCase name query = true <;> simp [hq]
  · exact forall_values_put h.filled name value
  · rw [valueCount_put, h.count, List.length_append, List.length_singleton]

theorem holds_ofPuts (puts : List (String × String)) : (ofPuts puts).Holds puts := by
  induction puts using List.reverseRecOn with
  | nil => exact holds_empty
  | append_singleton puts p ih =>
    rw [ofPuts, List.foldl_append]
    exact ih.put p.1 p.2

/-- No two stored names are the same. -/
theorem Holds.pairwise {ps : Parameters} {puts : List (String × String)} (h : ps.Holds puts) :
    ps.toList.Pairwise fun p q => sameIgnoringCase p.name q.name = false := by
  have hnodup : ps.names.Nodup := h.names ▸ nodup_eraseDups _
  have hpairwise : ps.toList.Pairwise fun p q => p.name ≠ q.name := List.pairwise_map.mp hnodup
  refine hpairwise.imp_of_mem ?_
  intro p q hp hq hne
  apply Bool.eq_false_of_not_eq_true
  rw [sameIgnoringCase_iff, h.upper_name p hp, h.upper_name q hq]
  exact hne

end Parameters

/-- Values put under names are grouped by name, whatever the case of its ASCII letters: each name is
stored once, in upper case, in the order in which the names first appear, with all the values put
under it in the order in which they were put. None is lost, and a put leaves all other names where
they are, with the values that they have. -/
theorem puts_grouped_by_name (puts : List (String × String)) :
    let ps := Parameters.ofPuts puts
    ps.toList.map Parameter.name = (puts.map fun (name, _) => upper name).eraseDups ∧
    (ps.toList.Pairwise fun p q => sameIgnoringCase p.name q.name = false) ∧
    (∀ p ∈ ps.toList, p.values ≠ []) ∧
    (∀ query : String, ps.values query =
      (puts.filter fun (name, _) => sameIgnoringCase name query).map Prod.snd) ∧
    (ps.toList.map (·.values.length)).sum = puts.length ∧
    ∀ name value : String,
      (∀ query : String, sameIgnoringCase name query = false →
        (ps.put name value).values query = ps.values query) ∧
      ∀ (i : Nat) (p : Parameter), sameIgnoringCase p.name name = false →
        ((ps.put name value).toList[i]? = some p ↔ ps.toList[i]? = some p) := by
  intro ps
  have hps : ps.Holds puts := Parameters.holds_ofPuts puts
  refine ⟨hps.names, hps.pairwise, hps.filled, hps.values, hps.count, ?_⟩
  intro name value
  constructor
  · intro query hquery
    rw [Parameters.values_put, hquery]
    rfl
  · intro i p hp
    exact Parameters.getElem?_put hp ps value i

/-- Two names in three spellings. A put under one of them leaves the other as it is. -/
theorem puts_grouped_by_name_type :
    let ps := Parameters.ofPuts [("type", "home"), ("Pref", "1"), ("TYPE", "voice")]
    ps = ⟨[⟨"TYPE", ["home", "voice"]⟩, ⟨"PREF", ["1"]⟩]⟩ ∧
    sameIgnoringCase "pref" "type" = false ∧
    (ps.put "pref" "2").values "type" = ["home", "voice"] ∧
    (ps.put "pref" "2").toList[0]? = some ⟨"TYPE", ["home", "voice"]⟩ := by
  intro ps
  have hps : ps = ⟨[⟨"TYPE", ["home", "voice"]⟩, ⟨"PREF", ["1"]⟩]⟩ := by
    simp only [ps]
    cbv
  have hother : sameIgnoringCase "pref" "type" = false := by cbv
  have hstored : sameIgnoringCase "TYPE" "pref" = false := by cbv
  have hlower : sameIgnoringCase "type" "type" = true := by cbv
  have hmixed : sameIgnoringCase "Pref" "type" = false := by cbv
  have hupper : sameIgnoringCase "TYPE" "type" = true := by cbv
  obtain ⟨-, -, -, hvalues, -, hput⟩ :=
    puts_grouped_by_name [("type", "home"), ("Pref", "1"), ("TYPE", "voice")]
  obtain ⟨hsame, hplace⟩ := hput "pref" "2"
  refine ⟨hps, hother, ?_, ?_⟩
  · rw [hsame "type" hother, hvalues]
    simp [hlower, hmixed, hupper]
  · rw [hplace 0 _ hstored]
    exact congrArg (·.toList[0]?) hps

end ContactCards
