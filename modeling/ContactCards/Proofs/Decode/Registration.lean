import ContactCards.Decode.Registry

/-! Which decoder is found for a name. A registry that is made by registering decoders has at most
one for each name, so finding it is having it. -/
namespace ContactCards

namespace Registry

variable {r : Registry} {name : ExpandedName} {d d' : Decoder} {ds : List Decoder}

/-- The decoder for a name: no other one before it has the name. -/
def Assigns (r : Registry) (name : ExpandedName) (d : Decoder) : Prop :=
  ∃ before after, r.decoders = before ++ d :: after ∧ d.element = name ∧
    ∀ d' ∈ before, d'.element ≠ name

theorem get?_eq_some_iff : r.get? name = some d ↔ r.Assigns name d := by
  rw [get?, List.find?_eq_some_iff_append, Assigns]
  constructor
  · rintro ⟨hname, before, after, hr, hbefore⟩
    exact ⟨before, after, hr, eq_of_beq hname, fun d' hd' => by simpa using hbefore d' hd'⟩
  · rintro ⟨before, after, hr, hname, hbefore⟩
    exact ⟨beq_iff_eq.mpr hname, before, after, hr, fun d' hd' => by simpa using hbefore d' hd'⟩

theorem Assigns.unique (h : r.Assigns name d) (h' : r.Assigns name d') : d = d' :=
  Option.some.inj ((get?_eq_some_iff.mpr h).symm.trans (get?_eq_some_iff.mpr h'))

theorem get?_eq_none_iff : r.get? name = none ↔ ∀ d ∈ r.decoders, d.element ≠ name := by
  simp [get?]

theorem contains_iff : r.contains name = true ↔ ∃ d ∈ r.decoders, d.element = name := by
  simp [contains]

/-- No two decoders have the same name. -/
def Distinct (r : Registry) : Prop :=
  r.decoders.Pairwise (·.element ≠ ·.element)

/-- Without repeated names the decoder for a name is the one that has it. -/
theorem Distinct.assigns_iff (h : r.Distinct) :
    r.Assigns name d ↔ d ∈ r.decoders ∧ d.element = name := by
  constructor
  · rintro ⟨before, after, hr, hname, -⟩
    exact ⟨by simp [hr], hname⟩
  · rintro ⟨hmem, hname⟩
    obtain ⟨before, after, hr⟩ := List.append_of_mem hmem
    refine ⟨before, after, hr, hname, ?_⟩
    intro d' hd'
    rw [Distinct, hr] at h
    exact hname ▸ (List.pairwise_append.mp h).2.2 d' hd' d List.mem_cons_self

theorem mem_register (h : d ∈ (r.register d').decoders) : d ∈ r.decoders ∨ d = d' := by
  simp only [register, unregister, List.mem_append, List.mem_filter, List.mem_singleton] at h
  exact h.imp_left And.left

theorem Distinct.register (h : r.Distinct) (d : Decoder) : (r.register d).Distinct := by
  rw [Distinct, Registry.register, List.pairwise_append]
  refine ⟨h.filter _, List.pairwise_singleton _ _, ?_⟩
  intro d' hd' last hlast
  obtain rfl := List.mem_singleton.mp hlast
  simpa using (List.mem_filter.mp hd').2

/-- What registering keeps holds of all registries that are made by it. -/
theorem ofDecoders_induction {P : Registry → Prop} (hempty : P empty)
    (hregister : ∀ r, ∀ d ∈ ds, P r → P (r.register d)) : P (ofDecoders ds) := by
  have hfold : ∀ (r : Registry) (later : List Decoder), (∀ d ∈ later, d ∈ ds) → P r →
      P (later.foldl Registry.register r) := by
    intro r later
    induction later generalizing r with
    | nil => exact fun _ hr => hr
    | cons d later ih =>
      intro hlater hr
      obtain ⟨hd, hlater⟩ := List.forall_mem_cons.mp hlater
      exact ih (r.register d) hlater (hregister r d hd hr)
  exact hfold empty ds (fun _ hd => hd) hempty

theorem mem_ofDecoders (h : d ∈ (ofDecoders ds).decoders) : d ∈ ds := by
  revert h
  apply ofDecoders_induction (P := fun r => d ∈ r.decoders → d ∈ ds)
  · exact fun h => absurd h List.not_mem_nil
  · intro r d' hd' hr h
    rcases mem_register h with hmem | rfl
    · exact hr hmem
    · exact hd'

theorem distinct_ofDecoders (ds : List Decoder) : (ofDecoders ds).Distinct :=
  ofDecoders_induction List.Pairwise.nil fun _ d _ hr => hr.register d

end Registry

end ContactCards
