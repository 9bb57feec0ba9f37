import ContactCards.Command

/-! Neither arguments nor settings give a limit of no cards. -/
namespace ContactCards

variable {files args : List String} {limit : Option Nat} {quiet : Bool}

namespace Request

/-- The request, if there is one, has no limit of no cards. -/
def AllowsCards : Option Request → Prop
  | some (.print _ limit _) => limit ≠ some 0
  | _ => True

theorem allowsCards_withFiles? (h : limit ≠ some 0) :
    AllowsCards (withFiles? files limit quiet) := by
  rw [withFiles?]
  split
  · trivial
  · exact h

/-- A limit that is given as an argument allows a card. -/
theorem allowsCards_bind {value : String} {next : Nat → Option Request}
    (h : ∀ most, some most ≠ some 0 → AllowsCards (next most)) :
    AllowsCards ((readLimit? value).bind next) := by
  cases hvalue : readLimit? value with
  | none => trivial
  | some most =>
    apply h
    intro hzero
    obtain ⟨-, hpos⟩ := Option.filter_eq_some_iff.mp hvalue
    rw [Option.some.inj hzero] at hpos
    cases hpos

theorem allowsCards_readFrom? (h : limit ≠ some 0) :
    AllowsCards (readFrom? files limit quiet args) := by
  fun_induction readFrom? files limit quiet args
  case case1 | case2 => exact allowsCards_withFiles? h
  case case6 ih | case16 ih => exact ih h
  -- The option that takes a limit, its value attached or in the next argument.
  case case8 ih | case10 ih => exact allowsCards_bind ih
  all_goals trivial

theorem limit_ne_zero (h : ofArguments? args = some (.print files limit quiet)) :
    limit ≠ some 0 := by
  have hallows : AllowsCards (ofArguments? args) := allowsCards_readFrom? nofun
  rw [h] at hallows
  exact hallows

end Request

namespace Settings

theorem limit_ne_zero_of_table {table : Toml} {settings : Settings}
    (h : ofTable table = .ok settings) : settings.limit ≠ some 0 := by
  unfold ofTable at h
  split at h
  · split at h
    · split at h
      · cases h
        nofun
      · split at h
        · cases h
        · cases h
        · next hzero _ =>
          cases h
          intro hsome
          exact hzero (Option.some.inj hsome)
      · cases h
    · cases h
  · cases h

theorem limit_ne_zero {file : Option String} {environment : List (String × String)}
    {settings : Settings} (h : load file environment = .ok settings) :
    settings.limit ≠ some 0 := by
  rw [load] at h
  split at h
  · cases h
  · exact limit_ne_zero_of_table h

end Settings

end ContactCards
