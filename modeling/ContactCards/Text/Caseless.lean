/-!
Texts whose ASCII letters count the same in either case. All other characters stand for themselves.
-/

namespace ContactCards

/-- The text with its ASCII letters in upper case. -/
def upper (s : String) : String :=
  s.map Char.toUpper

/-- Texts are the same in upper case if their characters are. -/
theorem upper_eq {s t : String} (h : s.toList.map Char.toUpper = t.toList.map Char.toUpper) :
    upper s = upper t := by
  apply String.toList_inj.mp
  rw [upper, upper, String.toList_map, String.toList_map, h]

theorem upper_eq_self {s : String} (h : s.toList.map Char.toUpper = s.toList) : upper s = s := by
  apply String.toList_inj.mp
  rw [upper, String.toList_map, h]

/-- The text with its ASCII letters in lower case. -/
def lower (s : String) : String :=
  s.map Char.toLower

/-- Equal but for the case of ASCII letters. -/
def sameIgnoringCase (s t : String) : Bool :=
  upper s == upper t

end ContactCards
