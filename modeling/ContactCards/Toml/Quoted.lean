import ContactCards.Text.Numeral

/-!
Strings of TOML, in the four ways to quote them.
-/

namespace ContactCards.Toml

/-- Characters that no comment and no string on one line holds. -/
def isControl (c : Char) : Bool :=
  (c.toNat < 0x20 && c != '\t') || c.toNat == 0x7F

/-- The character of a numeric escape. -/
def escapedCode (digits : List Char) : Option Char :=
  (Numeral.read 16 Numeral.max32 digits).toOption.bind fun code =>
    if code.isValidChar then some (Char.ofNat code) else none

/-- The character after a backslash, and what is left. -/
def escaped : List Char → Option (Char × List Char)
  | 'b' :: cs => some ('\x08', cs)
  | 't' :: cs => some ('\t', cs)
  | 'n' :: cs => some ('\n', cs)
  | 'f' :: cs => some ('\x0c', cs)
  | 'r' :: cs => some ('\r', cs)
  | 'e' :: cs => some ('\x1b', cs)
  | '"' :: cs => some ('"', cs)
  | '\\' :: cs => some ('\\', cs)
  | 'x' :: cs =>
    if 2 ≤ cs.length then (escapedCode (cs.take 2)).map (·, cs.drop 2) else none
  | 'u' :: cs =>
    if 4 ≤ cs.length then (escapedCode (cs.take 4)).map (·, cs.drop 4) else none
  | 'U' :: cs =>
    if 8 ≤ cs.length then (escapedCode (cs.take 8)).map (·, cs.drop 8) else none
  | _ => none

theorem length_escaped {cs rest : List Char} {c : Char} (h : escaped cs = some (c, rest)) :
    rest.length < cs.length := by
  unfold escaped at h
  split at h <;> simp at h
  case h_9 | h_10 | h_11 =>
    obtain ⟨hl, -, -, -, rfl⟩ := h
    simp only [List.length_drop, List.length_cons]
    omega
  all_goals simp [← h.2]

/-- The rest of a string on one line, up to its closing quote. -/
def basicLine : List Char → Option (List Char × List Char)
  | [] => none
  | '"' :: cs => some ([], cs)
  | '\\' :: cs =>
    match _h : escaped cs with
    | some (c, rest) => (basicLine rest).map fun (text, rest) => (c :: text, rest)
    | none => none
  | c :: cs =>
    if isControl c then none else (basicLine cs).map fun (text, rest) => (c :: text, rest)
termination_by cs => cs.length
decreasing_by
  · have := length_escaped _h
    simp only [List.length_cons]
    omega
  · simp

/-- The rest of a string on one line without escapes, up to its closing quote. -/
def literalLine : List Char → Option (List Char × List Char)
  | [] => none
  | '\'' :: cs => some ([], cs)
  | c :: cs =>
    if isControl c then none else (literalLine cs).map fun (text, rest) => (c :: text, rest)

/-- The closing of a string on several lines: three quotes, or more with up to two of them in the
text. -/
def closing (q : Char) (cs : List Char) : Option (List Char × List Char) :=
  let quotes := (cs.take 5).takeWhile (· == q)
  if 3 ≤ quotes.length then some (quotes.drop 3, cs.drop quotes.length) else none

/-- White space, line ends included. -/
def isSpaceOrLine (c : Char) : Bool :=
  c == ' ' || c == '\t' || c == '\n' || c == '\r'

/-- What a backslash at the end of a line leaves: the text after the blanks and lines that
follow. -/
def joined? (cs : List Char) : Option (List Char) :=
  match cs.dropWhile fun c => c == ' ' || c == '\t' with
  | '\n' :: rest => some (rest.dropWhile isSpaceOrLine)
  | '\r' :: '\n' :: rest => some (rest.dropWhile isSpaceOrLine)
  | _ => none

/-- The rest of a string on several lines, each step using one unit of fuel. -/
def basicLines : (fuel : Nat) → List Char → Option (List Char × List Char)
  | 0, _ => none
  | _ + 1, [] => none
  | fuel + 1, c :: cs =>
    match closing '"' (c :: cs) with
    | some found => some found
    | none =>
      if c = '\\' then
        match joined? cs with
        | some rest => basicLines fuel rest
        | none => do
          let (c, rest) ← escaped cs
          let (text, rest) ← basicLines fuel rest
          return (c :: text, rest)
      else if c = '\r' ∧ cs.head? ≠ some '\n' then none
      else if isControl c ∧ c ≠ '\n' ∧ c ≠ '\r' then none
      else (basicLines fuel cs).map fun (text, rest) => (c :: text, rest)

/-- The rest of a string on several lines without escapes. -/
def literalLines : List Char → Option (List Char × List Char)
  | [] => none
  | c :: cs =>
    match closing '\'' (c :: cs) with
    | some found => some found
    | none =>
      if c = '\r' ∧ cs.head? ≠ some '\n' then none
      else if isControl c ∧ c ≠ '\n' ∧ c ≠ '\r' then none
      else (literalLines cs).map fun (text, rest) => (c :: text, rest)

/-- The characters after a line end that directly follows opening quotes. -/
def dropFirstLine : List Char → List Char
  | '\n' :: cs => cs
  | '\r' :: '\n' :: cs => cs
  | cs => cs

/-- A string on one line, and what is left. -/
def lineString? : List Char → Option (List Char × List Char)
  | '"' :: cs => basicLine cs
  | '\'' :: cs => literalLine cs
  | _ => none

/-- A string, and what is left. -/
def string? : List Char → Option (List Char × List Char)
  | '"' :: '"' :: '"' :: cs => basicLines (cs.length + 1) (dropFirstLine cs)
  | '\'' :: '\'' :: '\'' :: cs => literalLines (dropFirstLine cs)
  | cs => lineString? cs

end ContactCards.Toml
