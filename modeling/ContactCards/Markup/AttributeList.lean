import ContactCards.Markup.Token

/-!
The attribute list of a start tag, still in bytes: the entries up to the end of the tag or the
first fault. No white space is required between two entries.
-/

namespace ContactCards

/-- An attribute as written: its key, where the key starts, and its value without the quotes. -/
structure RawAttribute where
  key : List UInt8
  position : Nat
  value : List UInt8
  deriving DecidableEq, Repr

namespace RawAttribute

def isQuote (b : UInt8) : Bool :=
  b == 34 || b == 39

/-- Ends a key. -/
def endsKey (b : UInt8) : Bool :=
  b == 61 || isMarkupSpace b

/-- Drops white space and counts it. -/
def skipSpace (position : Nat) (bs : List UInt8) : Nat × List UInt8 :=
  (position + (bs.takeWhile isMarkupSpace).length, bs.dropWhile isMarkupSpace)

/-- The place after the equals sign that a key at its end needs. -/
def equals (position : Nat) (bs : List UInt8) : Except AttributeFault (Nat × List UInt8) :=
  match skipSpace position bs with
  | (next, 61 :: rest) => .ok (next + 1, rest)
  | (next, _) => .error (.equalsMissing next)

/-- The quoted value that an equals sign needs, and the place after it. -/
def quotedValue (position : Nat) (bs : List UInt8) :
    Except AttributeFault (List UInt8 × Nat × List UInt8) :=
  match skipSpace position bs with
  | (next, []) => .error (.valueMissing next)
  | (next, q :: rest) =>
    if isQuote q then
      let value := rest.takeWhile (· != q)
      match rest.dropWhile (· != q) with
      | [] => .error (.quoteMissing (next + 1 + value.length) (Char.ofNat q.toNat))
      | _ :: after => .ok (value, next + value.length + 2, after)
    else .error (.valueUnquoted next)

/-- The entry whose key starts with byte `b`, and the place after it. A key never ends before its
second byte. With `seen`, a key that is in it is a fault. -/
def entry (seen : Option (List (List UInt8 × Nat))) (position : Nat) (b : UInt8)
    (bs : List UInt8) : Except AttributeFault (RawAttribute × Nat × List UInt8) :=
  let key := b :: bs.takeWhile (! endsKey ·)
  match equals (position + key.length) (bs.dropWhile (! endsKey ·)) with
  | .error fault => .error fault
  | .ok (next, rest) =>
    match (seen.getD []).lookup key with
    | some earlier => .error (.repeated position earlier)
    | none =>
      match quotedValue next rest with
      | .error fault => .error fault
      | .ok (value, next, rest) => .ok (⟨key, position, value⟩, next, rest)

theorem length_skipSpace_le (position : Nat) (bs : List UInt8) :
    (skipSpace position bs).2.length ≤ bs.length :=
  (bs.dropWhile_suffix isMarkupSpace).length_le

theorem length_equals_lt {position next : Nat} {bs rest : List UInt8}
    (h : equals position bs = .ok (next, rest)) : rest.length < bs.length := by
  have := length_skipSpace_le position bs
  unfold equals at h
  split at h
  · next heq =>
    have lengths := congrArg (·.2.length) heq
    simp only [List.length_cons] at lengths
    simp only [Except.ok.injEq, Prod.mk.injEq] at h
    rw [← h.2]
    omega
  · simp at h

theorem length_quotedValue_lt {position next : Nat} {bs value rest : List UInt8}
    (h : quotedValue position bs = .ok (value, next, rest)) : rest.length < bs.length := by
  have := length_skipSpace_le position bs
  unfold quotedValue at h
  split at h
  · simp at h
  · next q tail heq =>
    split at h
    · split at h
      · simp at h
      · next after hq =>
        have := (tail.dropWhile_suffix (· != q)).length_le
        simp_all
        omega
    · simp at h

theorem length_entry_lt {seen : Option (List (List UInt8 × Nat))} {position next : Nat}
    {b : UInt8} {bs rest : List UInt8} {found : RawAttribute}
    (h : entry seen position b bs = .ok (found, next, rest)) : rest.length < bs.length := by
  have h₁ := (bs.dropWhile_suffix (! endsKey ·)).length_le
  simp only [entry] at h
  split at h
  · simp at h
  · next he =>
    have h₂ := length_equals_lt he
    split at h
    · simp at h
    · split at h
      · simp at h
      · next hv =>
        have h₃ := length_quotedValue_lt hv
        simp only [Except.ok.injEq, Prod.mk.injEq] at h
        obtain ⟨-, -, rfl⟩ := h
        omega

/-- The entries of a list that is left of a tag from `position` on. With `seen`, repeated keys
are a fault. -/
def scanFrom (seen : Option (List (List UInt8 × Nat))) (position : Nat) (bs : List UInt8) :
    List RawAttribute × Option AttributeFault :=
  match _h : skipSpace position bs with
  | (_, []) => ([], none)
  | (start, b :: rest) =>
    match _he : entry seen start b rest with
    | .error fault => ([], some fault)
    | .ok (found, next, rest) =>
      let (more, fault) := scanFrom (seen.map ((found.key, start) :: ·)) next rest
      (found :: more, fault)
termination_by bs.length
decreasing_by
  have h₁ := length_skipSpace_le position bs
  have h₂ := length_entry_lt _he
  simp_all
  omega

/-- What a start tag holds: the raw name of its element and its attribute list. -/
def nameOf (content : List UInt8) : List UInt8 :=
  content.takeWhile (! isMarkupSpace ·)

/-- The attribute list of a start tag; repeated keys are a fault if `distinct`. -/
def scan (distinct : Bool) (content : List UInt8) : List RawAttribute × Option AttributeFault :=
  scanFrom (if distinct then some [] else none) (nameOf content).length
    (content.dropWhile (! isMarkupSpace ·))

end RawAttribute

end ContactCards
