/-!
UTF-8. `encode` writes a text as bytes; `decode` reads bytes as a text, or says where and how they
first fail to be one; `decodeLossy` never fails and writes U+FFFD for every failing piece.
-/

namespace ContactCards.Utf8

/-- The bytes of a text. -/
def encode (s : String) : List UInt8 :=
  s.toList.flatMap String.utf8EncodeChar

/-- How a byte string starts: with a character, with some bytes that start no character, or with
a character that the end of the bytes cuts short. -/
inductive Start where
  | char (c : Char) (rest : List UInt8)
  | broken (length : Nat) (rest : List UInt8)
  | cut

/-- What the first byte of a longer character fixes: how many bytes follow it, the bounds of the
next one, and its own part of the code point. No overlong form and no surrogate gets through. -/
def lead (b : UInt8) : Option (Nat × UInt8 × UInt8 × Nat) :=
  if b < 0xC2 then none
  else if b < 0xE0 then some (1, 0x80, 0xBF, b.toNat - 0xC0)
  else if b = 0xE0 then some (2, 0xA0, 0xBF, 0)
  else if b = 0xED then some (2, 0x80, 0x9F, 0xD)
  else if b < 0xF0 then some (2, 0x80, 0xBF, b.toNat - 0xE0)
  else if b = 0xF0 then some (3, 0x90, 0xBF, 0)
  else if b < 0xF4 then some (3, 0x80, 0xBF, b.toNat - 0xF0)
  else if b = 0xF4 then some (3, 0x80, 0x8F, 4)
  else none

/-- Reads the bytes that a character still owes, the next one within its bounds; `held` counts
the bytes read before. -/
def follow : (owed : Nat) → (low high : UInt8) → (code held : Nat) → List UInt8 → Start
  | 0, _, _, code, _, rest => .char (Char.ofNat code) rest
  | _ + 1, _, _, _, _, [] => .cut
  | owed + 1, low, high, code, held, b :: rest =>
    if low ≤ b ∧ b ≤ high then follow owed 0x80 0xBF (code * 64 + (b.toNat - 0x80)) (held + 1) rest
    else .broken held (b :: rest)

/-- How the bytes `b :: rest` start. -/
def start (b : UInt8) (rest : List UInt8) : Start :=
  if b < 0x80 then .char (Char.ofNat b.toNat) rest
  else match lead b with
    | none => .broken 1 rest
    | some (owed, low, high, code) => follow owed low high code 1 rest

/-- What is left after the start of a byte string. -/
def Start.rest : Start → List UInt8
  | .char _ rest => rest
  | .broken _ rest => rest
  | .cut => []

theorem length_rest_follow (owed : Nat) (low high : UInt8) (code held : Nat) (bs : List UInt8) :
    (follow owed low high code held bs).rest.length ≤ bs.length := by
  fun_induction follow <;> simp_all [Start.rest]
  omega

theorem length_rest_start (b : UInt8) (bs : List UInt8) :
    (start b bs).rest.length ≤ bs.length := by
  unfold start
  split
  · simp [Start.rest]
  · split
    · simp [Start.rest]
    · exact length_rest_follow ..

/-- Where bytes stop being UTF-8: after `index` good bytes come `length` bytes that start no
character, or, without a length, the end of the bytes inside a character. -/
structure Malformed where
  index : Nat
  length : Option Nat
  deriving DecidableEq, Repr

def Malformed.message (m : Malformed) : String :=
  match m.length with
  | some n => s!"invalid utf-8 sequence of {n} bytes from index {m.index}"
  | none => s!"incomplete utf-8 byte sequence from index {m.index}"

/-- Reads bytes that stand at `index` in the piece being read. -/
def decodeFrom (index : Nat) : List UInt8 → Except Malformed (List Char)
  | [] => .ok []
  | b :: bs =>
    match _h : start b bs with
    | .char c rest => (decodeFrom (index + c.utf8Size) rest).map (c :: ·)
    | .broken n _ => .error ⟨index, some n⟩
    | .cut => .error ⟨index, none⟩
termination_by bs => bs.length
decreasing_by
  have := length_rest_start b bs
  simp only [_h, Start.rest] at this
  simp only [List.length_cons]
  omega

/-- Reads bytes as a text. -/
def decode (bytes : List UInt8) : Except Malformed String :=
  (decodeFrom 0 bytes).map String.ofList

/-- Reads bytes as characters, with U+FFFD for each piece that is none. -/
def decodeLossyChars : List UInt8 → List Char
  | [] => []
  | b :: bs =>
    match _h : start b bs with
    | .char c rest => c :: decodeLossyChars rest
    | .broken _ rest => '\uFFFD' :: decodeLossyChars rest
    | .cut => ['\uFFFD']
termination_by bs => bs.length
decreasing_by
  all_goals
    have := length_rest_start b bs
    simp only [_h, Start.rest] at this
    simp only [List.length_cons]
    omega

/-- Reads bytes as a text, with U+FFFD for each piece that is none. -/
def decodeLossy (bytes : List UInt8) : String :=
  String.ofList (decodeLossyChars bytes)

end ContactCards.Utf8
