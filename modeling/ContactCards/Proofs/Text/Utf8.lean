import ContactCards.Text.Utf8

/-! Reading the bytes of a text gives the text back, and a byte below 128 is a character of its
own. -/
namespace ContactCards.Utf8

variable {b b₀ b₁ b₂ b₃ : UInt8} {rest : List UInt8} {code : Nat}

theorem follow_cons {owed held : Nat} {low high : UInt8} (hlow : low.toNat ≤ b.toNat)
    (hhigh : b.toNat ≤ high.toNat) :
    follow (owed + 1) low high code held (b :: rest) =
      follow owed 0x80 0xBF (code * 64 + (b.toNat - 0x80)) (held + 1) rest := by
  rw [follow, if_pos ⟨UInt8.le_iff_toNat_le.mpr hlow, UInt8.le_iff_toNat_le.mpr hhigh⟩]

theorem lead_two (h : 0xC2 ≤ b.toNat) (h' : b.toNat < 0xE0) :
    lead b = some (1, 0x80, 0xBF, b.toNat - 0xC0) := by
  simp only [lead, UInt8.lt_iff_toNat_lt, ← UInt8.toNat_inj, UInt8.reduceToNat]
  rw [if_neg (by omega), if_pos (by omega)]

theorem lead_three (h : 0xE0 ≤ b.toNat) (h' : b.toNat < 0xF0) :
    lead b = some (2, if b.toNat = 0xE0 then 0xA0 else 0x80,
      if b.toNat = 0xED then 0x9F else 0xBF, b.toNat - 0xE0) := by
  simp only [lead, UInt8.lt_iff_toNat_lt, ← UInt8.toNat_inj, UInt8.reduceToNat]
  rw [if_neg (by omega), if_neg (by omega)]
  by_cases h0 : b.toNat = 0xE0
  · simp [h0]
  · by_cases hD : b.toNat = 0xED
    · simp [hD]
    · rw [if_neg h0, if_neg hD, if_pos h', if_neg h0, if_neg hD]

theorem lead_four (h : 0xF0 ≤ b.toNat) (h' : b.toNat < 0xF5) :
    lead b = some (3, if b.toNat = 0xF0 then 0x90 else 0x80,
      if b.toNat = 0xF4 then 0x8F else 0xBF, b.toNat - 0xF0) := by
  simp only [lead, UInt8.lt_iff_toNat_lt, ← UInt8.toNat_inj, UInt8.reduceToNat]
  rw [if_neg (by omega), if_neg (by omega), if_neg (by omega), if_neg (by omega),
    if_neg (by omega)]
  by_cases h0 : b.toNat = 0xF0
  · simp [h0]
  · by_cases h4 : b.toNat = 0xF4
    · simp [h4]
    · rw [if_neg h0, if_pos (by omega), if_neg h0, if_neg h4]

theorem start_ascii (h : b.toNat < 0x80) : start b rest = .char (Char.ofNat b.toNat) rest := by
  rw [start, if_pos (UInt8.lt_iff_toNat_lt.mpr h)]

theorem start_lead {low high : UInt8} {owed : Nat} (h : 0x80 ≤ b.toNat)
    (hlead : lead b = some (owed, low, high, code)) :
    start b rest = follow owed low high code 1 rest := by
  have hb : ¬ b < 0x80 := by
    rw [UInt8.lt_iff_toNat_lt]
    exact Nat.not_lt.mpr h
  rw [start, if_neg hb, hlead]

/-- Bytes after the first one of a character. -/
def IsTail (b : UInt8) : Prop := 0x80 ≤ b.toNat ∧ b.toNat ≤ 0xBF

theorem follow_tail {owed held : Nat} (h : IsTail b) :
    follow (owed + 1) 0x80 0xBF code held (b :: rest) =
      follow owed 0x80 0xBF (code * 64 + (b.toNat - 0x80)) (held + 1) rest :=
  follow_cons h.1 h.2

theorem start_two (h : 0xC2 ≤ b₀.toNat) (h' : b₀.toNat < 0xE0) (h₁ : IsTail b₁)
    (hcode : (b₀.toNat - 0xC0) * 64 + (b₁.toNat - 0x80) = code) :
    start b₀ (b₁ :: rest) = .char (Char.ofNat code) rest := by
  rw [start_lead (by omega) (lead_two h h'), follow_tail h₁, follow, hcode]

theorem start_three (h : 0xE0 ≤ b₀.toNat) (h' : b₀.toNat < 0xF0) (h₁ : IsTail b₁)
    (h₂ : IsTail b₂) (hlow : b₀.toNat = 0xE0 → 0xA0 ≤ b₁.toNat)
    (hhigh : b₀.toNat = 0xED → b₁.toNat ≤ 0x9F)
    (hcode : ((b₀.toNat - 0xE0) * 64 + (b₁.toNat - 0x80)) * 64 + (b₂.toNat - 0x80) = code) :
    start b₀ (b₁ :: b₂ :: rest) = .char (Char.ofNat code) rest := by
  rw [start_lead (by omega) (lead_three h h'), follow_cons, follow_tail h₂, follow, hcode]
  · split
    · next h0 => exact hlow h0
    · exact h₁.1
  · split
    · next hD => exact hhigh hD
    · exact h₁.2

theorem start_four (h : 0xF0 ≤ b₀.toNat) (h' : b₀.toNat < 0xF5) (h₁ : IsTail b₁)
    (h₂ : IsTail b₂) (h₃ : IsTail b₃) (hlow : b₀.toNat = 0xF0 → 0x90 ≤ b₁.toNat)
    (hhigh : b₀.toNat = 0xF4 → b₁.toNat ≤ 0x8F)
    (hcode : (((b₀.toNat - 0xF0) * 64 + (b₁.toNat - 0x80)) * 64 + (b₂.toNat - 0x80)) * 64 +
      (b₃.toNat - 0x80) = code) :
    start b₀ (b₁ :: b₂ :: b₃ :: rest) = .char (Char.ofNat code) rest := by
  rw [start_lead (by omega) (lead_four h h'), follow_cons, follow_tail h₂, follow_tail h₃, follow,
    hcode]
  · split
    · next h0 => exact hlow h0
    · exact h₁.1
  · split
    · next h4 => exact hhigh h4
    · exact h₁.2

theorem toNat_ofNat {n : Nat} (h : n < 256) : (UInt8.ofNat n).toNat = n :=
  UInt8.toNat_ofNat_of_lt h

theorem isTail_ofNat (n : Nat) : IsTail (UInt8.ofNat (n % 64 + 128)) := by
  rw [IsTail, toNat_ofNat (by omega)]
  omega

/-- The bytes of a character start as that character, whatever follows. -/
theorem exists_start (c : Char) (rest : List UInt8) :
    ∃ b bs, String.utf8EncodeChar c = b :: bs ∧ start b (bs ++ rest) = .char c rest := by
  have hvalid : c.val.toNat < 0xD800 ∨ 0xDFFF < c.val.toNat ∧ c.val.toNat < 0x110000 := c.valid
  have hof : Char.ofNat c.val.toNat = c := Char.ofNat_toNat c
  rw [String.utf8EncodeChar]
  generalize c.val.toNat = v at hvalid hof ⊢
  rw [← hof]
  have h₁ := toNat_ofNat (n := v % 64 + 128) (by omega)
  have h₂ := toNat_ofNat (n := v / 64 % 64 + 128) (by omega)
  have h₃ := toNat_ofNat (n := v / 4096 % 64 + 128) (by omega)
  split
  · have h₀ := toNat_ofNat (n := v) (by omega)
    refine ⟨_, _, rfl, ?_⟩
    rw [start_ascii (by omega), h₀]
    rfl
  · split
    · have h₀ := toNat_ofNat (n := v / 64 % 32 + 192) (by omega)
      exact ⟨_, _, rfl, start_two (by omega) (by omega) (isTail_ofNat v) (by omega)⟩
    · split
      · have h₀ := toNat_ofNat (n := v / 4096 % 16 + 224) (by omega)
        exact ⟨_, _, rfl, start_three (by omega) (by omega) (isTail_ofNat (v / 64))
          (isTail_ofNat v) (by omega) (by omega) (by omega)⟩
      · have h₀ := toNat_ofNat (n := v / 262144 % 8 + 240) (by omega)
        exact ⟨_, _, rfl, start_four (by omega) (by omega) (isTail_ofNat (v / 4096))
          (isTail_ofNat (v / 64)) (isTail_ofNat v) (by omega) (by omega) (by omega)⟩

theorem decodeFrom_utf8EncodeChar (c : Char) (rest : List UInt8) (index : Nat) :
    decodeFrom index (String.utf8EncodeChar c ++ rest) =
      (decodeFrom (index + c.utf8Size) rest).map (c :: ·) := by
  obtain ⟨b, bs, hc, hstart⟩ := exists_start c rest
  rw [hc, List.cons_append, decodeFrom]
  split
  · next c' rest' h =>
    rw [hstart] at h
    cases h
    rfl
  · next h => simp [hstart] at h
  · next h => simp [hstart] at h

/-- What is written as bytes is read back. -/
theorem decode_encode (s : String) : decode (encode s) = .ok s := by
  have hchars : ∀ (cs : List Char) (index : Nat),
      decodeFrom index (cs.flatMap String.utf8EncodeChar) = .ok cs := by
    intro cs
    induction cs with
    | nil =>
      intro index
      simp [decodeFrom]
    | cons c cs ih =>
      intro index
      rw [List.flatMap_cons, decodeFrom_utf8EncodeChar, ih]
      rfl
  rw [decode, encode, hchars]
  exact congrArg Except.ok String.ofList_toList

theorem encode_injective {s t : String} (h : encode s = encode t) : s = t := by
  have hs := decode_encode s
  rw [h, decode_encode] at hs
  exact (Except.ok.inj hs).symm

theorem encode_append (s t : String) : encode (s ++ t) = encode s ++ encode t := by
  simp [encode]

theorem encode_cons (c : Char) (cs : List Char) :
    encode (String.ofList (c :: cs)) = String.utf8EncodeChar c ++ encode (String.ofList cs) := by
  simp [encode]

/-- A byte below 128 is a character of its own. -/
theorem eq_ofNat_of_mem {c : Char} (h : b ∈ String.utf8EncodeChar c) (hb : b.toNat < 0x80) :
    c = Char.ofNat b.toNat := by
  have hof : Char.ofNat c.val.toNat = c := Char.ofNat_toNat c
  rw [String.utf8EncodeChar] at h
  generalize c.val.toNat = v at h hof
  have hlarge (n k : Nat) (hk : 128 ≤ k) (hn : n + k < 256) : b ≠ UInt8.ofNat (n + k) := by
    rintro rfl
    rw [toNat_ofNat hn] at hb
    omega
  have htail (n : Nat) : b ≠ UInt8.ofNat (n % 64 + 128) := hlarge _ _ (by omega) (by omega)
  split at h
  · rw [List.mem_singleton.mp h, toNat_ofNat (by omega), hof]
  · split at h
    · simp only [List.mem_cons, List.not_mem_nil, or_false, htail] at h
      exact absurd h (hlarge _ _ (by omega) (by omega))
    · split at h
      · simp only [List.mem_cons, List.not_mem_nil, or_false, htail] at h
        exact absurd h (hlarge _ _ (by omega) (by omega))
      · simp only [List.mem_cons, List.not_mem_nil, or_false, htail] at h
        exact absurd h (hlarge _ _ (by omega) (by omega))

theorem ofNat_mem_of_mem_encode {s : String} (h : b ∈ encode s) (hb : b.toNat < 0x80) :
    Char.ofNat b.toNat ∈ s.toList := by
  obtain ⟨c, hc, hmem⟩ := List.mem_flatMap.mp h
  exact eq_ofNat_of_mem hmem hb ▸ hc

end ContactCards.Utf8
