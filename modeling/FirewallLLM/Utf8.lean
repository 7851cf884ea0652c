import Mathlib

/-! # Slices of UTF-8 text by bytes

Texts are lists of characters, and their bytes are those of their UTF-8 encoding.  `sliceTo t n`
is the text of the first `n` bytes, and there is none when the byte at `n` is in the middle of a
character.  `encode` and `decode` are the encoding itself. -/

namespace Utf8

/-- The length of the encoding. -/
def byteLen (t : List Char) : ℕ := (t.map Char.utf8Size).sum

@[simp] theorem byteLen_nil : byteLen [] = 0 := rfl

@[simp] theorem byteLen_cons (c : Char) (t : List Char) :
    byteLen (c :: t) = c.utf8Size + byteLen t := rfl

@[simp] theorem byteLen_append (s t : List Char) : byteLen (s ++ t) = byteLen s + byteLen t := by
  simp [byteLen]

theorem byteLen_replicate (k : ℕ) (c : Char) :
    byteLen (List.replicate k c) = k * c.utf8Size := by
  rw [byteLen, List.map_replicate, List.sum_replicate]
  rfl

/-- The first `n` bytes. -/
def sliceTo : List Char → ℕ → Option (List Char)
  | _, 0 => some []
  | [], _ + 1 => none
  | c :: t, n + 1 =>
      if c.utf8Size ≤ n + 1 then (sliceTo t (n + 1 - c.utf8Size)).map (c :: ·) else none

@[simp] theorem sliceTo_zero (t : List Char) : sliceTo t 0 = some [] := by
  cases t <;> rfl

theorem sliceTo_eq_some_iff {t p : List Char} {n : ℕ} :
    sliceTo t n = some p ↔ p <+: t ∧ byteLen p = n := by
  induction t generalizing p n with
  | nil =>
      cases n with
      | zero =>
          rw [sliceTo_zero, Option.some.injEq, List.prefix_nil]
          constructor
          · rintro rfl
            exact ⟨rfl, rfl⟩
          · rintro ⟨rfl, -⟩
            rfl
      | succ n =>
          rw [List.prefix_nil]
          constructor
          · intro h
            cases h
          · rintro ⟨rfl, hlen⟩
            cases hlen
  | cons c t ih =>
      have hpos := c.utf8Size_pos
      cases n with
      | zero =>
          rw [sliceTo_zero, Option.some.injEq]
          constructor
          · rintro rfl
            exact ⟨List.nil_prefix, rfl⟩
          · rintro ⟨hp, hlen⟩
            cases p with
            | nil => rfl
            | cons d p =>
                have := d.utf8Size_pos
                rw [byteLen_cons] at hlen
                omega
      | succ n =>
          rw [sliceTo]
          cases p with
          | nil =>
              split_ifs <;> simp
          | cons d p =>
              rw [List.cons_prefix_cons, byteLen_cons]
              split_ifs with hfit
              · rw [Option.map_eq_some_iff]
                constructor
                · rintro ⟨p', hp', heq⟩
                  obtain ⟨rfl, rfl⟩ := List.cons.inj heq
                  obtain ⟨hpre, hlen⟩ := ih.mp hp'
                  exact ⟨⟨rfl, hpre⟩, by omega⟩
                · rintro ⟨⟨rfl, hpre⟩, hlen⟩
                  exact ⟨p, ih.mpr ⟨hpre, by omega⟩, rfl⟩
              · constructor
                · intro h
                  cases h
                · rintro ⟨⟨rfl, -⟩, hlen⟩
                  omega

theorem sliceTo_byteLen (t : List Char) : sliceTo t (byteLen t) = some t :=
  sliceTo_eq_some_iff.mpr ⟨List.prefix_rfl, rfl⟩

theorem isSome_sliceTo_iff {t : List Char} {n : ℕ} :
    (sliceTo t n).isSome ↔ ∃ p, p <+: t ∧ byteLen p = n := by
  rw [Option.isSome_iff_exists]
  exact exists_congr fun p => sliceTo_eq_some_iff

theorem sliceTo_replicate (c : Char) (hc : c.utf8Size = 1) (k n : ℕ) (t : List Char) :
    sliceTo (List.replicate k c ++ t) (k + n) = (sliceTo t n).map (List.replicate k c ++ ·) := by
  induction k with
  | zero => simp
  | succ k ih =>
      have hsum : k + 1 + n = (k + n) + 1 := by omega
      rw [List.replicate_succ, List.cons_append, hsum, sliceTo, hc, if_pos (by omega),
        Nat.add_sub_cancel, ih, Option.map_map]
      rfl

/-! ### The encoding -/

/-- The bytes of a text. -/
def encode (t : List Char) : List UInt8 := t.flatMap String.utf8EncodeChar

/-- The text of some bytes, if they are an encoding. -/
def decode (bytes : List UInt8) : Option (List Char) :=
  bytes.toByteArray.utf8Decode?.map Array.toList

theorem decode_encode (t : List Char) : decode (encode t) = some t := by
  have hbytes : (encode t).toByteArray = t.utf8Encode := rfl
  rw [decode, hbytes, List.utf8Decode?_utf8Encode]
  rfl

/-- A character below 128 is its byte, and no byte of any other one is below 128. -/
theorem encodeChar_cases (c : Char) :
    (c.toNat < 128 ∧ String.utf8EncodeChar c = [UInt8.ofNat c.toNat]) ∨
      (128 ≤ c.toNat ∧ ∀ b ∈ String.utf8EncodeChar c, 128 ≤ b.toNat) := by
  have hbyte : ∀ n, 128 ≤ n → n < 256 → 128 ≤ (UInt8.ofNat n).toNat := by
    intro n hlow hhigh
    rw [UInt8.toNat_ofNat', Nat.mod_eq_of_lt hhigh]
    exact hlow
  have hval : c.val.toNat = c.toNat := rfl
  unfold String.utf8EncodeChar
  simp only [hval]
  split_ifs with h1 h2 h3
  · exact .inl ⟨by omega, rfl⟩
  · refine .inr ⟨by omega, ?_⟩
    simp only [List.forall_mem_cons, List.not_mem_nil, false_implies, implies_true, and_true]
    exact ⟨hbyte _ (by omega) (by omega), hbyte _ (by omega) (by omega)⟩
  · refine .inr ⟨by omega, ?_⟩
    simp only [List.forall_mem_cons, List.not_mem_nil, false_implies, implies_true, and_true]
    exact ⟨hbyte _ (by omega) (by omega), hbyte _ (by omega) (by omega),
      hbyte _ (by omega) (by omega)⟩
  · refine .inr ⟨by omega, ?_⟩
    simp only [List.forall_mem_cons, List.not_mem_nil, false_implies, implies_true, and_true]
    exact ⟨hbyte _ (by omega) (by omega), hbyte _ (by omega) (by omega),
      hbyte _ (by omega) (by omega), hbyte _ (by omega) (by omega)⟩

/-- Only the line feed is encoded with its byte. -/
theorem lineFeed_mem_encode {t : List Char} : 10 ∈ encode t ↔ '\n' ∈ t := by
  have hchar : ∀ c, 10 ∈ String.utf8EncodeChar c ↔ c = '\n' := by
    intro c
    rcases encodeChar_cases c with ⟨hlow, heq⟩ | ⟨hhigh, hbytes⟩
    · rw [heq, List.mem_singleton]
      constructor
      · intro h
        have hnat := congrArg UInt8.toNat h
        rw [UInt8.toNat_ofNat', Nat.mod_eq_of_lt (by omega)] at hnat
        exact Char.toNat_inj.mp hnat.symm
      · rintro rfl
        rfl
    · constructor
      · intro h
        exact absurd (hbytes 10 h) (by decide)
      · rintro rfl
        exact absurd hhigh (by decide)
  simp only [encode, List.mem_flatMap, hchar, exists_eq_right]

end Utf8
