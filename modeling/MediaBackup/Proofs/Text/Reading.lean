import Mathlib.Data.List.Basic
import MediaBackup.Proofs.Text.Order

/-
  Bytes read back as the text they came from.

  Bytes are read as text with a stand-in for each part that is no text.  What was written as text has no such part, so it
  is read back as it was (`decodeLossy_encode`).  The crux is one character (`decodeLossy_encodeChar`): its first byte tells
  how many follow (`leadRange`), and the bytes that follow give back the bits that the first one lacks.
-/

namespace MediaBackup.Text

theorem within_eq_true_iff {lo hi b : UInt8} : within lo hi b = true ↔ lo.toNat ≤ b.toNat ∧ b.toNat ≤ hi.toNat := by
  unfold within
  rw [Bool.and_eq_true, decide_eq_true_iff, decide_eq_true_iff, UInt8.le_iff_toNat_le, UInt8.le_iff_toNat_le]

/-- A byte that is not cut off. -/
theorem toNat_toUInt8 {n : Nat} (h : n < 0x100) : n.toUInt8.toNat = n := by
  rw [Nat.toUInt8, UInt8.toNat_ofNat']
  omega

/-! ## One character -/

theorem readTail_zero (value : Nat) (lo hi : UInt8) (r : List UInt8) :
    readTail 0 value lo hi r = (Char.ofNat value, r) := by
  cases r <;> rfl

/-- One more byte of a character adds its six bits. -/
theorem readTail_succ (count value : Nat) {lo hi b : UInt8} (h : within lo hi b = true) (r : List UInt8) :
    readTail (count + 1) value lo hi (b :: r) = readTail count (value * 0x40 + b.toNat % 0x40) 0x80 0xBF r := by
  rw [readTail, if_neg (Nat.succ_ne_zero count), if_pos h]
  rfl

theorem within_rest (n : Nat) : within 0x80 0xBF (0x80 + n % 0x40).toUInt8 = true := by
  have hb := toNat_toUInt8 (n := 0x80 + n % 0x40) (by omega)
  rw [within_eq_true_iff, hb]
  show 0x80 ≤ _ ∧ _ ≤ 0xBF
  omega

theorem toNat_rest_mod (n : Nat) : (0x80 + n % 0x40).toUInt8.toNat % 0x40 = n % 0x40 := by
  rw [toNat_toUInt8 (by omega)]
  omega

/-- The first byte of two. -/
theorem leadRange_two {n : Nat} (h : 0x80 ≤ n) (h' : n < 0x800) :
    leadRange (0xC0 + n / 0x40).toUInt8 = some (1, 0x80, 0xBF) := by
  have hb := toNat_toUInt8 (n := 0xC0 + n / 0x40) (by omega)
  unfold leadRange
  rw [if_pos]
  rw [within_eq_true_iff, hb]
  show 0xC2 ≤ _ ∧ _ ≤ 0xDF
  omega

/-- The first byte of three, which with the second one rules out surrogates and what fits two. -/
theorem leadRange_three {n : Nat} (h : 0x800 ≤ n) (h' : n < 0x10000) (hs : n < 0xD800 ∨ 0xDFFF < n) :
    ∃ lo hi, leadRange (0xE0 + n / 0x1000).toUInt8 = some (2, lo, hi) ∧
      within lo hi (0x80 + n / 0x40 % 0x40).toUInt8 = true := by
  have hb := toNat_toUInt8 (n := 0xE0 + n / 0x1000) (by omega)
  have hb' := toNat_toUInt8 (n := 0x80 + n / 0x40 % 0x40) (by omega)
  simp only [leadRange, within_eq_true_iff, ← UInt8.toNat_inj, Bool.or_eq_true, hb, hb', UInt8.reduceToNat]
  split_ifs <;> first
    | omega
    | exact ⟨_, _, rfl, by simp only [UInt8.reduceToNat]; omega⟩

/-- The first byte of four, which with the second one rules out what fits three and what is no character. -/
theorem leadRange_four {n : Nat} (h : 0x10000 ≤ n) (h' : n < 0x110000) :
    ∃ lo hi, leadRange (0xF0 + n / 0x40000).toUInt8 = some (3, lo, hi) ∧
      within lo hi (0x80 + n / 0x1000 % 0x40).toUInt8 = true := by
  have hb := toNat_toUInt8 (n := 0xF0 + n / 0x40000) (by omega)
  have hb' := toNat_toUInt8 (n := 0x80 + n / 0x1000 % 0x40) (by omega)
  simp only [leadRange, within_eq_true_iff, ← UInt8.toNat_inj, Bool.or_eq_true, hb, hb', UInt8.reduceToNat]
  split_ifs <;> first
    | omega
    | exact ⟨_, _, rfl, by simp only [UInt8.reduceToNat]; omega⟩

/-- Behind the first byte of several the others are read. -/
theorem decodeLossy_lead {b : UInt8} {count : Nat} {lo hi : UInt8} {c : Char} {r r' : List UInt8} (hb : 0x80 ≤ b.toNat)
    (h : leadRange b = some (count, lo, hi))
    (htail : readTail count (if count = 1 then b.toNat % 0x20 else if count = 2 then b.toNat % 0x10 else b.toNat % 0x08)
      lo hi r = (c, r')) :
    decodeLossy (b :: r) = c :: decodeLossy r' := by
  have hlt : ¬ b < 0x80 := by
    rw [UInt8.lt_iff_toNat_lt]
    exact Nat.not_lt.2 hb
  rw [decodeLossy, if_neg hlt, h]
  show (readTail _ _ _ _ _).1 :: decodeLossy (readTail _ _ _ _ _).2 = _
  rw [htail]

/-- Reading goes on behind a character as if it began there. -/
theorem decodeLossy_encodeChar (c : Char) (r : List UInt8) : decodeLossy (encodeChar c ++ r) = c :: decodeLossy r := by
  have hvalid := c.valid
  have hmax := toNat_char_lt c
  have hchar : Char.ofNat c.toNat = c := Char.ofNat_toNat c
  have hs : c.toNat < 0xD800 ∨ 0xDFFF < c.toNat := by
    simp only [UInt32.isValidChar, Nat.isValidChar] at hvalid
    show c.val.toNat < _ ∨ _ < c.val.toNat
    omega
  unfold encodeChar
  generalize c.toNat = n at *
  dsimp only
  split_ifs with h1 h2 h3 <;> simp only [List.cons_append, List.nil_append]
  · have hb := toNat_toUInt8 (n := n) (by omega)
    have hlt : n.toUInt8 < 0x80 := by
      rw [UInt8.lt_iff_toNat_lt, hb]
      exact h1
    rw [decodeLossy, if_pos hlt, hb, hchar]
  · have hb := toNat_toUInt8 (n := 0xC0 + n / 0x40) (by omega)
    refine decodeLossy_lead (by omega) (leadRange_two (by omega) h2) ?_
    rw [if_pos rfl, readTail_succ 0 _ (within_rest n), readTail_zero, toNat_rest_mod,
      hb, show (0xC0 + n / 0x40) % 0x20 * 0x40 + n % 0x40 = n by omega, hchar]
  · have hb := toNat_toUInt8 (n := 0xE0 + n / 0x1000) (by omega)
    obtain ⟨lo, hi, hlead, hsecond⟩ := leadRange_three (by omega) h3 hs
    refine decodeLossy_lead (by omega) hlead ?_
    rw [if_neg (by omega), if_pos rfl, readTail_succ 1 _ hsecond, readTail_succ 0 _ (within_rest n), readTail_zero,
      toNat_rest_mod, toNat_rest_mod, hb,
      show ((0xE0 + n / 0x1000) % 0x10 * 0x40 + n / 0x40 % 0x40) * 0x40 + n % 0x40 = n by omega, hchar]
  · have hb := toNat_toUInt8 (n := 0xF0 + n / 0x40000) (by omega)
    obtain ⟨lo, hi, hlead, hsecond⟩ := leadRange_four (by omega) hmax
    refine decodeLossy_lead (by omega) hlead ?_
    rw [if_neg (by omega), if_neg (by omega), readTail_succ 2 _ hsecond, readTail_succ 1 _ (within_rest (n / 0x40)),
      readTail_succ 0 _ (within_rest n), readTail_zero, toNat_rest_mod, toNat_rest_mod, toNat_rest_mod, hb,
      show (((0xF0 + n / 0x40000) % 0x08 * 0x40 + n / 0x1000 % 0x40) * 0x40 + n / 0x40 % 0x40) * 0x40 + n % 0x40 = n by
        omega, hchar]

/-! ## A text -/

/-- What was written as text is read back. -/
theorem decodeLossy_encode (s : List Char) : decodeLossy (encode s) = s := by
  induction s with
  | nil => rw [encode, List.flatMap_nil, decodeLossy]
  | cons c s ih => rw [encode_cons, decodeLossy_encodeChar, ih]

theorem showBytes_encode (s : List Char) : showBytes (encode s) = String.ofList s := by
  rw [showBytes, decodeLossy_encode]

/-- A byte that begins no character is read as the stand-in. -/
theorem showBytes_cons_of_leadRange {b : UInt8} (hb : ¬ b < 0x80) (h : leadRange b = none) (s : List Char) :
    showBytes (b :: encode s) = String.ofList (replacement :: s) := by
  rw [showBytes, decodeLossy, if_neg hb, h]
  show String.ofList (replacement :: decodeLossy (encode s)) = _
  rw [decodeLossy_encode]

theorem encode_injective {s t : List Char} (h : encode s = encode t) : s = t := by
  rw [← decodeLossy_encode s, h, decodeLossy_encode]

/-- One character again and again, as bytes. -/
theorem encode_replicate {c : Char} {b : UInt8} (h : encodeChar c = [b]) (k : Nat) :
    encode (List.replicate k c) = List.replicate k b := by
  rw [encode, List.flatMap_replicate, h, List.flatten_replicate_singleton]

/-- A byte below 0x80 is the ASCII character of its number, and no part of another one. -/
theorem mem_encode_ascii_iff {c : Char} (hc : c.toNat < 0x80) {s : List Char} :
    c.toNat.toUInt8 ∈ encode s ↔ c ∈ s := by
  have hchar : ∀ d : Char, c.toNat.toUInt8 ∈ encodeChar d ↔ c = d := by
    intro d
    have hd := toNat_char_lt d
    rw [← Char.toNat_inj]
    unfold encodeChar
    generalize c.toNat = m at *
    generalize d.toNat = n at *
    dsimp only
    split_ifs <;>
      simp only [List.mem_cons, List.not_mem_nil, or_false, ← UInt8.toNat_inj, Nat.toUInt8, UInt8.toNat_ofNat'] <;>
      omega
  unfold encode
  rw [List.mem_flatMap]
  constructor
  · rintro ⟨d, hd, hmem⟩
    rw [(hchar d).1 hmem]
    exact hd
  · intro hmem
    exact ⟨c, hmem, (hchar c).2 rfl⟩

/-! ## Numbers -/

/-- Only zero is written with a zero first. -/
theorem head?_toDigits_ne (n : Nat) (h : n ≠ 0) : (Nat.toDigits 10 n).head? ≠ some '0' := by
  induction n using Nat.strongRecOn with
  | ind n ih =>
    by_cases hn : n < 10
    · rw [Nat.toDigits_of_lt_base hn, List.head?_cons]
      have hdigit : ∀ d < 10, d ≠ 0 → some d.digitChar ≠ some '0' := by decide
      exact hdigit n hn h
    · rw [Nat.toDigits_of_base_le (by decide) (Nat.le_of_not_lt hn), List.head?_append_of_ne_nil _ Nat.toDigits_ne_nil]
      exact ih (n / 10) (by omega) (by omega)

end MediaBackup.Text
