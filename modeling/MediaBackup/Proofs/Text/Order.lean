import Mathlib.Tactic.SplitIfs
import MediaBackup.Text.Bytes

/-
  Texts in the order of their bytes.

  `Text.le` compares texts character by character.  A database compares their bytes.  That both orders are
  one (`le_iff_encode_le`) rests on how characters are encoded: the smaller character has the smaller byte
  where the bytes of two of them first differ (`encodeChar_lt`), so no character's bytes begin with those
  of another.
-/

namespace MediaBackup.Text

/-- A character is at most U+10FFFF. -/
theorem toNat_char_lt (c : Char) : c.toNat < 0x110000 := by
  have hvalid := c.valid
  simp only [UInt32.isValidChar, Nat.isValidChar] at hvalid
  show c.val.toNat < _
  omega

/-- A code point that is valid is the one of its character. -/
theorem toNat_char_ofNat {n : Nat} (h : n.isValidChar) : (Char.ofNat n).toNat = n := by
  rw [Char.ofNat, dif_pos h]
  rfl

/-- The bytes of the smaller of two characters come first, whatever follows them. -/
theorem encodeChar_lt {c d : Char} (h : c < d) (x y : List UInt8) :
    encodeChar c ++ x < encodeChar d ++ y := by
  have hlt : c.toNat < d.toNat := h
  have hd : d.toNat < 0x110000 := toNat_char_lt d
  unfold encodeChar
  generalize c.toNat = m at *
  generalize d.toNat = n at *
  -- no byte is cut off: neither the ones that go on with a character nor the first of four
  have hnext : ∀ k, (0x80 + k % 0x40) % 2 ^ 8 = 0x80 + k % 0x40 := fun k => by omega
  have hfirst : ∀ k < 0x110000, (0xF0 + k / 0x40000) % 2 ^ 8 = 0xF0 + k / 0x40000 := fun k hk => by omega
  dsimp only
  split_ifs <;>
    simp only [List.cons_append, List.nil_append, List.cons_lt_cons_iff, UInt8.lt_iff_toNat_lt,
      ← UInt8.toNat_inj, UInt8.toNat_ofNat', Nat.toUInt8, hnext, hfirst n hd,
      hfirst m (Nat.lt_trans hlt hd)] <;>
    omega

theorem encode_cons (c : Char) (s : List Char) : encode (c :: s) = encodeChar c ++ encode s :=
  List.flatMap_cons

theorem encodeChar_ne_nil (c : Char) : encodeChar c ≠ [] := by
  unfold encodeChar
  dsimp only
  split_ifs <;> exact List.cons_ne_nil _ _

/-- The smaller of two texts has the smaller bytes. -/
theorem encode_lt {s t : List Char} (h : s < t) : encode s < encode t := by
  induction t generalizing s with
  | nil => exact absurd h (List.not_lt_nil s)
  | cons d t ih =>
    rw [encode_cons]
    cases s with
    | nil =>
      show [] < encodeChar d ++ encode t
      cases hd : encodeChar d with
      | nil => exact absurd hd (encodeChar_ne_nil d)
      | cons b bs => exact List.nil_lt_cons b _
    | cons c s =>
      rw [encode_cons]
      rcases List.cons_lt_cons_iff.1 h with hc | ⟨rfl, hs⟩
      · exact encodeChar_lt hc _ _
      · exact List.append_left_lt (ih hs)

/-- Texts are ordered by their bytes. -/
theorem le_iff_encode_le {s t : String} : le s t = true ↔ encode s.toList ≤ encode t.toList := by
  unfold le
  rw [decide_eq_true_iff, ← String.not_lt, String.lt_iff, List.not_lt]
  constructor
  · intro h
    rcases List.le_iff_lt_or_eq.1 h with hlt | heq
    · exact List.le_of_lt (encode_lt hlt)
    · rw [heq]
      exact List.le_refl _
  · intro h
    exact List.not_lt.1 fun hlt => List.not_lt.2 h (encode_lt hlt)

end MediaBackup.Text
