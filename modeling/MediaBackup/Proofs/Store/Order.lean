import Mathlib.Algebra.Order.Field.Power
import Mathlib.Algebra.Order.Field.Rat
import Mathlib.Data.Prod.Lex
import Mathlib.Data.String.Basic
import Mathlib.Data.Sum.Order
import Mathlib.Tactic.NormNum
import MediaBackup.Proofs.Store.Reading

/-
  The order of cells, and the order of rows that are due.

  Two numbers are compared by bringing their mantissas to one power of two.  That this compares the numbers
  themselves (`compareScaled_eq`) gives each cell a RANK in a linear order, the numbers below the texts, and the
  order of cells is the order of ranks (`order_eq`).  So rows are sorted by rank and key (`dueBefore_iff`), and what
  sorts up to a date is the numbers that do not exceed its milliseconds (`le_cell_iff`).
-/

namespace MediaBackup

namespace Cell

/-! ## Ranks -/

/-- `m · 2^p` as a number. -/
def scale (m p : Int) : ℚ := m * 2 ^ p

theorem compareScaled_eq (m p n q : Int) : compareScaled m p n q = compare (scale m p) (scale n q) := by
  have hpos : (0 : ℚ) < 2 ^ min p q := zpow_pos (by decide) _
  -- both numbers are whole multiples of the smaller of the two powers
  have hscale : ∀ k r : Int, min p q ≤ r →
      scale k r = ((k * (Nat.pow 2 (r - min p q).toNat : Nat) : Int) : ℚ) * 2 ^ min p q := by
    intro k r hr
    have hsplit : (2 : ℚ) ^ r = 2 ^ (r - min p q).toNat * 2 ^ min p q := by
      rw [← zpow_natCast, ← zpow_add₀ (by decide), Int.toNat_of_nonneg (by omega), Int.sub_add_cancel]
    unfold scale
    rw [hsplit]
    push_cast
    rw [mul_assoc]
    simp
  rw [hscale m p (min_le_left _ _), hscale n q (min_le_right _ _), ← cmp_eq_compare, cmp_mul_pos_right hpos,
    Int.cast_strictMono.cmp_map_eq, cmp_eq_compare]
  rfl

/-- Where a cell stands among all cells: the numbers by size, then the texts. -/
def rank : Cell → ℚ ⊕ₗ String
  | text s => toLex (.inr s)
  | c => toLex (.inl ((c.scaled?.map fun x => scale x.1 x.2).getD 0))

theorem text_or_number (c : Cell) :
    (∃ s, c = text s) ∨ ∃ m p, c.scaled? = some (m, p) ∧ c.rank = toLex (.inl (scale m p)) := by
  cases c with
  | text s => exact .inl ⟨s, rfl⟩
  | int n => exact .inr ⟨n, 0, rfl, rfl⟩
  | real negative x => exact .inr ⟨_, _, rfl, rfl⟩
  | infinite negative => exact .inr ⟨_, _, rfl, rfl⟩

/-- Cells are ordered by their ranks. -/
theorem order_eq (a b : Cell) : a.order b = compare a.rank b.rank := by
  unfold order
  rcases text_or_number a with ⟨s, rfl⟩ | ⟨m, p, ha, hra⟩ <;>
    rcases text_or_number b with ⟨t, rfl⟩ | ⟨n, q, hb, hrb⟩
  case inl.inl =>
    show compare s t = _
    rw [← cmp_eq_compare, ← cmp_eq_compare]
    exact (Sum.Lex.inr_strictMono.cmp_map_eq s t).symm
  case inl.inr =>
    rw [hb, hrb, show (text s).scaled? = none from rfl]
    exact (compare_gt_iff_gt.mpr (Sum.Lex.inl_lt_inr _ _)).symm
  case inr.inl =>
    rw [ha, hra, show (text t).scaled? = none from rfl]
    exact (compare_lt_iff_lt.mpr (Sum.Lex.inl_lt_inr _ _)).symm
  case inr.inr =>
    rw [ha, hb, hra, hrb]
    show compareScaled m p n q = _
    rw [compareScaled_eq, ← cmp_eq_compare, ← cmp_eq_compare]
    exact (Sum.Lex.inl_strictMono.cmp_map_eq _ _).symm

theorem le_iff_rank {a b : Cell} : a.le b = true ↔ a.rank ≤ b.rank := by
  unfold le
  rw [order_eq, bne_iff_ne, Ne, compare_gt_iff_gt, not_lt]

/-! ## Cells and dates -/

/-- The cell is a number that does not exceed `m`. -/
def IsAtMost : Cell → Int → Prop
  | int n, m => n ≤ m
  | real negative x, m => (if negative then -1 else 1) * (x.mantissa : ℚ) * 2 ^ x.power ≤ m
  | infinite negative, _ => negative = true
  | text _, _ => False

/-- What sorts up to a date is the numbers that do not exceed its milliseconds. -/
theorem le_cell_iff {c : Cell} {t : Instant} (ht : t.IsDate) : c.le t.cell = true ↔ c.IsAtMost t.millis := by
  have hcell : t.cell.rank = toLex (.inl (t.millis : ℚ)) := by
    show toLex (Sum.inl (scale t.millis 0)) = _
    unfold scale
    rw [zpow_zero, mul_one]
  rw [le_iff_rank, hcell]
  cases c with
  | text s => exact iff_of_false (not_le.mpr (Sum.Lex.inl_lt_inr _ _)) id
  | int n =>
    have hrank : (int n).rank = toLex (.inl (n : ℚ)) := by
      show toLex (Sum.inl (scale n 0)) = _
      unfold scale
      rw [zpow_zero, mul_one]
    rw [hrank, Sum.Lex.inl_le_inl_iff, Int.cast_le]
    exact Iff.rfl
  | real negative x =>
    have hrank : (real negative x).rank =
        toLex (.inl ((if negative then -1 else 1) * (x.mantissa : ℚ) * 2 ^ x.power)) := by
      show toLex (Sum.inl (scale (if negative then -(x.mantissa : Int) else x.mantissa) x.power)) = _
      unfold scale
      cases negative <;> simp
    rw [hrank, Sum.Lex.inl_le_inl_iff]
    exact Iff.rfl
  | infinite negative =>
    -- every date lies far inside the floats
    have hfar : (2 : ℚ) ^ (53 : Int) ≤ 2 ^ (1024 : Int) := zpow_le_zpow_right₀ (by norm_num) (by norm_num)
    have hlow : -(2 : ℚ) ^ (53 : Int) ≤ Instant.firstMillis := by unfold Instant.firstMillis; norm_num
    have hhigh : (Instant.lastMillis : ℚ) < 2 ^ (53 : Int) := by unfold Instant.lastMillis; norm_num
    cases negative with
    | true =>
      refine iff_of_true ?_ rfl
      show toLex (Sum.inl (scale (-1) 1024)) ≤ _
      unfold scale
      rw [Sum.Lex.inl_le_inl_iff, Int.cast_neg, Int.cast_one, neg_one_mul]
      exact ((neg_le_neg hfar).trans hlow).trans (Int.cast_le.mpr ht.le_millis)
    | false =>
      refine iff_of_false ?_ Bool.false_ne_true
      show ¬toLex (Sum.inl (scale 1 1024)) ≤ _
      unfold scale
      rw [Sum.Lex.inl_le_inl_iff, Int.cast_one, one_mul, not_le]
      exact ((Int.cast_le.mpr ht.millis_le).trans_lt hhigh).trans_le hfar

end Cell

/-! ## Rows that are due -/

namespace JobRow

/-- Due rows are handed out by the rank of their next run, and by key if it is the same. -/
theorem dueBefore_iff {a b : JobRow} :
    dueBefore a b = true ↔ toLex (a.nextRunAt.rank, a.key) ≤ toLex (b.nextRunAt.rank, b.key) := by
  unfold dueBefore
  rw [Prod.Lex.toLex_le_toLex, Cell.order_eq]
  rcases lt_trichotomy a.nextRunAt.rank b.nextRunAt.rank with h | h | h
  · rw [compare_lt_iff_lt.mpr h]
    exact iff_of_true rfl (.inl h)
  · rw [compare_eq_iff_eq.mpr h, Text.le, decide_eq_true_iff]
    exact ⟨fun hkey => .inr ⟨h, hkey⟩, fun hle => (hle.resolve_left h.not_lt).2⟩
  · rw [compare_gt_iff_gt.mpr h]
    exact iff_of_false Bool.false_ne_true fun hle => hle.elim h.asymm fun heq => h.ne' heq.1

end JobRow

end MediaBackup
