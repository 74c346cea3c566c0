import Mathlib.Data.Rat.Floor
import Mathlib.Tactic.Linarith
import MediaBackup.Job.Retry

/-
  How long a job waits between two attempts.

  The anchor is computed in 64-bit words: its shift is bounded and its product stops at the greatest word.  Neither is
  seen in a policy that was checked, whose longest wait is a word too (`anchor_eq`).  As long as the window leaves room,
  one more attempt doubles the anchor (`anchor_succ`).

  What is added for the window is computed in floats.  Here both factors, the share and the point of the window, are any
  rational numbers from 0 to 1, and products are rounded down.  Then the wait lies in the window (`delayWithin_bounds`
  asks no more than that the point lies in it).  And if the share is less than a third, the windows of two attempts that
  follow each other do not meet: the half widths together are less than the first anchor, which is the distance of the
  two (`exactSpan_add_lt`).
-/

namespace MediaBackup.RetryPolicy

/-- The policy was checked, and its waits are 64-bit words. -/
structure IsValid (p : RetryPolicy) : Prop where
  checked : p.check = .ok ()
  maxDelay_le : p.maxDelay ≤ wordMax

/-- The half width of the window, for a rational share. -/
def exactSpan (p : RetryPolicy) (ratio : ℚ) (attempt : Nat) : Nat := ⌊(p.anchor attempt : ℚ) * ratio⌋₊

/-- The wait for a rational share, where each attempt of a key has a rational point of its window. -/
def exactDelay (p : RetryPolicy) (ratio : ℚ) (unit : JobKey → Nat → ℚ) (key : JobKey) (attempt : Nat) : Nat :=
  p.delayWithin attempt (p.exactSpan ratio attempt) fun width => ⌊(width : ℚ) * unit key attempt⌋₊

variable {p : RetryPolicy} {attempt : Nat} {ratio : ℚ}

theorem check_eq_ok_iff : p.check = .ok () ↔ p.maxAttempts ≠ 0 ∧ (p.baseDelay ≠ 0 ∧ p.baseDelay ≤ p.maxDelay) ∧
    0.0 ≤ p.jitterRatio ∧ p.jitterRatio ≤ 1.0 := by
  unfold check
  by_cases hattempts : p.maxAttempts = 0
  · rw [if_pos hattempts]
    exact ⟨nofun, fun h => absurd hattempts h.1⟩
  rw [if_neg hattempts]
  by_cases horder : p.baseDelay = 0 ∨ p.maxDelay < p.baseDelay
  · rw [if_pos horder]
    refine ⟨nofun, fun ⟨_, ⟨hbase, hle⟩, _⟩ => ?_⟩
    exact absurd horder (not_or.mpr ⟨hbase, Nat.not_lt.mpr hle⟩)
  rw [if_neg horder]
  obtain ⟨hbase, hle⟩ := not_or.mp horder
  by_cases hjitter : 0.0 ≤ p.jitterRatio ∧ p.jitterRatio ≤ 1.0
  · rw [if_pos hjitter]
    exact ⟨fun _ => ⟨hattempts, ⟨hbase, Nat.not_lt.mp hle⟩, hjitter⟩, fun _ => rfl⟩
  · rw [if_neg hjitter]
    exact ⟨nofun, fun h => absurd h.2.2 hjitter⟩

theorem IsValid.baseDelay_pos (h : p.IsValid) : 0 < p.baseDelay :=
  Nat.pos_of_ne_zero (check_eq_ok_iff.mp h.checked).2.1.1

theorem IsValid.baseDelay_le (h : p.IsValid) : p.baseDelay ≤ p.maxDelay := (check_eq_ok_iff.mp h.checked).2.1.2

/-! ## The anchor -/

/-- The shift loses no bit. -/
theorem two_pow_le_wordMax (attempt : Nat) : 2 ^ min (attempt - 1) 63 ≤ wordMax :=
  (Nat.pow_le_pow_right (by decide) (Nat.min_le_right _ _)).trans (by decide)

/-- That the product stops at the greatest word is not seen below the longest wait. -/
theorem anchor_eq (h : p.maxDelay ≤ wordMax) (attempt : Nat) :
    p.anchor attempt = min (p.baseDelay * 2 ^ min (attempt - 1) 63) p.maxDelay := by
  show min (min (p.baseDelay * 2 ^ min (attempt - 1) 63) wordMax) p.maxDelay = _
  rw [Nat.min_assoc, Nat.min_eq_right h]

theorem anchor_le (p : RetryPolicy) (attempt : Nat) : p.anchor attempt ≤ p.maxDelay := Nat.min_le_right _ _

theorem IsValid.baseDelay_le_anchor (h : p.IsValid) (attempt : Nat) : p.baseDelay ≤ p.anchor attempt := by
  rw [anchor_eq h.maxDelay_le]
  exact Nat.le_min.mpr ⟨Nat.le_mul_of_pos_right _ (Nat.two_pow_pos _), h.baseDelay_le⟩

/-- The anchor does not fall with the attempts. -/
theorem IsValid.anchor_mono (h : p.IsValid) {a b : Nat} (hle : a ≤ b) : p.anchor a ≤ p.anchor b := by
  rw [anchor_eq h.maxDelay_le, anchor_eq h.maxDelay_le]
  have hexponent : min (a - 1) 63 ≤ min (b - 1) 63 := by omega
  have hpower : 2 ^ min (a - 1) 63 ≤ 2 ^ min (b - 1) 63 := Nat.pow_le_pow_right (by decide) hexponent
  have hproduct := Nat.mul_le_mul_left p.baseDelay hpower
  omega

/-- Unbounded doubling gives the same wait, unless a base of one meets a longest wait that 63 doublings do not reach. -/
theorem IsValid.anchor_eq_doubled (h : p.IsValid) (hreach : 2 ≤ p.baseDelay ∨ p.maxDelay ≤ 2 ^ 63) (attempt : Nat) :
    p.anchor attempt = min (p.baseDelay * 2 ^ (attempt - 1)) p.maxDelay := by
  rw [anchor_eq h.maxDelay_le]
  by_cases hearly : attempt - 1 ≤ 63
  · rw [Nat.min_eq_left hearly]
  -- after 63 doublings the longest wait is reached, and more of them change nothing
  · have hlate : 63 ≤ attempt - 1 := by omega
    rw [Nat.min_eq_right hlate]
    have hreached : p.maxDelay ≤ p.baseDelay * 2 ^ 63 := by
      have hword : p.maxDelay ≤ 2 ^ 64 - 1 := h.maxDelay_le
      have hpos := h.baseDelay_pos
      rcases hreach with hbase | hmax
      · have htwice : 2 * 2 ^ 63 ≤ p.baseDelay * 2 ^ 63 := Nat.mul_le_mul_right _ hbase
        omega
      · have honce : 1 * 2 ^ 63 ≤ p.baseDelay * 2 ^ 63 := Nat.mul_le_mul_right _ hpos
        omega
    have hmore : p.baseDelay * 2 ^ 63 ≤ p.baseDelay * 2 ^ (attempt - 1) :=
      Nat.mul_le_mul_left _ (Nat.pow_le_pow_right (by decide) hlate)
    rw [Nat.min_eq_right hreached, Nat.min_eq_right (hreached.trans hmore)]

/-- Where there is room, one more attempt doubles the anchor. -/
theorem IsValid.anchor_succ (h : p.IsValid) (hfirst : 1 ≤ attempt) (hlast : attempt ≤ 63)
    (hroom : 2 * p.anchor attempt ≤ p.maxDelay) : p.anchor (attempt + 1) = 2 * p.anchor attempt := by
  have hpos := h.baseDelay_pos.trans_le (h.baseDelay_le_anchor attempt)
  rw [anchor_eq h.maxDelay_le] at hroom hpos ⊢
  rw [anchor_eq h.maxDelay_le]
  have hnow : min (attempt - 1) 63 = attempt - 1 := by omega
  have hnext : min (attempt + 1 - 1) 63 = (attempt - 1) + 1 := by omega
  rw [hnow] at hroom hpos ⊢
  rw [hnext, Nat.pow_succ, ← Nat.mul_assoc]
  omega

/-! ## The window -/

/-- A policy whose share is zero has no window. -/
theorem span_eq_zero (h : (p.jitterRatio == 0.0) = true) (attempt : Nat) : p.span attempt = 0 := if_pos h

theorem delayFor_eq_anchor (h : (p.jitterRatio == 0.0) = true) (key : JobKey) (attempt : Nat) :
    p.delayFor key attempt = p.anchor attempt := by
  unfold delayFor delayWithin
  exact if_pos (span_eq_zero h attempt)

/-- A wait lies in its window, if the point that is picked does. -/
theorem delayWithin_bounds (h : p.maxDelay ≤ wordMax) (span : Nat) {offset : Nat → Nat}
    (hoffset : ∀ width, offset width ≤ width) :
    p.anchor attempt - span ≤ p.delayWithin attempt span offset ∧
      p.delayWithin attempt span offset ≤ min (p.anchor attempt + span) p.maxDelay := by
  have hanchor := p.anchor_le attempt
  unfold delayWithin
  dsimp only
  split
  · omega
  · have hpoint := hoffset (min (min (p.anchor attempt + span) wordMax) p.maxDelay - (p.anchor attempt - span))
    omega

/-- A share of a number, rounded down, is no more than the number. -/
theorem floor_mul_le (n : Nat) {x : ℚ} (hx : x ≤ 1) : ⌊(n : ℚ) * x⌋₊ ≤ n :=
  Nat.floor_le_of_le (mul_le_of_le_one_right (Nat.cast_nonneg n) hx)

/-- For a share of less than a third, the half widths of two windows together are less than the first anchor. -/
theorem exactSpan_add_lt {a b : Nat} (hratio : 0 ≤ ratio) (hthird : ratio < 1 / 3) (hpos : 0 < p.anchor a)
    (hdouble : p.anchor b = 2 * p.anchor a) : p.exactSpan ratio a + p.exactSpan ratio b < p.anchor a := by
  have hanchor : (0 : ℚ) < p.anchor a := Nat.cast_pos.mpr hpos
  have hnow : (p.exactSpan ratio a : ℚ) ≤ p.anchor a * ratio := Nat.floor_le (mul_nonneg (Nat.cast_nonneg _) hratio)
  have hnext : (p.exactSpan ratio b : ℚ) ≤ p.anchor b * ratio := Nat.floor_le (mul_nonneg (Nat.cast_nonneg _) hratio)
  have hcast : (p.anchor b : ℚ) = 2 * p.anchor a := by rw [hdouble, Nat.cast_mul, Nat.cast_ofNat]
  have hsum : (p.exactSpan ratio a + p.exactSpan ratio b : ℚ) < p.anchor a :=
    calc (p.exactSpan ratio a + p.exactSpan ratio b : ℚ)
      _ ≤ p.anchor a * ratio + p.anchor b * ratio := add_le_add hnow hnext
      _ = p.anchor a * (3 * ratio) := by rw [hcast]; ring
      _ < p.anchor a * 1 := mul_lt_mul_of_pos_left (by linarith) hanchor
      _ = p.anchor a := mul_one _
  exact_mod_cast hsum

/-- **The window of a wait.**  By exact arithmetic the wait lies around the anchor, no more than the half width from it,
    and never beyond the longest wait; no step of it leaves the 64-bit words.  With a share of less than a third it grows
    from one attempt to the next as long as twice the anchor is no more than the longest wait. -/
theorem waits_in_window (h : p.IsValid) (hratio : 0 ≤ ratio ∧ ratio ≤ 1) {unit : JobKey → Nat → ℚ}
    (hunit : ∀ key attempt, 0 ≤ unit key attempt ∧ unit key attempt ≤ 1) :
    (∀ key attempt, 1 ≤ attempt →
      p.anchor attempt = min (p.baseDelay * 2 ^ min (attempt - 1) 63) p.maxDelay ∧
      p.exactSpan ratio attempt ≤ p.anchor attempt ∧
      p.anchor attempt - p.exactSpan ratio attempt ≤ p.exactDelay ratio unit key attempt ∧
      p.exactDelay ratio unit key attempt ≤ min (p.anchor attempt + p.exactSpan ratio attempt) p.maxDelay ∧
      p.exactDelay ratio unit key attempt ≤ wordMax) ∧
    (ratio < 1 / 3 → ∀ key attempt, 1 ≤ attempt → attempt ≤ 63 → 2 * p.anchor attempt ≤ p.maxDelay →
      p.exactDelay ratio unit key attempt < p.exactDelay ratio unit key (attempt + 1)) := by
  have hbounds : ∀ key attempt, p.anchor attempt - p.exactSpan ratio attempt ≤ p.exactDelay ratio unit key attempt ∧
      p.exactDelay ratio unit key attempt ≤ min (p.anchor attempt + p.exactSpan ratio attempt) p.maxDelay :=
    fun key attempt => delayWithin_bounds h.maxDelay_le _ fun width => floor_mul_le width (hunit key attempt).2
  constructor
  · intro key attempt _
    obtain ⟨hlower, hupper⟩ := hbounds key attempt
    refine ⟨anchor_eq h.maxDelay_le attempt, floor_mul_le _ hratio.2, hlower, hupper, ?_⟩
    exact (hupper.trans (Nat.min_le_right _ _)).trans h.maxDelay_le
  · intro hthird key attempt hfirst hlast hroom
    have hpos : 0 < p.anchor attempt := h.baseDelay_pos.trans_le (h.baseDelay_le_anchor attempt)
    have hdouble := h.anchor_succ hfirst hlast hroom
    have hspans := exactSpan_add_lt hratio.1 hthird hpos hdouble
    have hupper := (hbounds key attempt).2
    have hlower := (hbounds key (attempt + 1)).1
    omega

theorem upload_isValid : RetryPolicy.upload.IsValid :=
  ⟨check_eq_ok_iff.mpr ⟨by decide, by decide, by decide +kernel, by decide +kernel⟩, by decide⟩

/-- Of the usual policy of uploads even the longest first wait is shorter than the shortest second one. -/
theorem waits_in_window_upload : RetryPolicy.upload.IsValid ∧ ((0 : ℚ) ≤ 1 / 5 ∧ (1 / 5 : ℚ) ≤ 1) ∧
    (∀ (_ : JobKey) (attempt : Nat), 0 ≤ (if attempt = 1 then 1 else 0 : ℚ) ∧ (if attempt = 1 then 1 else 0 : ℚ) ≤ 1) ∧
    RetryPolicy.upload.exactDelay (1 / 5) (fun _ attempt => if attempt = 1 then 1 else 0) (.upload "a") 1 <
      RetryPolicy.upload.exactDelay (1 / 5) (fun _ attempt => if attempt = 1 then 1 else 0) (.upload "a") 2 := by
  have hratio : (0 : ℚ) ≤ 1 / 5 ∧ (1 / 5 : ℚ) ≤ 1 := by norm_num
  have hunit : ∀ (_ : JobKey) (attempt : Nat),
      0 ≤ (if attempt = 1 then 1 else 0 : ℚ) ∧ (if attempt = 1 then 1 else 0 : ℚ) ≤ 1 := by
    intro _ attempt
    split <;> norm_num
  have hgrows := (waits_in_window upload_isValid hratio hunit).2 (by norm_num) (.upload "a") 1 (by decide) (by decide)
    (by decide)
  exact ⟨upload_isValid, hratio, hunit, hgrows⟩

end MediaBackup.RetryPolicy
