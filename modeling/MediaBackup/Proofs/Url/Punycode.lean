import Mathlib.Data.List.TakeWhile
import Mathlib.Tactic.Ring
import MediaBackup.Proofs.Text.Order
import MediaBackup.Url.Punycode

/-
  Punycode is read back.

  Encoder and decoder walk the same way.  While the encoder goes through a label for one code point, the decoder has
  put in the smaller ones, and this one as far as the encoder has come (`standing`); what the encoder has counted is how
  far it is to the next one from where the decoder stands (`Agrees`).  One distance takes the decoder there
  (`decodeFrom_encodeDistance`), one pass puts one code point in everywhere (`decodeFrom_encodePass`), and the passes
  put in all of them (`decode?_encode`).
-/

namespace MediaBackup.Url.Punycode

variable {c : Char} {s label : List Char}

/-! ## Digits -/

/-- `c` is a digit as it is written. -/
def isDigitChar (c : Char) : Bool := (List.range 36).any fun d => c == digitChar d

theorem isDigitChar_digitChar {d : Nat} (h : d < 36) : isDigitChar (digitChar d) = true :=
  List.any_eq_true.mpr ⟨d, List.mem_range.mpr h, beq_self_eq_true _⟩

theorem forall_isDigitChar {p : Char → Prop} (h : ∀ d < 36, p (digitChar d)) : ∀ c, isDigitChar c = true → p c := by
  intro c hc
  obtain ⟨d, hd, hc⟩ := List.any_eq_true.mp hc
  rw [beq_iff_eq.mp hc]
  exact h d (List.mem_range.mp hd)

theorem digitValue?_digitChar : ∀ d < 36, digitValue? (digitChar d) = some d := by decide

theorem threshold_le (k bias : Nat) : threshold k bias ≤ 26 := by
  unfold threshold
  split_ifs <;> omega

theorem isDigitChar_of_mem_encodeDistance {bias q k : Nat} (h : c ∈ encodeDistance bias q k) :
    isDigitChar c = true := by
  fun_induction encodeDistance bias q k with
  | case1 q k t hq =>
    have ht : t ≤ 26 := threshold_le k bias
    rw [List.mem_singleton.mp h]
    exact isDigitChar_digitChar (by omega)
  | case2 q k t hq ih =>
    rcases List.mem_cons.mp h with rfl | h
    · have ht : t ≤ 26 := threshold_le k bias
      have hmod := Nat.mod_lt (q - t) (show 0 < 36 - t by omega)
      exact isDigitChar_digitChar (by omega)
    · exact ih h

theorem encodeDistance_ne_nil (bias q k : Nat) : encodeDistance bias q k ≠ [] := by
  rw [encodeDistance]
  split <;> exact List.cons_ne_nil _ _

/-- A distance is read back, whatever follows it. -/
theorem decodeDistance_encodeDistance {bias i weight k q : Nat} (rest : List Char) (h : i + q * weight ≤ distanceMax) :
    decodeDistance bias i weight k (encodeDistance bias q k ++ rest) = some (i + q * weight, rest) := by
  induction q using Nat.strongRecOn generalizing i weight k with
  | ind q ih =>
    have ht : threshold k bias ≤ 26 := threshold_le k bias
    have hpos := threshold_pos k bias
    rw [encodeDistance]
    generalize hthreshold : threshold k bias = t at *
    by_cases hq : q < t
    · rw [if_pos hq, List.singleton_append, decodeDistance, digitValue?_digitChar q (by omega), hthreshold]
      show (if distanceMax < i + q * weight then none else if q < t then _ else _) = _
      rw [if_neg (Nat.not_lt.mpr h), if_pos hq]
    · have hmod := Nat.mod_lt (q - t) (show 0 < 36 - t by omega)
      have hless : (q - t) / (36 - t) < q := Nat.lt_of_le_of_lt (Nat.div_le_self _ _) (by omega)
      -- the digit and the rest of the distance add up
      have hsum : i + (t + (q - t) % (36 - t)) * weight + (q - t) / (36 - t) * (weight * (36 - t)) = i + q * weight := by
        have hdiv : (q - t) % (36 - t) + (36 - t) * ((q - t) / (36 - t)) = q - t := Nat.mod_add_div _ _
        calc i + (t + (q - t) % (36 - t)) * weight + (q - t) / (36 - t) * (weight * (36 - t))
            = i + (t + ((q - t) % (36 - t) + (36 - t) * ((q - t) / (36 - t)))) * weight := by ring
          _ = i + q * weight := by rw [hdiv, Nat.add_sub_cancel' (Nat.not_lt.mp hq)]
      rw [if_neg hq, List.cons_append, decodeDistance, digitValue?_digitChar _ (by omega), hthreshold]
      dsimp only
      rw [if_neg (by omega), if_neg (by omega), ih _ hless (by omega), hsum]

/-! ## One code point -/

/-- A code point that a label may hold. -/
structure IsCode (m : Nat) : Prop where
  valid : m.isValidChar
  le : m ≤ codeMax

theorem isCode_toNat (c : Char) : IsCode c.toNat := ⟨c.valid, Nat.le_of_lt_succ (Text.toNat_char_lt c)⟩

/-- A distance takes the decoder to the next code point and its place. -/
theorem decodeFrom_encodeDistance {label : List Nat} {n i delta m p : Nat} (bias : Nat) (first : Bool) (hm : IsCode m)
    (hn : n ≤ m) (hp : p ≤ label.length) (hsize : label.length ≤ 1000)
    (hway : i + delta = (m - n) * (label.length + 1) + p) (rest : List Char) :
    decodeFrom label n i bias first (encodeDistance bias delta 36 ++ rest) =
      decodeFrom (label.take p ++ m :: label.drop p) m (p + 1) (adapt delta (label.length + 1) first) false rest := by
  have hmax : i + delta ≤ distanceMax := by
    have hfar : (m - n) * (label.length + 1) ≤ codeMax * 1001 :=
      Nat.mul_le_mul (Nat.le_trans (Nat.sub_le m n) hm.le) (by omega)
    rw [hway]
    exact Nat.le_trans (Nat.add_le_add hfar (Nat.le_trans hp hsize)) (by decide)
  have hread : decodeDistance bias i 1 36 (encodeDistance bias delta 36 ++ rest) = some (i + delta, rest) := by
    rw [decodeDistance_encodeDistance rest (by rwa [Nat.mul_one]), Nat.mul_one]
  have hdiv : (i + delta) / (label.length + 1) = m - n := by
    rw [hway, Nat.mul_comm, Nat.mul_add_div (Nat.succ_pos _), Nat.div_eq_of_lt (Nat.lt_succ_of_le hp), Nat.add_zero]
  have hmod : (i + delta) % (label.length + 1) = p := by
    rw [hway, Nat.mul_comm, Nat.mul_add_mod, Nat.mod_eq_of_lt (Nat.lt_succ_of_le hp)]
  have hvalid := hm.valid
  have hle := hm.le
  simp only [Nat.isValidChar] at hvalid
  have hcode : ¬ (codeMax < m ∨ (0xD800 ≤ m ∧ m < 0xE000)) := by omega
  have hne : (encodeDistance bias delta 36 ++ rest).isEmpty = false := by
    rw [List.isEmpty_eq_false_iff]
    exact List.append_ne_nil_of_left_ne_nil (encodeDistance_ne_nil _ _ _) _
  rw [decodeFrom, hne, if_neg Bool.false_ne_true]
  split
  · next h =>
    rw [hread] at h
    cases h
  · next j r h =>
    rw [hread] at h
    cases h
    simp only [hdiv, hmod, Nat.add_sub_cancel' hn, if_neg hcode, Nat.add_sub_cancel_left]

/-! ## One pass -/

/-- What stands when the encoder, on its pass for `m`, has passed one part of the label and has the other ahead. -/
def standing (m : Nat) (passed ahead : List Nat) : List Nat := passed.filter (· ≤ m) ++ ahead.filter (· < m)

/-- The encoder has counted how far it is to its place from the one of the decoder. -/
structure Agrees (plain m : Nat) (passed ahead : List Nat) (c : Coder) (n i : Nat) : Prop where
  le : n ≤ m
  way : i + c.delta = (m - n) * (c.count + 1) + (passed.filter (· ≤ m)).length
  count : c.count = (standing m passed ahead).length
  plain : plain ≤ c.count

theorem length_standing_le (m : Nat) (passed ahead : List Nat) :
    (standing m passed ahead).length ≤ (passed ++ ahead).length := by
  rw [standing, List.length_append, List.length_append]
  exact Nat.add_le_add (List.length_filter_le _ _) (List.length_filter_le _ _)

variable {plain m n i : Nat} {passed ahead : List Nat} {coder : Coder}

/-- A code point is put in where the encoder met it, and both agree behind it. -/
theorem Agrees.put (hm : IsCode m) (hsize : (passed ++ m :: ahead).length ≤ 1000)
    (h : Agrees plain m passed (m :: ahead) coder n i) :
    Agrees plain m (passed ++ [m]) ahead
        ⟨0, adapt coder.delta (coder.count + 1) (coder.count == plain), coder.count + 1⟩ m
        ((passed.filter (· ≤ m)).length + 1) ∧
      ∀ rest, decodeFrom (standing m passed (m :: ahead)) n i coder.bias (coder.count == plain)
          (encodeDistance coder.bias coder.delta 36 ++ rest) =
        decodeFrom (standing m (passed ++ [m]) ahead) m ((passed.filter (· ≤ m)).length + 1)
          (adapt coder.delta (coder.count + 1) (coder.count == plain)) false rest := by
  have hcount := h.count
  have hle : ((passed.filter (· ≤ m)).length) ≤ (standing m passed (m :: ahead)).length := by
    rw [standing, List.length_append]
    exact Nat.le_add_right _ _
  have hstand : standing m (passed ++ [m]) ahead =
      (standing m passed (m :: ahead)).take (passed.filter (· ≤ m)).length ++
        m :: (standing m passed (m :: ahead)).drop (passed.filter (· ≤ m)).length := by
    simp [standing]
  have hstep := decodeFrom_encodeDistance coder.bias (coder.count == plain) hm h.le hle
    (Nat.le_trans (length_standing_le _ _ _) hsize) (hcount ▸ h.way)
  rw [← hstand, ← hcount] at hstep
  refine ⟨⟨Nat.le_refl m, by simp, ?_, Nat.le_succ_of_le h.plain⟩, hstep⟩
  rw [hstand, List.length_append, List.length_cons, ← Nat.add_assoc, ← List.length_append, List.take_append_drop,
    ← hcount]

/-- The decoder follows one pass, and both agree behind it. -/
theorem decodeFrom_encodePass (hm : IsCode m) (hsize : (passed ++ ahead).length ≤ 1000)
    (h : Agrees plain m passed ahead coder n i) : ∃ n' i',
      Agrees plain m (passed ++ ahead) [] (encodePass m plain ahead coder).2 n' i' ∧
      ∀ rest, decodeFrom (standing m passed ahead) n i coder.bias (coder.count == plain)
          ((encodePass m plain ahead coder).1 ++ rest) =
        decodeFrom (standing m (passed ++ ahead) []) n' i' (encodePass m plain ahead coder).2.bias
          ((encodePass m plain ahead coder).2.count == plain) rest := by
  induction ahead generalizing passed coder n i with
  | nil =>
    rw [List.append_nil]
    exact ⟨n, i, h, fun rest => rfl⟩
  | cons x ahead ih =>
    have hnext : (passed ++ [x] ++ ahead).length ≤ 1000 := by rwa [List.append_assoc, List.singleton_append]
    have hway := h.way
    have hcount := h.count
    rw [encodePass, List.append_cons]
    rcases Nat.lt_trichotomy x m with hx | rfl | hx
    · -- smaller ones stand already: the place moves on
      have hstand : standing m (passed ++ [x]) ahead = standing m passed (x :: ahead) := by
        simp [standing, hx, Nat.le_of_lt hx]
      rw [if_pos hx, ← hstand]
      refine ih hnext ⟨h.le, ?_, by rw [hstand]; exact hcount, h.plain⟩
      rw [List.filter_append, List.filter_cons_of_pos (by simp [Nat.le_of_lt hx]), List.length_append]
      exact (congrArg (· + 1) hway).trans (Nat.add_assoc _ _ _)
    · -- here it is put in
      obtain ⟨hafter, hstep⟩ := h.put hm hsize
      obtain ⟨n', i', hagrees, hread⟩ := ih hnext hafter
      have hfalse : (coder.count + 1 == plain) = false := by
        have := h.plain
        rw [beq_eq_false_iff_ne]
        omega
      rw [if_neg (Nat.lt_irrefl x), if_pos rfl]
      refine ⟨n', i', hagrees, fun rest => ?_⟩
      rw [List.append_assoc, hstep, ← hread, hfalse]
    · -- greater ones wait for their own pass
      have hstand : standing m (passed ++ [x]) ahead = standing m passed (x :: ahead) := by
        simp [standing, Nat.lt_asymm hx, Nat.not_le.mpr hx]
      rw [if_neg (Nat.lt_asymm hx), if_neg (Nat.ne_of_gt hx), ← hstand]
      refine ih hnext ⟨h.le, ?_, by rw [hstand]; exact hcount, h.plain⟩
      simpa [Nat.not_le.mpr hx] using hway

/-! ## All passes -/

/-- Between two passes the encoder skips what no code point of the label is. -/
theorem Agrees.skip {codes : List Nat} {next : Nat} (h : Agrees plain next [] codes coder n i) (hm : next ≤ m)
    (hnone : ∀ x ∈ codes, next ≤ x → m ≤ x) :
    Agrees plain m [] codes { coder with delta := coder.delta + (m - next) * (coder.count + 1) } n i ∧
      standing m [] codes = standing next [] codes := by
  have hstand : standing m [] codes = standing next [] codes := by
    refine List.filter_congr fun x hx => ?_
    rw [decide_eq_decide]
    exact ⟨fun hlt => Nat.lt_of_not_le fun hge => absurd (hnone x hx hge) (Nat.not_le.mpr hlt),
      fun hlt => Nat.lt_of_lt_of_le hlt hm⟩
  refine ⟨⟨Nat.le_trans h.le hm, ?_, by rw [hstand]; exact h.count, h.plain⟩, hstand⟩
  have hway := h.way
  have hle := h.le
  simp only [List.filter_nil, List.length_nil, Nat.add_zero] at hway ⊢
  rw [← Nat.add_assoc, hway, ← Nat.add_mul]
  congr 1
  omega

/-- Behind a pass the encoder stands before the next code point. -/
theorem Agrees.turn {codes : List Nat} (h : Agrees plain m codes [] coder n i) :
    Agrees plain (m + 1) [] codes { coder with delta := coder.delta + 1 } n i ∧
      standing (m + 1) [] codes = standing m codes [] := by
  have hstand : standing (m + 1) [] codes = standing m codes [] := by
    simp only [standing, List.filter_nil, List.nil_append, List.append_nil, Nat.lt_succ_iff]
  have hway := h.way
  have hle := h.le
  have hcount := h.count
  refine ⟨⟨by omega, ?_, by rw [hstand]; exact hcount, h.plain⟩, hstand⟩
  simp only [standing, List.filter_nil, List.append_nil, List.length_nil, Nat.add_zero] at hway hcount ⊢
  rw [← Nat.add_assoc, hway, ← hcount, Nat.add_assoc, ← Nat.succ_mul]
  congr 1
  omega

/-- The decoder follows all passes. -/
theorem decodeFrom_encodeFrom {codes others : List Nat} (hcodes : ∀ m ∈ others, IsCode m) (hsize : codes.length ≤ 1000)
    (hsorted : others.Pairwise (· < ·)) {next : Nat} (hnext : ∀ m ∈ others, next ≤ m)
    (hall : ∀ m ∈ codes, next ≤ m → m ∈ others) (h : Agrees plain next [] codes coder n i) :
    decodeFrom (standing next [] codes) n i coder.bias (coder.count == plain) (encodeFrom codes plain others next coder) =
      some codes := by
  induction others generalizing next coder n i with
  | nil =>
    have hlt : ∀ m ∈ codes, decide (m < next) = true := fun m hm =>
      decide_eq_true (Nat.lt_of_not_le fun hle => List.not_mem_nil (hall m hm hle))
    rw [encodeFrom, decodeFrom]
    exact congrArg some (List.filter_eq_self.mpr hlt)
  | cons m others ih =>
    obtain ⟨hm, hothers⟩ := List.forall_mem_cons.mp hcodes
    obtain ⟨hmin, hsorted⟩ := List.pairwise_cons.mp hsorted
    have hnone : ∀ x ∈ codes, next ≤ x → m ≤ x := fun x hx hle =>
      (List.mem_cons.mp (hall x hx hle)).elim (fun heq => Nat.le_of_eq heq.symm) fun hmem => Nat.le_of_lt (hmin x hmem)
    obtain ⟨hstart, hstand⟩ := h.skip (hnext m (.head _)) hnone
    obtain ⟨n', i', hagrees, hread⟩ := decodeFrom_encodePass hm (by rwa [List.nil_append]) hstart
    obtain ⟨hturn, hturned⟩ := hagrees.turn
    rw [encodeFrom, ← hstand]
    refine (hread _).trans ?_
    refine hturned ▸ ih hothers hsorted (fun x hx => hmin x hx) (fun x hx hle => ?_) hturn
    exact (List.mem_cons.mp (hall x hx (Nat.le_trans (hnext m (.head _)) (Nat.le_of_succ_le hle)))).resolve_left
      (Nat.ne_of_gt hle)

/-! ## Labels -/

theorem mem_distinct_iff {l : List Nat} {a : Nat} : a ∈ distinct l ↔ a ∈ l := by
  fun_induction distinct l with
  | case1 b r ih => simp [ih]
  | case2 b c r hne ih => simp [ih]
  | case3 r h => rfl

theorem pairwise_distinct {l : List Nat} (h : l.Pairwise (· ≤ ·)) : (distinct l).Pairwise (· < ·) := by
  fun_induction distinct l with
  | case1 b r ih => exact ih (List.pairwise_cons.mp h).2
  | case2 b c r hne ih =>
    obtain ⟨hle, hr⟩ := List.pairwise_cons.mp h
    refine List.pairwise_cons.mpr ⟨fun x hx => ?_, ih hr⟩
    rcases List.mem_cons.mp (mem_distinct_iff.mp hx) with rfl | hx
    · exact Nat.lt_of_le_of_ne (hle x (.head _)) hne
    · have hbc := Nat.lt_of_le_of_ne (hle c (.head _)) hne
      exact Nat.lt_of_lt_of_le hbc ((List.pairwise_cons.mp hr).1 x hx)
  | case3 r hr =>
    match r, hr with
    | [], _ => exact .nil
    | [a], _ => exact List.pairwise_singleton _ a
    | a :: b :: r, hr => exact absurd rfl (hr a b r)

/-- The code points beyond ASCII, each once. -/
def others (label : List Char) : List Nat := distinct (((label.map Char.toNat).filter (0x80 ≤ ·)).mergeSort)

theorem mem_others_iff {m : Nat} : m ∈ others label ↔ 0x80 ≤ m ∧ ∃ c ∈ label, c.toNat = m := by
  rw [others, mem_distinct_iff, List.mem_mergeSort, List.mem_filter, List.mem_map, decide_eq_true_iff, and_comm]

theorem pairwise_others (label : List Char) : (others label).Pairwise (· < ·) := by
  refine pairwise_distinct ?_
  exact (List.pairwise_mergeSort (fun a b c hab hbc => by simp only [decide_eq_true_eq] at *; omega)
    (fun a b => by simp only [Bool.or_eq_true, decide_eq_true_eq]; omega) _).imp of_decide_eq_true

/-- The digits of a label. -/
def digits (label : List Char) : List Char :=
  let plain := label.filter fun c => c.toNat < 0x80
  encodeFrom (label.map Char.toNat) plain.length (others label) 0x80 ⟨0, 72, plain.length⟩

theorem encode_eq (label : List Char) : encode label =
    (label.filter fun c => c.toNat < 0x80) ++ (if (label.filter fun c => c.toNat < 0x80).isEmpty then [] else ['-']) ++
      digits label := rfl

theorem isDigitChar_of_mem_encodePass {m plain : Nat} {codes : List Nat} {coder : Coder}
    (h : c ∈ (encodePass m plain codes coder).1) : isDigitChar c = true := by
  induction codes generalizing coder with
  | nil => cases h
  | cons x codes ih =>
    rw [encodePass] at h
    split_ifs at h
    · exact ih h
    · exact (List.mem_append.mp h).elim isDigitChar_of_mem_encodeDistance ih
    · exact ih h

theorem isDigitChar_of_mem_encodeFrom {codes others : List Nat} {plain n : Nat} {coder : Coder}
    (h : c ∈ encodeFrom codes plain others n coder) : isDigitChar c = true := by
  induction others generalizing n coder with
  | nil => cases h
  | cons m others ih => exact (List.mem_append.mp h).elim isDigitChar_of_mem_encodePass ih

/-- What is written is plain text of the label, the mark behind it, or a digit. -/
theorem mem_of_mem_encode (h : c ∈ encode label) : (c ∈ label ∧ c.toNat < 0x80) ∨ c = '-' ∨ isDigitChar c = true := by
  rw [encode_eq, List.mem_append, List.mem_append, List.mem_filter, decide_eq_true_iff] at h
  rcases h with (h | h) | h
  · exact .inl h
  · split at h
    · cases h
    · exact .inr (.inl (List.mem_singleton.mp h))
  · exact .inr (.inr (isDigitChar_of_mem_encodeFrom h))

theorem toNat_lt_of_mem_encode (h : c ∈ encode label) : c.toNat < 0x80 := by
  rcases mem_of_mem_encode h with ⟨-, h⟩ | rfl | hdigit
  · exact h
  · decide
  · exact forall_isDigitChar (p := fun c => c.toNat < 0x80) (by decide) c hdigit

/-- The decoder finds the digits behind the last mark, and the plain text before it. -/
theorem split_encode (label : List Char) : ((encode label).reverse.takeWhile (· != '-')).reverse = digits label ∧
    (encode label).take ((encode label).length - (digits label).length - 1) = label.filter fun c => c.toNat < 0x80 := by
  have hdash : ∀ c ∈ digits label, (c != '-') = true := fun c hc =>
    forall_isDigitChar (p := fun c => (c != '-') = true) (by decide) c (isDigitChar_of_mem_encodeFrom hc)
  rw [encode_eq]
  cases hp : label.filter fun c => c.toNat < 0x80 with
  | nil =>
    rw [List.isEmpty_nil, if_pos rfl, List.nil_append, List.nil_append, Nat.sub_self,
      List.takeWhile_eq_self_iff.mpr fun c hc => hdash c (List.mem_reverse.mp hc), List.reverse_reverse]
    exact ⟨rfl, rfl⟩
  | cons a r =>
    rw [List.isEmpty_cons, if_neg Bool.false_ne_true, List.reverse_append,
      List.takeWhile_append_of_pos fun c hc => hdash c (List.mem_reverse.mp hc), List.reverse_append]
    refine ⟨?_, ?_⟩
    · rw [List.reverse_append, List.reverse_singleton, List.singleton_append, List.takeWhile_cons_of_neg (by decide),
        List.reverse_reverse]
      rfl
    · rw [List.length_append, Nat.add_sub_cancel, List.length_append, List.length_singleton, Nat.add_sub_cancel,
        List.append_assoc, List.take_left]

/-- The digits put back what the plain text lacks. -/
theorem decodeFrom_digits (h : label.length ≤ 1000) :
    decodeFrom ((label.filter fun c => c.toNat < 0x80).map Char.toNat) 0x80 0 72 true (digits label) =
      some (label.map Char.toNat) := by
  have hplain : (label.filter fun c => c.toNat < 0x80).map Char.toNat = standing 0x80 [] (label.map Char.toNat) := by
    rw [standing, List.filter_nil, List.nil_append, List.filter_map]
    rfl
  have hagrees : Agrees (label.filter fun c => c.toNat < 0x80).length 0x80 [] (label.map Char.toNat)
      ⟨0, 72, (label.filter fun c => c.toNat < 0x80).length⟩ 0x80 0 :=
    ⟨Nat.le_refl _, by simp, by rw [← hplain, List.length_map], Nat.le_refl _⟩
  have hcodes : ∀ m ∈ others label, IsCode m := by
    intro m hm
    obtain ⟨-, c, -, rfl⟩ := mem_others_iff.mp hm
    exact isCode_toNat c
  have hothers : ∀ m ∈ label.map Char.toNat, 0x80 ≤ m → m ∈ others label := by
    intro m hm hle
    obtain ⟨c, hc, rfl⟩ := List.mem_map.mp hm
    exact mem_others_iff.mpr ⟨hle, c, hc, rfl⟩
  have hread := decodeFrom_encodeFrom hcodes (by rwa [List.length_map]) (pairwise_others label)
    (fun m hm => (mem_others_iff.mp hm).1) hothers hagrees
  rwa [beq_self_eq_true, ← hplain] at hread

/-- A label that is not too long is read back. -/
theorem decode?_encode (h : label.length ≤ 1000) : decode? (encode label) = some label := by
  have hascii : (encode label).any (fun c => 0x80 ≤ c.toNat) = false := by
    refine List.any_eq_false.mpr fun c hc => ?_
    rw [decide_eq_true_iff, Nat.not_le]
    exact toNat_lt_of_mem_encode hc
  obtain ⟨htail, hfront⟩ := split_encode label
  rw [decode?, hascii, if_neg Bool.false_ne_true]
  dsimp only
  rw [htail, hfront, decodeFrom_digits h, Option.map_some, List.map_map]
  refine congrArg some (List.map_id'' (fun c => ?_) label)
  exact Char.ofNat_toNat c

/-! ## What a code holds -/

theorem digits_of_decodeDistance {i j weight k bias : Nat} {r : List Char}
    (h : decodeDistance bias i weight k s = some (j, r)) :
    ∃ used, s = used ++ r ∧ ∀ c ∈ used, (digitValue? c).isSome = true := by
  induction s generalizing i weight k with
  | nil => cases h
  | cons c s ih =>
    rw [decodeDistance] at h
    cases hd : digitValue? c with
    | none => simp [hd] at h
    | some d =>
      have hc : (digitValue? c).isSome = true := by rw [hd]; rfl
      simp only [hd] at h
      split_ifs at h
      · cases h
        exact ⟨[c], rfl, List.forall_mem_singleton.mpr hc⟩
      · obtain ⟨used, rfl, hused⟩ := ih h
        exact ⟨c :: used, rfl, List.forall_mem_cons.mpr ⟨hc, hused⟩⟩

/-- What stands stays, and what is read are digits. -/
theorem mem_of_decodeFrom {stands codes : List Nat} {n i bias : Nat} {first : Bool}
    (h : decodeFrom stands n i bias first s = some codes) :
    (∀ m ∈ stands, m ∈ codes) ∧ ∀ c ∈ s, (digitValue? c).isSome = true := by
  induction hsize : s.length using Nat.strongRecOn generalizing stands n i bias first s with
  | ind size ih =>
    rw [decodeFrom] at h
    split at h
    · next hs =>
      cases h
      rw [List.isEmpty_iff.mp hs]
      exact ⟨fun m hm => hm, nofun⟩
    · split at h
      · cases h
      · next j r hread =>
        dsimp only at h
        split at h
        · cases h
        · obtain ⟨used, rfl, hused⟩ := digits_of_decodeDistance hread
          obtain ⟨hmem, hr⟩ := ih r.length (hsize ▸ decodeDistance_length_lt hread) h rfl
          refine ⟨fun m hm => hmem m ?_, fun c hc => (List.mem_append.mp hc).elim (hused c) (hr c)⟩
          rw [← List.take_append_drop (j % (stands.length + 1)) stands] at hm
          rcases List.mem_append.mp hm with hm | hm
          · exact List.mem_append_left _ hm
          · exact List.mem_append_right _ (.tail _ hm)

/-- A text has no mark, or is its last part behind what ends in the last mark. -/
theorem eq_append_of_last_mark (s : List Char) : s = (s.reverse.takeWhile (· != '-')).reverse ∨
    ∃ front, s = front ++ '-' :: (s.reverse.takeWhile (· != '-')).reverse := by
  have hsplit : s = (s.reverse.dropWhile (· != '-')).reverse ++ (s.reverse.takeWhile (· != '-')).reverse := by
    rw [← List.reverse_append, List.takeWhile_append_dropWhile, List.reverse_reverse]
  cases hfront : s.reverse.dropWhile (· != '-') with
  | nil =>
    rw [hfront] at hsplit
    exact .inl hsplit
  | cons d front =>
    have hne : s.reverse.dropWhile (· != '-') ≠ [] := by
      rw [hfront]
      exact List.cons_ne_nil _ _
    have hd : d = '-' := by simpa [hfront] using List.head_dropWhile_not (· != '-') hne
    rw [hfront, List.reverse_cons, List.append_assoc, hd] at hsplit
    exact .inr ⟨front.reverse, hsplit⟩

/-- What a code holds is plain text of its label, the mark behind it, or a digit. -/
theorem mem_of_decode? (h : decode? s = some label) (hc : c ∈ s) :
    c.toNat < 0x80 ∧ (c ∈ label ∨ c = '-' ∨ (digitValue? c).isSome = true) := by
  rw [decode?] at h
  split at h
  · cases h
  next hascii =>
  have hc' : c.toNat < 0x80 := by simpa using List.any_eq_false.mp (Bool.eq_false_iff.mpr hascii) c hc
  refine ⟨hc', ?_⟩
  obtain ⟨codes, hread, rfl⟩ := Option.map_eq_some_iff.mp h
  obtain ⟨hmem, hdigits⟩ := mem_of_decodeFrom hread
  have hplain (hc : c ∈ s.take (s.length - ((s.reverse.takeWhile (· != '-')).reverse).length - 1)) :
      c ∈ codes.map Char.ofNat :=
    List.mem_map.mpr ⟨c.toNat, hmem _ (List.mem_map_of_mem hc), Char.ofNat_toNat c⟩
  have hsplit := eq_append_of_last_mark s
  generalize (s.reverse.takeWhile (· != '-')).reverse = tail at *
  rcases hsplit with rfl | ⟨front, rfl⟩
  · exact .inr (.inr (hdigits c hc))
  · have hlength : (front ++ '-' :: tail).length - tail.length - 1 = front.length := by
      rw [List.length_append, List.length_cons]
      omega
    rw [hlength, List.take_left] at hplain
    rw [List.mem_append, List.mem_cons] at hc
    rcases hc with hc | hc | hc
    · exact .inl (hplain hc)
    · exact .inr (.inl hc)
    · exact .inr (.inr (hdigits c hc))

end MediaBackup.Url.Punycode
