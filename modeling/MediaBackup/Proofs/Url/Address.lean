import Mathlib.Algebra.Group.Nat.Defs
import Mathlib.Data.List.Induction
import Mathlib.Data.List.TakeWhile
import MediaBackup.Proofs.Url.Path
import MediaBackup.Url.Host

/-
  Addresses are read back.

  A number is read back from its digits (`digits?_toDigits`).  So an address of four bytes is read back part by part
  (`Address.parse?_text`), and one of eight pieces piece by piece, up to the run of zeros that is left out, if there is
  one: the two halves are read one after the other, and what is missing between them is that run
  (`WideAddress.parse?_text`).
-/

namespace MediaBackup.Url

theorem mapM_eq_some_iff {α β : Type} {f : α → Option β} {l : List α} {l' : List β} :
    l.mapM f = some l' ↔ l.map f = l'.map some := by
  induction l generalizing l' with
  | nil => cases l' <;> simp
  | cons a l ih =>
    rw [List.mapM_cons, List.map_cons]
    cases l' with
    | nil =>
      simp only [List.map_nil, List.cons_ne_nil, iff_false]
      intro h
      obtain ⟨b, -, h⟩ := Option.bind_eq_some_iff.mp h
      obtain ⟨bs, -, h⟩ := Option.bind_eq_some_iff.mp h
      cases h
    | cons b bs =>
      rw [List.map_cons, List.cons.injEq, ← ih]
      cases f a with
      | none => simp
      | some b' => cases l.mapM f <;> simp

namespace Address

/-! ## Digits -/

theorem digits?_append_singleton (base : Nat) (s : List Char) (c : Char) : digits? base (s ++ [c]) =
    (do
      let n ← digits? base s
      let d ← hexValue? c
      if d < base then some (n * base + d) else none) := by
  rw [digits?, List.foldl_append]
  rfl

theorem digits?_toDigits (base : Nat) (hlo : 1 < base) (hhi : base ≤ 16) (n : Nat) :
    digits? base (Nat.toDigits base n) = some n := by
  have hdigit : ∀ d < 16, hexValue? d.digitChar = some d := by decide
  induction n using Nat.strongRecOn with
  | ind n ih =>
    by_cases hn : n < base
    · rw [Nat.toDigits_of_lt_base hn]
      show (do
        let d ← hexValue? n.digitChar
        if d < base then some (0 * base + d) else none) = some n
      rw [hdigit n (by omega)]
      simp [hn]
    · have hbase : n / base < n := Nat.div_lt_self (by omega) hlo
      have hmod : n % base < base := Nat.mod_lt n (by omega)
      rw [Nat.toDigits_of_base_le hlo (Nat.le_of_not_lt hn), digits?_append_singleton, ih _ hbase, hdigit _ (by omega)]
      simp only [Option.bind_eq_bind, Option.bind_some, if_pos hmod]
      rw [Nat.mul_comm, Nat.div_add_mod]

theorem digits?_lt {base n : Nat} {s : List Char} (h : digits? base s = some n) : n < base ^ s.length := by
  induction s using List.reverseRecOn generalizing n with
  | nil =>
    cases h
    exact Nat.one_pos
  | append_singleton s c ih =>
    rw [digits?_append_singleton] at h
    obtain ⟨m, hm, h⟩ := Option.bind_eq_some_iff.mp h
    obtain ⟨d, -, h⟩ := Option.bind_eq_some_iff.mp h
    split at h
    · next hd =>
      cases h
      rw [List.length_append, List.length_singleton, Nat.pow_succ]
      calc m * base + d < (m + 1) * base := by rw [Nat.add_mul, Nat.one_mul]; omega
        _ ≤ base ^ s.length * base := Nat.mul_le_mul_right base (ih hm)
    · cases h

/-- A number is a part of an address. -/
theorem part?_toDigits (n : Nat) : part? (Nat.toDigits 10 n) = some n := by
  have hread := digits?_toDigits 10 (by decide) (by decide) n
  by_cases hn : n = 0
  · rw [hn]
    rfl
  · have hfirst := Text.head?_toDigits_ne n hn
    obtain ⟨c, r, hc⟩ := List.exists_cons_of_ne_nil (Nat.toDigits_ne_nil (n := n) (b := 10))
    rw [hc] at hfirst hread ⊢
    unfold part?
    split
    · next h => cases h
    · next h => exact absurd (congrArg List.head? h) hfirst
    · next h => exact absurd (congrArg List.head? h) hfirst
    · next h => exact absurd (congrArg List.head? h) hfirst
    · exact hread

/-! ## Addresses of four bytes -/

theorem isDigit_of_mem_toDigits {n : Nat} {c : Char} (h : c ∈ Nat.toDigits 10 n) : c.isDigit = true :=
  Nat.isDigit_of_mem_toDigits (by decide) (by decide) h

/-- The numbers of an address. -/
def bytesOf (n : Nat) : List Nat := [n / 256 ^ 3, n / 256 ^ 2 % 256, n / 256 % 256, n % 256]

theorem parts_text (n : Nat) : parts (text n) = (bytesOf n).map (Nat.toDigits 10) := by
  have hpoint : ∀ s ∈ (bytesOf n).map (Nat.toDigits 10), ∀ c ∈ s, (c == '.') = false := by
    intro s hs c hc
    obtain ⟨m, -, rfl⟩ := List.mem_map.mp hs
    rw [beq_eq_false_iff_ne]
    rintro rfl
    cases isDigit_of_mem_toDigits hc
  have hlast : ((bytesOf n).map (Nat.toDigits 10)).getLast? ≠ some [] := fun h =>
    Nat.toDigits_ne_nil (Option.some.inj h)
  have hsplit : Text.splitAll (· == '.') (text n) = (bytesOf n).map (Nat.toDigits 10) :=
    splitAll_intercalate (by decide) (List.cons_ne_nil _ _) hpoint
  unfold parts
  rw [hsplit]
  exact if_neg hlast

theorem isMeant_text (n : Nat) : isMeant (text n) = true := by
  unfold isMeant
  rw [parts_text]
  show (!(Nat.toDigits 10 (n % 256)).isEmpty && (Nat.toDigits 10 (n % 256)).all Char.isDigit || _) = true
  rw [List.all_eq_true.mpr fun c hc => isDigit_of_mem_toDigits hc, List.isEmpty_eq_false_iff.mpr Nat.toDigits_ne_nil]
  rfl

theorem assemble_cons {size n m : Nat} {k : Nat} {ns : List Nat} (h : assemble size (k :: ns) = some m) (hn : n ≤ 255) :
    assemble (size + 1) (n :: k :: ns) = some (n * 256 ^ size + m) := by
  rw [assemble]
  · rw [Nat.add_sub_cancel, h]
    exact if_pos hn
  · exact List.cons_ne_nil _ _

/-- An address is read back. -/
theorem parse?_text {n : Nat} (h : n ≤ last) : parse? (text n) = some n := by
  have hbound : n < 256 ^ 4 := Nat.lt_succ_of_le h
  have hparts : ((bytesOf n).map (Nat.toDigits 10)).mapM part? = some (bytesOf n) := by
    rw [mapM_eq_some_iff, List.map_map]
    exact List.map_congr_left fun m _ => part?_toDigits m
  have hlast : assemble 1 [n % 256] = some (n % 256) := if_pos (Nat.mod_lt n (by decide))
  have hall := assemble_cons (assemble_cons (assemble_cons hlast (n := n / 256 % 256) (by omega))
    (n := n / 256 ^ 2 % 256) (by omega)) (n := n / 256 ^ 3) (by omega)
  unfold parse?
  rw [parts_text]
  show ((bytesOf n).map (Nat.toDigits 10)).mapM part? >>= assemble 4 = some n
  rw [hparts]
  show assemble 4 [n / 256 ^ 3, n / 256 ^ 2 % 256, n / 256 % 256, n % 256] = some n
  rw [hall]
  congr 1
  omega

theorem assemble_lt {size n : Nat} {ns : List Nat} (h : assemble size ns = some n) (hlen : ns.length ≤ size) :
    n < 256 ^ size := by
  induction ns generalizing size n with
  | nil => cases h
  | cons k ns ih =>
    cases ns with
    | nil =>
      rw [assemble] at h
      split at h
      · cases h
        assumption
      · cases h
    | cons l ns =>
      obtain ⟨size, rfl⟩ := Nat.exists_eq_succ_of_ne_zero (show size ≠ 0 by rintro rfl; cases hlen)
      rw [assemble, Nat.succ_sub_one] at h
      · obtain ⟨rest, hrest, h⟩ := Option.bind_eq_some_iff.mp h
        have hlt := ih hrest (Nat.le_of_succ_le_succ hlen)
        split at h
        · next hk =>
          cases h
          show k * 256 ^ size + rest < _
          calc k * 256 ^ size + rest < (k + 1) * 256 ^ size := by rw [Nat.add_mul, Nat.one_mul]; omega
            _ ≤ 256 * 256 ^ size := Nat.mul_le_mul_right _ (by omega)
            _ = 256 ^ (size + 1) := by rw [Nat.pow_succ, Nat.mul_comm]
        · cases h
      · exact List.cons_ne_nil _ _

/-- What is read is an address. -/
theorem le_last_of_parse? {s : List Char} {n : Nat} (h : parse? s = some n) : n ≤ last := by
  unfold parse? at h
  dsimp only at h
  split at h
  · cases h
  · next hlen =>
    obtain ⟨ns, hns, h⟩ := Option.bind_eq_some_iff.mp h
    have hlength := congrArg List.length (mapM_eq_some_iff.mp hns)
    rw [List.length_map, List.length_map] at hlength
    exact Nat.le_of_lt_succ (assemble_lt h (by omega))

end Address

/-! ## Addresses of eight pieces -/

namespace WideAddress

/-- The pieces of an address. -/
structure IsPieces (ps : List Nat) : Prop where
  length : ps.length = 8
  lt : ∀ p ∈ ps, p < 16 ^ 4

/-! ### What is written -/

/-- The longest run of zeros is one. -/
theorem longestRun_spec (ps : List Nat) (k : Nat) : ∃ before after, ps = before ++ List.replicate (longestRun ps k).2 0 ++ after ∧
    ((longestRun ps k).2 ≠ 0 → (longestRun ps k).1 = k + before.length) := by
  induction ps generalizing k with
  | nil => exact ⟨[], [], rfl, fun h => absurd rfl h⟩
  | cons p ps ih =>
    rw [longestRun]
    split
    · obtain ⟨before, after, hps, hat⟩ := ih (k + 1)
      refine ⟨p :: before, after, ?_, fun h => ?_⟩
      · rw [List.cons_append, List.cons_append, ← hps]
      · rw [hat h, List.length_cons]
        omega
    · refine ⟨[], (p :: ps).dropWhile (· == 0), ?_, fun _ => rfl⟩
      have hzeros : (p :: ps).takeWhile (· == 0) = List.replicate (zeroRun (p :: ps)) 0 :=
        List.eq_replicate_iff.mpr ⟨rfl, fun b hb => by simpa using List.mem_takeWhile_imp hb⟩
      rw [List.nil_append, ← hzeros, List.takeWhile_append_dropWhile]

theorem mem_toDigits {n : Nat} {c : Char} (h : c ∈ Nat.toDigits 16 n) : ∃ d < 16, c = d.digitChar := by
  induction n using Nat.strongRecOn with
  | ind n ih =>
    by_cases hn : n < 16
    · rw [Nat.toDigits_of_lt_base hn, List.mem_singleton] at h
      exact ⟨n, hn, h⟩
    · rw [Nat.toDigits_of_base_le (by decide) (Nat.le_of_not_lt hn), List.mem_append, List.mem_singleton] at h
      rcases h with h | h
      · exact ih _ (Nat.div_lt_self (by omega) (by decide)) h
      · exact ⟨_, Nat.mod_lt _ (by decide), h⟩

theorem hexValue?_of_mem_toDigits {n : Nat} {c : Char} (h : c ∈ Nat.toDigits 16 n) : (hexValue? c).isSome = true := by
  have hdigit : ∀ d < 16, (hexValue? d.digitChar).isSome = true := by decide
  obtain ⟨d, hd, rfl⟩ := mem_toDigits h
  exact hdigit d hd

/-! ### One piece -/

theorem takeWhile_take_toDigits {p : Nat} (hp : p < 16 ^ 4) {rest : List Char}
    (hrest : ∀ c ∈ rest.head?, (hexValue? c).isSome = false) :
    ((Nat.toDigits 16 p ++ rest).take 4).takeWhile (fun c => (hexValue? c).isSome) = Nat.toDigits 16 p := by
  have hlen : (Nat.toDigits 16 p).length ≤ 4 := (Nat.length_toDigits_le_iff (by decide) (by decide)).mpr hp
  have hall : ∀ c ∈ Nat.toDigits 16 p, (hexValue? c).isSome = true := fun c => hexValue?_of_mem_toDigits
  rw [List.take_append, List.take_of_length_le hlen, List.takeWhile_append_of_pos hall]
  cases rest with
  | nil => simp
  | cons c rest =>
    cases hk : 4 - (Nat.toDigits 16 p).length with
    | zero => simp
    | succ k => rw [List.take_succ_cons, List.takeWhile_cons_of_neg (by simp [hrest c rfl]), List.append_nil]

/-- Goes on behind a piece. -/
def readOn (r : Reading) : List Char → Option Reading
  | ':' :: d :: more => readPieces r (d :: more)
  | _ => some r

theorem readPieces_toDigits_append {r : Reading} {p : Nat} (hp : p < 16 ^ 4)
    (hsize : ¬ 8 ≤ r.pieces.length + (if r.gap.isSome then 1 else 0)) {rest : List Char}
    (hrest : rest = [] ∨ ∃ d more, rest = ':' :: d :: more) :
    readPieces r (Nat.toDigits 16 p ++ rest) = readOn { r with pieces := p :: r.pieces } rest := by
  have hcolon : ∀ c ∈ rest.head?, (hexValue? c).isSome = false := by
    intro c hc
    rcases hrest with rfl | ⟨d, more, rfl⟩
    · cases hc
    · cases hc
      rfl
  obtain ⟨c, cs, hc⟩ := List.exists_cons_of_ne_nil (Nat.toDigits_ne_nil (n := p) (b := 16))
  have hfirst : (hexValue? c).isSome = true := hexValue?_of_mem_toDigits (n := p) (by rw [hc]; exact .head _)
  have htake := takeWhile_take_toDigits hp hcolon
  have hvalue : Address.digits? 16 (c :: cs) = some p := hc ▸ Address.digits?_toDigits 16 (by decide) (by decide) p
  rw [hc, List.cons_append] at htake ⊢
  rw [readPieces]
  · rw [htake, hvalue, if_neg hsize]
    have hdrop : (c :: (cs ++ rest)).drop (c :: cs).length = rest := @List.drop_left _ (c :: cs) rest
    rcases hrest with rfl | ⟨d, more, rfl⟩
    · split <;> simp_all [readOn]
    · split <;> simp_all [readOn]
  · rintro rfl
    cases hfirst

/-! ### Several pieces -/

theorem joined_singleton (p : Nat) : joined [p] = Nat.toDigits 16 p := by
  rw [joined, List.map_singleton, List.intercalate_singleton]

theorem joined_cons_cons (p q : Nat) (ps : List Nat) :
    joined (p :: q :: ps) = Nat.toDigits 16 p ++ ':' :: joined (q :: ps) := by
  rw [joined, List.map_cons, List.map_cons, List.intercalate_cons_cons, List.append_assoc]
  rfl

theorem exists_joined_eq_cons (p : Nat) (ps : List Nat) :
    ∃ c cs, joined (p :: ps) = c :: cs ∧ (hexValue? c).isSome = true := by
  obtain ⟨c, cs, hc⟩ := List.exists_cons_of_ne_nil (Nat.toDigits_ne_nil (n := p) (b := 16))
  have hfirst : (hexValue? c).isSome = true := hexValue?_of_mem_toDigits (n := p) (by rw [hc]; exact .head _)
  cases ps with
  | nil => exact ⟨c, cs, (joined_singleton p).trans hc, hfirst⟩
  | cons q ps => exact ⟨c, _, by rw [joined_cons_cons, hc]; rfl, hfirst⟩

/-- Pieces are read one by one, up to the end or to a gap. -/
theorem readPieces_joined {r : Reading} {p : Nat} {ps : List Nat} (h : ∀ q ∈ p :: ps, q < 16 ^ 4)
    (hsize : r.pieces.length + (if r.gap.isSome then 1 else 0) + ps.length < 8) {rest : List Char}
    (hrest : rest = [] ∨ ∃ more, rest = ':' :: ':' :: more) :
    readPieces r (joined (p :: ps) ++ rest) = readOn { r with pieces := (p :: ps).reverse ++ r.pieces } rest := by
  induction ps generalizing r p with
  | nil =>
    rw [joined_singleton]
    have hrest : rest = [] ∨ ∃ d more, rest = ':' :: d :: more := hrest.imp id fun ⟨more, h⟩ => ⟨':', more, h⟩
    exact readPieces_toDigits_append (h p (.head _)) (by simpa using hsize) hrest
  | cons q ps ih =>
    obtain ⟨hp, hps⟩ := List.forall_mem_cons.mp h
    obtain ⟨c, cs, hc, -⟩ := exists_joined_eq_cons q ps
    have hnext := ih (r := { r with pieces := p :: r.pieces }) hps (by simp only [List.length_cons] at hsize ⊢; omega)
    rw [joined_cons_cons, List.append_assoc, List.cons_append,
      readPieces_toDigits_append hp (by simp only [List.length_cons] at hsize; omega) (.inr ⟨c, cs ++ rest, by rw [hc]; rfl⟩)]
    rw [hc, List.cons_append] at hnext ⊢
    show readPieces { r with pieces := p :: r.pieces } (c :: (cs ++ rest)) = _
    rw [hnext, List.reverse_cons (a := p), List.append_assoc]
    rfl

theorem read?_joined (p : Nat) (ps : List Nat) {rest : List Char} (h : ps ≠ [] ∨ rest ≠ []) :
    read? (joined (p :: ps) ++ rest) = readPieces ⟨[], none⟩ (joined (p :: ps) ++ rest) := by
  obtain ⟨c, cs, hc, hfirst⟩ := exists_joined_eq_cons p ps
  have hcolon : c ≠ ':' := by
    rintro rfl
    cases hfirst
  have hmore : cs ++ rest ≠ [] := by
    rcases h with hps | hrest
    · obtain ⟨q, qs, rfl⟩ := List.exists_cons_of_ne_nil hps
      have hdigits := List.length_pos_iff.mpr (Nat.toDigits_ne_nil (n := p) (b := 16))
      have hlength := congrArg List.length (joined_cons_cons p q qs)
      rw [hc, List.length_cons, List.length_append, List.length_cons] at hlength
      exact List.append_ne_nil_of_left_ne_nil (List.length_pos_iff.mp (by omega)) _
    · exact List.append_ne_nil_of_right_ne_nil _ hrest
  obtain ⟨d, more, hd⟩ := List.exists_cons_of_ne_nil hmore
  rw [hc, List.cons_append, hd, read?]
  · intro more' heq
    exact hcolon (List.cons.inj heq).1
  · intro more' heq
    exact hcolon (List.cons.inj heq).1
  · exact nofun
  · exact nofun

/-- What follows a gap. -/
theorem readPieces_after_gap {before : List Nat} {at_ : Nat} {after : List Nat} (h : ∀ q ∈ after, q < 16 ^ 4)
    (hsize : before.length + after.length < 8) :
    readPieces ⟨before, some at_⟩ (joined after) = some ⟨after.reverse ++ before, some at_⟩ := by
  cases after with
  | nil =>
    rw [joined, List.map_nil, List.intercalate_nil, readPieces]
    rfl
  | cons p ps =>
    have hread := readPieces_joined (r := ⟨before, some at_⟩) h
      (by simp only [List.length_cons, Option.isSome_some, if_true] at hsize ⊢; omega) (.inl rfl)
    rw [List.append_nil] at hread
    exact hread

/-- The text of pieces without its brackets. -/
def body (ps : List Nat) : List Char :=
  let (at_, size) := longestRun ps 0
  if size < 2 then joined ps else joined (ps.take at_) ++ [':', ':'] ++ joined (ps.drop (at_ + size))

theorem text_eq (ps : List Nat) : text ps = '[' :: body ps ++ [']'] := rfl

/-- The pieces around a gap are read back, and as many zeros between them as are missing. -/
theorem parse?_gap {before after : List Nat} {size : Nat} (hbefore : ∀ q ∈ before, q < 16 ^ 4)
    (hafter : ∀ q ∈ after, q < 16 ^ 4) (hlength : before.length + size + after.length = 8) (hsize : 2 ≤ size) :
    parse? (joined before ++ [':', ':'] ++ joined after) = some (before ++ List.replicate size 0 ++ after) := by
  have hgap : readPieces ⟨before.reverse, some before.length⟩ (joined after) =
      some ⟨after.reverse ++ before.reverse, some before.length⟩ :=
    readPieces_after_gap hafter (by rw [List.length_reverse]; omega)
  have hread : read? (joined before ++ [':', ':'] ++ joined after) =
      some ⟨(before ++ after).reverse, some before.length⟩ := by
    rw [List.reverse_append, List.append_assoc]
    cases before with
    | nil => exact hgap
    | cons p ps =>
      have hfree : ps.length < 8 := by
        rw [List.length_cons] at hlength
        omega
      have hpieces := readPieces_joined (r := ⟨[], none⟩) hbefore (by simpa using hfree)
        (.inr ⟨joined after, rfl⟩)
      rw [List.append_nil] at hpieces
      refine ((read?_joined p ps (.inr (List.cons_ne_nil _ _))).trans hpieces).trans (Eq.trans ?_ hgap)
      show readPieces _ (':' :: joined after) = _
      rw [readPieces, if_neg]
      · rw [List.length_reverse]
      · simp only [List.length_cons] at hlength
        simp only [List.length_reverse, Option.isSome_none, Bool.false_eq_true, if_false, or_false, List.length_cons]
        omega
  have hsum : (before ++ after).length + size = 8 := by
    rw [List.length_append]
    omega
  have hmissing : 8 - (before ++ after).length = size := by omega
  unfold parse?
  rw [hread, Option.bind_some, Reading.filled?]
  dsimp only
  rw [List.reverse_reverse, if_neg (by omega), hmissing, List.take_left, List.drop_left]

/-- Pieces without a gap are read back. -/
theorem parse?_joined {ps : List Nat} (h : IsPieces ps) : parse? (joined ps) = some ps := by
  obtain ⟨p, qs, rfl⟩ := List.exists_cons_of_length_pos (show 0 < ps.length by rw [h.length]; decide)
  have hlength := h.length
  rw [List.length_cons] at hlength
  have hread := readPieces_joined (r := ⟨[], none⟩) h.lt (by simp; omega) (.inl rfl)
  have hne : qs ≠ [] := List.length_pos_iff.mp (by omega)
  have hstart : read? (joined (p :: qs) ++ []) = _ := read?_joined p qs (.inl hne)
  rw [List.append_nil] at hread hstart
  unfold parse?
  rw [hstart, hread, List.append_nil]
  show (if (p :: qs).reverse.reverse.length = 8 then some (p :: qs).reverse.reverse else none) = _
  rw [List.reverse_reverse, if_pos h.length]

/-- An address is read back. -/
theorem parse?_body {ps : List Nat} (h : IsPieces ps) : parse? (body ps) = some ps := by
  obtain ⟨before, after, hps, hat⟩ := longestRun_spec ps 0
  unfold body
  generalize longestRun ps 0 = run at hps hat ⊢
  obtain ⟨at_, size⟩ := run
  dsimp only at hps hat ⊢
  by_cases hsize : size < 2
  · rw [if_pos hsize, parse?_joined h]
  · rw [if_neg hsize]
    have hstart : at_ = before.length := by
      rw [hat (by omega), Nat.zero_add]
    have hlength := h.length
    rw [hps, List.length_append, List.length_append, List.length_replicate] at hlength
    have hbefore : ps.take at_ = before := by
      rw [hps, hstart, List.append_assoc, List.take_left]
    have hafter : ps.drop (at_ + size) = after := by
      rw [hps, hstart, List.drop_left' (by rw [List.length_append, List.length_replicate])]
    have hlt : ∀ q ∈ before ++ List.replicate size 0 ++ after, q < 16 ^ 4 := hps ▸ h.lt
    rw [hbefore, hafter, parse?_gap (fun q hq => hlt q (by simp [hq])) (fun q hq => hlt q (by simp [hq])) hlength
      (Nat.not_lt.mp hsize), ← hps]

/-! ### What is read -/

/-- A reading holds pieces, and its gap is where there are some. -/
structure Reading.IsSound (r : Reading) : Prop where
  lt : ∀ p ∈ r.pieces, p < 16 ^ 4
  gap : ∀ at_ ∈ r.gap, at_ ≤ r.pieces.length

theorem Reading.IsSound.push {r : Reading} (hr : r.IsSound) {p : Nat} (hp : p < 16 ^ 4) :
    Reading.IsSound { r with pieces := p :: r.pieces } where
  lt := List.forall_mem_cons.mpr ⟨hp, hr.lt⟩
  gap := fun at_ hat => Nat.le_succ_of_le (hr.gap at_ hat)

theorem value_lt (s : List Char) :
    (Address.digits? 16 ((s.take 4).takeWhile fun c => (hexValue? c).isSome)).getD 0 < 16 ^ 4 := by
  cases hd : Address.digits? 16 ((s.take 4).takeWhile fun c => (hexValue? c).isSome) with
  | none => decide
  | some n =>
    have hlength : ((s.take 4).takeWhile fun c => (hexValue? c).isSome).length ≤ 4 :=
      Nat.le_trans (List.takeWhile_sublist _).length_le (List.length_take_le 4 s)
    exact Nat.lt_of_lt_of_le (Address.digits?_lt hd) (Nat.pow_le_pow_right (by decide) hlength)

theorem byte?_le {s : List Char} {n : Nat} (h : byte? s = some n) : n ≤ 255 := by
  unfold byte? at h
  split at h
  · cases h
  · cases h
  · simpa using Option.mem_filter_iff.mp h |>.2

theorem tail?_lt {s : List Char} {x y : Nat} (h : tail? s = some (x, y)) : x < 16 ^ 4 ∧ y < 16 ^ 4 := by
  unfold tail? at h
  split at h
  · next a b c d hbytes =>
    have hmap := mapM_eq_some_iff.mp hbytes
    have hle : ∀ n ∈ [a, b, c, d], n ≤ 255 := by
      intro n hn
      have hmem : some n ∈ [a, b, c, d].map some := List.mem_map_of_mem hn
      rw [← hmap] at hmem
      obtain ⟨part, -, hpart⟩ := List.mem_map.mp hmem
      exact byte?_le hpart
    simp only [List.forall_mem_cons] at hle
    cases h
    omega
  · cases h

/-- Reading keeps a reading sound. -/
theorem isSound_readPieces {r r' : Reading} {s : List Char} (hr : r.IsSound) (h : readPieces r s = some r') :
    r'.IsSound := by
  fun_induction readPieces r s with
  | case1 r =>
    cases h
    exact hr
  | case3 r rest hfree ih => exact ih ⟨hr.lt, fun at_ hat => by cases hat; exact Nat.le_refl _⟩ h
  | case6 r c cs =>
    cases h
    exact hr.push (value_lt (c :: cs))
  | case8 r c cs =>
    obtain ⟨⟨x, y⟩, htail, h⟩ := Option.map_eq_some_iff.mp h
    cases h
    exact (hr.push (tail?_lt htail).1).push (tail?_lt htail).2
  | case10 r c cs _ _ _ _ _ _ _ _ _ _ ih => exact ih (hr.push (value_lt (c :: cs))) h
  | case2 => cases h
  | case4 => cases h
  | case5 => cases h
  | case7 => cases h
  | case9 => cases h
  | case11 => cases h

/-- What is read is an address. -/
theorem isPieces_of_parse? {s : List Char} {ps : List Nat} (h : parse? s = some ps) : IsPieces ps := by
  obtain ⟨r, hread, hfill⟩ := Option.bind_eq_some_iff.mp h
  have hsound : r.IsSound := by
    have hempty : Reading.IsSound ⟨[], none⟩ := ⟨nofun, nofun⟩
    have hgap : Reading.IsSound ⟨[], some 0⟩ := ⟨nofun, fun at_ hat => by cases hat; exact Nat.le_refl _⟩
    unfold read? at hread
    split at hread
    · exact isSound_readPieces hgap hread
    · cases hread
    · cases hread
    · cases hread
    · exact isSound_readPieces hempty hread
  have hlt : ∀ p ∈ r.pieces.reverse, p < 16 ^ 4 := fun p hp => hsound.lt p (List.mem_reverse.mp hp)
  unfold Reading.filled? at hfill
  dsimp only at hfill
  split at hfill
  · split at hfill
    · next hlength =>
      cases hfill
      exact ⟨hlength, hlt⟩
    · cases hfill
  · next at_ hgap =>
    split at hfill
    · cases hfill
    · next hfree =>
      cases hfill
      have hat := hsound.gap at_ hgap
      rw [List.length_reverse] at hfree
      constructor
      · simp only [List.length_append, List.length_take, List.length_replicate, List.length_drop, List.length_reverse]
        omega
      · intro p hp
        simp only [List.mem_append, List.mem_replicate] at hp
        rcases hp with (hp | ⟨-, rfl⟩) | hp
        · exact hlt p (List.mem_of_mem_take hp)
        · decide
        · exact hlt p (List.mem_of_mem_drop hp)

end WideAddress

end MediaBackup.Url
