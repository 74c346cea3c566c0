import MediaBackup.Proofs.CodePoint.Decomposition

/-
  A normal form is its own normal form.

  Marks that stand in order are left as they are (`orderMarks_of_ordered`), and marks that were joined come
  apart into the text in order that they were joined from (`orderMarks_joinMarks`): a mark only joins past marks of lower
  classes, which ordering lets it pass again (`placeMark_comm`).  A character that joins nothing, such as a point, cuts the
  normal form where it cuts the text (`normalCodes_append_cons`), so each label of a normal form is a normal form.
-/

namespace MediaBackup.CodePoint

variable {classOf : Nat → Nat} {join? : Nat → Nat → Option Nat} {take : Nat → List Nat} {n m last : Nat} {s r : List Nat}

/-! ## Marks in order -/

/-- Behind a character of class `last`, no mark stands before one of a lower class. -/
def OrderedFrom (classOf : Nat → Nat) : Nat → List Nat → Prop
  | _, [] => True
  | last, n :: r => (classOf n = 0 ∨ last ≤ classOf n) ∧ OrderedFrom classOf (classOf n) r

theorem OrderedFrom.mono {before : Nat} (h : OrderedFrom classOf last s) (hle : before ≤ last) :
    OrderedFrom classOf before s := by
  cases s with
  | nil => trivial
  | cons n r => exact ⟨h.1.imp_right (Nat.le_trans hle), h.2⟩

theorem orderedFrom_placeMark (h : OrderedFrom classOf last s) (hn : classOf n = 0 ∨ last ≤ classOf n) :
    OrderedFrom classOf last (placeMark classOf n s) := by
  induction s generalizing last with
  | nil => exact ⟨hn, trivial⟩
  | cons m r ih =>
    rw [placeMark]
    split
    · next hm => exact ⟨h.1, ih h.2 (.inr (Nat.le_of_lt hm.2))⟩
    · next hm => exact ⟨hn, by omega, h.2⟩

theorem orderMarks_cons : orderMarks classOf (n :: s) = placeMark classOf n (orderMarks classOf s) := rfl

/-- Ordering puts marks in order. -/
theorem ordered_orderMarks (s : List Nat) : OrderedFrom classOf 0 (orderMarks classOf s) := by
  induction s with
  | nil => trivial
  | cons n r ih => exact orderedFrom_placeMark ih (.inr (Nat.zero_le _))

theorem placeMark_of_ordered (h : OrderedFrom classOf (classOf n) s) : placeMark classOf n s = n :: s := by
  cases s with
  | nil => rfl
  | cons m r =>
    have hm := h.1
    rw [placeMark, if_neg (by omega)]

/-- Marks in order stay where they are. -/
theorem orderMarks_of_ordered (h : OrderedFrom classOf 0 s) : orderMarks classOf s = s := by
  induction s with
  | nil => rfl
  | cons n r ih => rw [orderMarks_cons, ih (h.2.mono (Nat.zero_le _)), placeMark_of_ordered h.2]

theorem mem_placeMark {p : Nat} : p ∈ placeMark classOf n s ↔ p = n ∨ p ∈ s := by
  induction s with
  | nil => exact List.mem_cons
  | cons m r ih =>
    rw [placeMark]
    split
    · rw [List.mem_cons, List.mem_cons, ih]
      tauto
    · exact List.mem_cons

theorem mem_orderMarks {p : Nat} : p ∈ orderMarks classOf s ↔ p ∈ s := by
  induction s with
  | nil => exact Iff.rfl
  | cons n r ih => rw [orderMarks_cons, mem_placeMark, ih, List.mem_cons]

/-- It does not matter which of a mark and one of a higher class is put in first. -/
theorem placeMark_comm (hm : classOf m ≠ 0) (hlt : classOf m < classOf n) :
    placeMark classOf n (placeMark classOf m s) = placeMark classOf m (placeMark classOf n s) := by
  induction s with
  | nil => simp only [placeMark, if_pos (And.intro hm hlt), if_neg (show ¬(classOf n ≠ 0 ∧ classOf n < classOf m) by omega)]
  | cons p r ih =>
    by_cases hbefore : classOf p ≠ 0 ∧ classOf p < classOf m
    · have hn : classOf p ≠ 0 ∧ classOf p < classOf n := by omega
      simp only [placeMark, if_pos hbefore, if_pos hn, ih]
    · by_cases hn : classOf p ≠ 0 ∧ classOf p < classOf n
      · simp only [placeMark, if_neg hbefore, if_pos hn, if_pos (And.intro hm hlt)]
      · simp only [placeMark, if_neg hbefore, if_neg hn, if_pos (And.intro hm hlt),
          if_neg (show ¬(classOf n ≠ 0 ∧ classOf n < classOf m) by omega)]

theorem orderMarks_append (x y : List Nat) :
    orderMarks classOf (x ++ y) = x.foldr (placeMark classOf) (orderMarks classOf y) := List.foldr_append

/-- A mark passes marks of lower classes. -/
theorem orderMarks_pass {marks : List Nat} (h : ∀ m ∈ marks, classOf m ≠ 0 ∧ classOf m < classOf n) :
    orderMarks classOf (n :: (marks ++ r)) = orderMarks classOf (marks ++ n :: r) := by
  induction marks with
  | nil => rfl
  | cons m marks ih =>
    obtain ⟨⟨hm, hlt⟩, hmarks⟩ := List.forall_mem_cons.mp h
    have ih := ih hmarks
    rw [orderMarks_cons] at ih
    rw [List.cons_append, List.cons_append, orderMarks_cons, orderMarks_cons, orderMarks_cons, placeMark_comm hm hlt, ih]

/-! ## Joined marks taken apart -/

theorem flatMap_of_whole (h : ∀ n ∈ s, take n = [n]) : s.flatMap take = s := by
  induction s with
  | nil => rfl
  | cons n r ih =>
    obtain ⟨hn, hr⟩ := List.forall_mem_cons.mp h
    rw [List.flatMap_cons, hn, ih hr, List.singleton_append]

/-- Joined marks, taken apart and ordered, are the marks that were joined.  The marks that stand behind the start
    already have ascending classes up to `last`. -/
theorem orderMarks_joinFrom {start : Nat} {marks : List Nat}
    (hjoin : ∀ a, ∀ b ∈ r, ∀ c, join? a b = some c → take c = take a ++ take b) (htake : ∀ n ∈ r, take n = [n])
    (hmarks : ∀ m ∈ marks, take m = [m] ∧ classOf m ≠ 0 ∧ classOf m ≤ last) (hlast : marks = [] → last = 0)
    (hr : OrderedFrom classOf last r) :
    orderMarks classOf ((joinFrom classOf join? start marks last r).flatMap take) =
      orderMarks classOf (take start ++ (marks.reverse ++ r)) := by
  induction r generalizing start marks last with
  | nil =>
    rw [joinFrom, List.flatMap_cons, flatMap_of_whole fun m hm => (hmarks m (List.mem_reverse.mp hm)).1, List.append_nil]
  | cons n r ih =>
    obtain ⟨htn, htr⟩ := List.forall_mem_cons.mp htake
    have hjr (a : Nat) : ∀ b ∈ r, ∀ c, join? a b = some c → take c = take a ++ take b := fun b hb =>
      hjoin a b (.tail _ hb)
    rw [joinFrom]
    split
    · next joined hjoined =>
      split at hjoined
      · next hfree =>
        have hfree : marks = [] ∨ last < classOf n := by simpa using hfree
        have hle : last ≤ classOf n := hfree.elim (fun h => by rw [hlast h]; exact Nat.zero_le _) Nat.le_of_lt
        rw [ih hjr htr hmarks hlast (hr.2.mono hle), hjoin start n (.head _) joined hjoined, htn, List.append_assoc,
          orderMarks_append, orderMarks_append (take start)]
        refine congrArg (fun y => (take start).foldr (placeMark classOf) y) ?_
        rcases hfree with rfl | hlt
        · rfl
        · exact orderMarks_pass fun m hm =>
            have hm := hmarks m (List.mem_reverse.mp hm)
            ⟨hm.2.1, Nat.lt_of_le_of_lt hm.2.2 hlt⟩
      · cases hjoined
    · split
      · next hstarter =>
        rw [List.cons_append, List.flatMap_cons, List.flatMap_append,
          flatMap_of_whole fun m hm => (hmarks m (List.mem_reverse.mp hm)).1, orderMarks_append, orderMarks_append,
          orderMarks_append, orderMarks_append,
          ih hjr htr (List.forall_mem_nil _) (fun _ => rfl) (hr.2.mono (Nat.zero_le _)), htn]
        rfl
      · next hmark =>
        have hle : last ≤ classOf n := hr.1.resolve_left hmark
        have hmarks' : ∀ m ∈ n :: marks, take m = [m] ∧ classOf m ≠ 0 ∧ classOf m ≤ classOf n :=
          List.forall_mem_cons.mpr ⟨⟨htn, hmark, Nat.le_refl _⟩, fun m hm =>
            ⟨(hmarks m hm).1, (hmarks m hm).2.1, Nat.le_trans (hmarks m hm).2.2 hle⟩⟩
        rw [ih hjr htr hmarks' nofun hr.2, List.reverse_cons, List.append_assoc]
        rfl

/-- A text whose marks were joined comes apart into that text. -/
theorem orderMarks_joinMarks (hjoin : ∀ a, ∀ b ∈ s, ∀ c, join? a b = some c → take c = take a ++ take b)
    (htake : ∀ n ∈ s, take n = [n]) (hs : OrderedFrom classOf last s) :
    orderMarks classOf ((joinMarks classOf join? s).flatMap take) = orderMarks classOf s := by
  induction s generalizing last with
  | nil => rfl
  | cons n r ih =>
    obtain ⟨htn, htr⟩ := List.forall_mem_cons.mp htake
    have hjr (a : Nat) : ∀ b ∈ r, ∀ c, join? a b = some c → take c = take a ++ take b := fun b hb =>
      hjoin a b (.tail _ hb)
    rw [joinMarks]
    split
    · rw [orderMarks_joinFrom hjr htr (List.forall_mem_nil _) (fun _ => rfl) (hs.2.mono (Nat.zero_le _)), htn]
      rfl
    · rw [List.flatMap_cons, htn, List.singleton_append, orderMarks_cons, orderMarks_cons, ih hjr htr hs.2]

/-! ## What joining keeps -/

theorem forall_mem_joinFrom {p : Nat → Prop} {start : Nat} {marks : List Nat}
    (hjoin : ∀ a b c, p a → p b → join? a b = some c → p c) (hstart : p start) (hmarks : ∀ m ∈ marks, p m)
    (hr : ∀ n ∈ r, p n) : ∀ m ∈ joinFrom classOf join? start marks last r, p m := by
  induction r generalizing start marks last with
  | nil =>
    rw [joinFrom]
    exact List.forall_mem_cons.mpr ⟨hstart, fun m hm => hmarks m (List.mem_reverse.mp hm)⟩
  | cons n r ih =>
    obtain ⟨hn, hr⟩ := List.forall_mem_cons.mp hr
    rw [joinFrom]
    split
    · next joined hjoined =>
      split at hjoined
      · exact ih (hjoin start n joined hstart hn hjoined) hmarks hr
      · cases hjoined
    · split
      · rw [List.cons_append]
        exact List.forall_mem_cons.mpr ⟨hstart, List.forall_mem_append.mpr
          ⟨fun m hm => hmarks m (List.mem_reverse.mp hm), ih hn nofun hr⟩⟩
      · exact ih hstart (List.forall_mem_cons.mpr ⟨hn, hmarks⟩) hr

/-- What joined characters have of their parts, a text with its marks joined has. -/
theorem forall_mem_joinMarks {p : Nat → Prop} (hjoin : ∀ a b c, p a → p b → join? a b = some c → p c)
    (hs : ∀ n ∈ s, p n) : ∀ m ∈ joinMarks classOf join? s, p m := by
  induction s with
  | nil => exact nofun
  | cons n r ih =>
    obtain ⟨hn, hr⟩ := List.forall_mem_cons.mp hs
    rw [joinMarks]
    split
    · exact forall_mem_joinFrom hjoin hn nofun hr
    · exact List.forall_mem_cons.mpr ⟨hn, ih hr⟩

/-! ## Characters that join nothing -/

theorem joinFrom_of_apart {start : Nat} {marks : List Nat} (h : ∀ b ∈ r, join? start b = none) :
    joinFrom classOf join? start marks last r = start :: (marks.reverse ++ joinMarks classOf join? r) := by
  induction r generalizing marks last with
  | nil => rw [joinFrom, joinMarks, List.append_nil]
  | cons n r ih =>
    obtain ⟨hn, hr⟩ := List.forall_mem_cons.mp h
    rw [joinFrom, hn, ite_self, joinMarks]
    dsimp only
    split
    · rfl
    · rw [ih hr, List.reverse_cons, List.append_assoc]
      rfl

theorem joinFrom_append_cons {start p : Nat} {marks : List Nat} (hclass : classOf p = 0) (hleft : ∀ a, join? a p = none)
    (x y : List Nat) : joinFrom classOf join? start marks last (x ++ p :: y) =
      joinFrom classOf join? start marks last x ++ joinFrom classOf join? p [] 0 y := by
  induction x generalizing start marks last with
  | nil =>
    rw [List.nil_append, joinFrom.eq_2, hleft, ite_self, joinFrom.eq_1]
    exact if_pos hclass
  | cons n x ih =>
    rw [List.cons_append, joinFrom, joinFrom]
    split
    · exact ih
    · split
      · rw [ih, List.append_assoc]
      · exact ih

/-- A character that joins nothing cuts a text with its marks joined. -/
theorem joinMarks_append_cons {p : Nat} (hclass : classOf p = 0) (hleft : ∀ a, join? a p = none) {x y : List Nat}
    (hright : ∀ b ∈ y, join? p b = none) : joinMarks classOf join? (x ++ p :: y) =
      joinMarks classOf join? x ++ p :: joinMarks classOf join? y := by
  have hcut : joinFrom classOf join? p [] 0 y = p :: joinMarks classOf join? y := joinFrom_of_apart hright
  induction x with
  | nil =>
    rw [List.nil_append, joinMarks.eq_2, if_pos hclass, hcut]
    rfl
  | cons n x ih =>
    rw [List.cons_append, joinMarks, joinMarks]
    split
    · rw [joinFrom_append_cons hclass hleft, hcut]
    · rw [ih, List.cons_append]

theorem placeMark_append_cons {p : Nat} (hclass : classOf p = 0) (x y : List Nat) :
    placeMark classOf n (x ++ p :: y) = placeMark classOf n x ++ p :: y := by
  induction x with
  | nil => exact if_neg fun h => h.1 hclass
  | cons m x ih =>
    rw [List.cons_append, placeMark, placeMark]
    split
    · rw [ih, List.cons_append]
    · rfl

/-- A character that is no mark cuts a text with its marks in order. -/
theorem orderMarks_append_cons {p : Nat} (hclass : classOf p = 0) (x y : List Nat) :
    orderMarks classOf (x ++ p :: y) = orderMarks classOf x ++ p :: orderMarks classOf y := by
  induction x with
  | nil =>
    rw [List.nil_append, orderMarks_cons]
    exact placeMark_of_ordered (hclass ▸ ordered_orderMarks y)
  | cons n x ih => rw [List.cons_append, orderMarks_cons, ih, placeMark_append_cons hclass, orderMarks_cons]

/-! ## The classes of marks -/

theorem classes_checked : Table.ascendsFrom 0x300 combiningClasses.list = true := by
  unfold combiningClasses
  apply Eq.trans
  · apply congrArg
    apply Table.list_ofLines
    repeat (first | exact Table.toList_nil | apply Table.toList_cons rfl)
  · decide +kernel

/-- The marks start here. -/
theorem combiningClass_of_lt (h : n < 0x300) : combiningClass n = 0 := by
  rw [combiningClass, Table.find?_of_lt classes_checked h]
  rfl

/-! ## Characters that the tables keep -/

/-- A character that does not end a label. -/
structure IsInner (n : Nat) : Prop where
  valid : n.isValidChar
  point : n ≠ 0x2E

theorem isInner_of_korean (hlo : 0x1100 ≤ n) (hhi : n < 0xD800) : IsInner n := ⟨.inl hhi, by omega⟩

theorem IsPair.inner {e : Entry} {a b : Nat} (h : IsPair e a b) : ∀ v ∈ e.values, IsInner v := by
  have hmark := h.mark
  rw [h.values]
  exact List.forall_mem_cons.mpr ⟨⟨h.left, h.point⟩, List.forall_mem_singleton.mpr ⟨h.right, by omega⟩⟩

theorem isInner_of_mem_decompose (hn : IsInner n) : ∀ m ∈ decompose n, IsInner m := by
  refine forall_mem_decomposeFueled (fun n ps hps _ m hm => ?_) (fun n e he _ => ?_) hn
  · obtain ⟨hlo, hhi⟩ := (isLetter_of_mem_parts? hps hm).bounds
    exact isInner_of_korean hlo (by omega)
  · obtain ⟨hmem, -⟩ := finds_entryOf? n e he
    rcases List.mem_append.mp hmem with hmem | hmem
    · obtain ⟨a, b, hpair⟩ := partsTables.pair e hmem
      exact hpair.inner
    · exact fun v hv => ⟨(partsTables.parts e hmem v hv).1, (partsTables.parts e hmem v hv).2⟩

theorem isInner_of_compose? {a b c : Nat} (hb : b.isValidChar) (h : compose? a b = some c) : IsInner c := by
  rcases compose?_cases hb h with h | ⟨e, he, hpair, rfl⟩
  · obtain ⟨ps, hparts, -⟩ := parts?_of_join? h
    obtain ⟨hlo, hhi⟩ := mem_of_parts? hparts
    exact isInner_of_korean (by omega) (by omega)
  · refine ⟨hpair.composite, fun hpoint => ?_⟩
    have hentry := entryOf?_of_mem he (Entry.holds_iff.mpr ⟨Nat.le_refl _, Nat.le_of_eq hpair.last.symm⟩)
    rw [(isWhole_of_ascii (by omega)).entry] at hentry
    cases hentry

/-- Only Korean letters and marks join what precedes them. -/
theorem compose?_of_lt {a b : Nat} (h : b < 0x300) : compose? a b = none := by
  cases hc : compose? a b with
  | none => rfl
  | some c =>
    rcases compose?_cases (.inl (by omega)) hc with hc | ⟨e, he, hpair, rfl⟩
    · obtain ⟨ps, -, hlo, -⟩ := parts?_of_join? hc
      omega
    · have := hpair.mark
      omega

/-- A point joins nothing. -/
theorem compose?_point {b : Nat} (hb : b.isValidChar) : compose? 0x2E b = none := by
  cases hc : compose? 0x2E b with
  | none => rfl
  | some c =>
    rcases compose?_cases hb hc with hc | ⟨e, he, hpair, rfl⟩
    · obtain ⟨ps, -, -, -, ⟨-, hlo, -⟩ | hparts⟩ := parts?_of_join? hc
      · omega
      · have := (mem_of_parts? hparts).1
        omega
    · exact absurd rfl hpair.point

/-! ## The normal form of code points -/

/-- What parts and composites have of characters, a normal form has. -/
theorem forall_mem_normalCodes {p : Nat → Prop} (htake : ∀ n, p n → ∀ m ∈ decompose n, p m)
    (hjoin : ∀ a b c, p a → p b → compose? a b = some c → p c) (hs : ∀ n ∈ s, p n) : ∀ m ∈ normalCodes s, p m := by
  refine forall_mem_joinMarks hjoin fun m hm => ?_
  obtain ⟨n, hn, hm⟩ := List.mem_flatMap.mp (mem_orderMarks.mp hm)
  exact htake n (hs n hn) m hm

theorem isInner_of_mem_normalCodes (hs : ∀ n ∈ s, IsInner n) : ∀ m ∈ normalCodes s, IsInner m :=
  forall_mem_normalCodes (fun _ hn => isInner_of_mem_decompose hn) (fun _ _ _ _ hb => isInner_of_compose? hb.valid) hs

theorem isValidChar_of_mem_decompose (hn : n.isValidChar) : ∀ m ∈ decompose n, m.isValidChar := by
  by_cases hpoint : n = 0x2E
  · rw [(isWhole_of_ascii (by omega)).decompose]
    exact List.forall_mem_singleton.mpr hn
  · exact fun m hm => (isInner_of_mem_decompose ⟨hn, hpoint⟩ m hm).valid

theorem isValidChar_of_mem_normalCodes (hs : ∀ n ∈ s, n.isValidChar) : ∀ m ∈ normalCodes s, m.isValidChar :=
  forall_mem_normalCodes (fun _ => isValidChar_of_mem_decompose) (fun _ _ _ _ hb h => (isInner_of_compose? hb h).valid) hs

/-- A normal form is its own normal form. -/
theorem normalCodes_normalCodes (hs : ∀ n ∈ s, n.isValidChar) : normalCodes (normalCodes s) = normalCodes s := by
  have hmem {n : Nat} (hn : n ∈ orderMarks combiningClass (s.flatMap decompose)) : ∃ m ∈ s, n ∈ decompose m :=
    List.mem_flatMap.mp (mem_orderMarks.mp hn)
  have hordered : OrderedFrom combiningClass 0 (orderMarks combiningClass (s.flatMap decompose)) := ordered_orderMarks _
  have htake : ∀ n ∈ orderMarks combiningClass (s.flatMap decompose), decompose n = [n] := fun n hn =>
    have ⟨_, _, hn⟩ := hmem hn
    (isWhole_of_mem_decompose hn).decompose
  have hjoin (a : Nat) : ∀ b ∈ orderMarks combiningClass (s.flatMap decompose), ∀ c, compose? a b = some c →
      decompose c = decompose a ++ decompose b := fun b hb c hc =>
    have ⟨m, hm, hb⟩ := hmem hb
    decompose_of_compose? (isValidChar_of_mem_decompose (hs m hm) b hb) hc
  have hjoined := orderMarks_joinMarks hjoin htake hordered
  rw [normalCodes, normalCodes, hjoined, orderMarks_of_ordered hordered]

/-- A point cuts a normal form. -/
theorem normalCodes_append_point {x y : List Nat} (hy : ∀ n ∈ y, n.isValidChar) :
    normalCodes (x ++ 0x2E :: y) = normalCodes x ++ 0x2E :: normalCodes y := by
  have hclass : combiningClass 0x2E = 0 := combiningClass_of_lt (by decide)
  rw [normalCodes, List.flatMap_append, List.flatMap_cons, (isWhole_of_ascii (by decide)).decompose, List.singleton_append,
    orderMarks_append_cons hclass, joinMarks_append_cons hclass fun _ => compose?_of_lt (by decide)]
  · rfl
  · intro b hb
    obtain ⟨n, hn, hb⟩ := List.mem_flatMap.mp (mem_orderMarks.mp hb)
    exact compose?_point (isValidChar_of_mem_decompose (hy n hn) b hb)

theorem joinMarks_of_lt (hs : ∀ n ∈ s, n < 0x300) : joinMarks combiningClass compose? s = s := by
  induction s with
  | nil => rfl
  | cons n r ih =>
    obtain ⟨hn, hr⟩ := List.forall_mem_cons.mp hs
    rw [joinMarks, if_pos (combiningClass_of_lt hn), joinFrom_of_apart fun b hb => compose?_of_lt (hr b hb), ih hr]
    rfl

/-- ASCII is in normal form. -/
theorem normalCodes_of_ascii (hs : ∀ n ∈ s, n < 0x80) : normalCodes s = s := by
  have htake : s.flatMap decompose = s := flatMap_of_whole fun n hn => (isWhole_of_ascii (hs n hn)).decompose
  have hlt : ∀ n ∈ s, n < 0x300 := fun n hn => Nat.lt_trans (hs n hn) (by decide)
  have hordered : ∀ {t : List Nat}, (∀ n ∈ t, n < 0x300) → ∀ last, OrderedFrom combiningClass last t := by
    intro t ht
    induction t with
    | nil => exact fun _ => trivial
    | cons n r ih =>
      obtain ⟨hn, hr⟩ := List.forall_mem_cons.mp ht
      exact fun _ => ⟨.inl (combiningClass_of_lt hn), ih hr _⟩
  rw [normalCodes, htake, orderMarks_of_ordered (hordered hlt 0), joinMarks_of_lt hlt]

/-! ## The normal form of a text -/

theorem toNat_ofNat (h : n.isValidChar) : (Char.ofNat n).toNat = n := by
  rw [Char.ofNat, dif_pos h]
  rfl

theorem isValidChar_of_mem_codes {s : List Char} : ∀ n ∈ s.map Char.toNat, n.isValidChar := by
  intro n hn
  obtain ⟨c, -, rfl⟩ := List.mem_map.mp hn
  exact c.valid

theorem map_toNat_map_ofNat (h : ∀ n ∈ s, n.isValidChar) : (s.map Char.ofNat).map Char.toNat = s := by
  rw [List.map_map]
  exact (List.map_congr_left fun n hn => toNat_ofNat (h n hn)).trans (List.map_id s)

theorem map_ofNat_map_toNat (s : List Char) : (s.map Char.toNat).map Char.ofNat = s := by
  rw [List.map_map]
  exact (List.map_congr_left fun c _ => Char.ofNat_toNat c).trans (List.map_id s)

theorem map_toNat_normalForm (s : List Char) : (normalForm s).map Char.toNat = normalCodes (s.map Char.toNat) :=
  map_toNat_map_ofNat (isValidChar_of_mem_normalCodes isValidChar_of_mem_codes)

theorem normalForm_normalForm (s : List Char) : normalForm (normalForm s) = normalForm s := by
  rw [normalForm, map_toNat_normalForm, normalCodes_normalCodes isValidChar_of_mem_codes]
  rfl

theorem normalForm_append_point (x y : List Char) :
    normalForm (x ++ '.' :: y) = normalForm x ++ '.' :: normalForm y := by
  rw [normalForm, List.map_append, List.map_cons]
  refine (congrArg (List.map Char.ofNat) (normalCodes_append_point isValidChar_of_mem_codes)).trans ?_
  rw [List.map_append, List.map_cons]
  rfl

theorem normalForm_of_ascii {s : List Char} (hs : ∀ c ∈ s, c.toNat < 0x80) : normalForm s = s := by
  rw [normalForm, normalCodes_of_ascii, map_ofNat_map_toNat]
  exact List.forall_mem_map.mpr hs

/-- What parts and composites have of characters, a normal form has. -/
theorem forall_mem_normalForm {p : Nat → Prop} (htake : ∀ n, p n → ∀ m ∈ decompose n, p m)
    (hjoin : ∀ a b c, p a → p b → compose? a b = some c → p c) {s : List Char} (hs : ∀ c ∈ s, p c.toNat) :
    ∀ c ∈ normalForm s, p c.toNat := by
  intro c hc
  refine forall_mem_normalCodes htake hjoin (List.forall_mem_map.mpr hs) c.toNat ?_
  rw [← map_toNat_normalForm]
  exact List.mem_map_of_mem hc

theorem point_notMem_normalForm {s : List Char} (hs : '.' ∉ s) : '.' ∉ normalForm s := by
  intro hmem
  refine (isInner_of_mem_normalCodes (s := s.map Char.toNat) (fun n hn => ?_) 0x2E ?_).point rfl
  · obtain ⟨c, hc, rfl⟩ := List.mem_map.mp hn
    refine ⟨c.valid, fun hpoint => hs ?_⟩
    rwa [← Char.ofNat_toNat c, hpoint] at hc
  · rw [← map_toNat_normalForm]
    exact List.mem_map_of_mem hmem

end MediaBackup.CodePoint
