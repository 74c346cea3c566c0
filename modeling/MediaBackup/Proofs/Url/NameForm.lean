import MediaBackup.Proofs.CodePoint.NormalForm
import MediaBackup.Url.NameForm

/-
  The form of a name is its own form.

  What the tables say is checked once (`forms_checked`): no range becomes characters that become others, and none that may
  not stand in a name; a composite stays as it is just if its parts do.  So what a name becomes stays as it is
  (`isKept_of_nameFormOf`), also in its normal form (`isKept_of_mem_normalForm`).
-/

namespace MediaBackup.Url

open CodePoint (Entry Finds IsPair composites oneWay compose? decompose entryOf? finds_entryOf? partsTables)
open CodePoint.Table (Ascends mask ascendsFrom testBit_mask)

variable {c : Char} {s : List Char} {n : Nat}

/-! ## What the tables say -/

section Checked

variable {e : Entry} {changes moved spelled dropped barred composites oneWay : List Entry}

/-- What a range becomes. -/
def movedTo (e : Entry) : Entry := ⟨e.values.head?.getD 0, e.values.head?.getD 0 + (e.last - e.first), []⟩

/-- The characters of codes and the point between labels, and Korean letters and syllables. -/
def keptRanges : List Entry :=
  [⟨0x2D, 0x2E, []⟩, ⟨0x30, 0x39, []⟩, ⟨0x61, 0x7A, []⟩, ⟨0x1100, 0x1112, []⟩, ⟨0x1161, 0x1175, []⟩, ⟨0x11A8, 0x11C2, []⟩,
    ⟨0xAC00, 0xD7A3, []⟩]

/-- All that does not stay as it is, and what is no character. -/
def taken (changes : List Entry) : Nat := mask (⟨0xD800, 0xDFFF, []⟩ :: changes)

/-- `n` is a code point, and free in a mask. -/
def isFree (m n : Nat) : Bool := Nat.blt n 0x110000 && !(m.testBit n)

/-- What becomes something else does not become what becomes something else in turn; `m` is the mask of what does. -/
def checkKept (m : Nat) (moved spelled composites oneWay : List Entry) : Bool :=
  moved.all (fun e => Nat.blt (movedTo e).last 0x110000 && Nat.beq (Nat.land (movedTo e).mask m) 0) &&
    (spelled.all (fun e => e.values.all (isFree m)) &&
      (composites.all (fun e => isFree m e.first == e.values.all (isFree m)) &&
        (oneWay.all (fun e => Nat.beq (Nat.land e.mask m) e.mask || e.values.all (isFree m)) &&
          Nat.beq (Nat.land (mask keptRanges) m) 0)))

/-- What is to be known of the tables. -/
def checkForms (moved spelled dropped barred composites oneWay : List Entry) : Bool :=
  ascendsFrom 0 moved && (ascendsFrom 0 spelled && (ascendsFrom 0 dropped && (ascendsFrom 0 barred &&
    checkKept (taken (moved ++ (spelled ++ (dropped ++ barred)))) moved spelled composites oneWay)))

theorem checkForms_congr {moved' spelled' dropped' barred' composites' oneWay' : List Entry} (hmoved : moved = moved')
    (hspelled : spelled = spelled') (hdropped : dropped = dropped') (hbarred : barred = barred')
    (hcomposites : composites = composites') (honeWay : oneWay = oneWay') :
    checkForms moved spelled dropped barred composites oneWay =
      checkForms moved' spelled' dropped' barred' composites' oneWay' := by
  rw [hmoved, hspelled, hdropped, hbarred, hcomposites, honeWay]

/-- A character that becomes nothing else. -/
structure IsFree (changes : List Entry) (n : Nat) : Prop where
  valid : n.isValidChar
  free : ∀ e ∈ changes, e.holds n = false

theorem isFree_of_testBit (hn : n < 0x110000) (h : (taken changes).testBit n = false) : IsFree changes n := by
  rw [taken, testBit_mask, List.any_eq_false] at h
  obtain ⟨hsurrogate, hfree⟩ := List.forall_mem_cons.mp h
  rw [Entry.holds_iff] at hsurrogate
  refine ⟨?_, fun e he => Bool.eq_false_iff.mpr (hfree e he)⟩
  dsimp only at hsurrogate
  simp only [Nat.isValidChar]
  omega

theorem IsFree.testBit (h : IsFree changes n) : (taken changes).testBit n = false := by
  rw [taken, testBit_mask, List.any_eq_false]
  refine List.forall_mem_cons.mpr ⟨fun hsurrogate => ?_, fun e he => Bool.eq_false_iff.mp (h.free e he)⟩
  have hvalid := h.valid
  rw [Entry.holds_iff] at hsurrogate
  dsimp only at hsurrogate
  simp only [Nat.isValidChar] at hvalid
  omega

theorem isFree_iff : isFree (taken changes) n = true ↔ IsFree changes n := by
  rw [isFree, Bool.and_eq_true, Nat.blt_eq, Bool.not_eq_true']
  exact ⟨fun h => isFree_of_testBit h.1 h.2, fun h => ⟨CodePoint.lt_of_isValidChar h.valid, h.testBit⟩⟩

theorem testBit_eq_false_of_land {x y : Nat} (h : Nat.land x y = 0) (hx : x.testBit n = true) : y.testBit n = false := by
  have hbit := congrArg (·.testBit n) h
  simpa [hx] using hbit

/-- What is known of the tables. -/
structure FormTables (moved spelled dropped barred composites oneWay changes : List Entry) : Prop where
  movedAscends : Ascends moved
  spelledAscends : Ascends spelled
  droppedAscends : Ascends dropped
  barredAscends : Ascends barred
  movedTo : ∀ e ∈ moved, ∀ n, (movedTo e).holds n = true → IsFree changes n
  spelled : ∀ e ∈ spelled, ∀ v ∈ e.values, IsFree changes v
  composite : ∀ e ∈ composites, IsFree changes e.first ↔ ∀ v ∈ e.values, IsFree changes v
  oneWay : ∀ e ∈ oneWay, ∀ n, e.holds n = true → IsFree changes n → ∀ v ∈ e.values, IsFree changes v
  kept : ∀ w ∈ keptRanges, ∀ n, w.holds n = true → IsFree changes n

theorem formTables_of_checkForms (h : checkForms moved spelled dropped barred composites oneWay = true) :
    FormTables moved spelled dropped barred composites oneWay (moved ++ (spelled ++ (dropped ++ barred))) := by
  simp only [checkForms, checkKept, Bool.and_eq_true, List.all_eq_true, Nat.beq_eq, Nat.blt_eq, Bool.or_eq_true] at h
  obtain ⟨hmoved, hspelled, hdropped, hbarred, hto, hvalues, hcomposites, honeWay, hkept⟩ := h
  refine ⟨(CodePoint.Table.ascends_of_ascendsFrom hmoved).1, (CodePoint.Table.ascends_of_ascendsFrom hspelled).1,
    (CodePoint.Table.ascends_of_ascendsFrom hdropped).1, (CodePoint.Table.ascends_of_ascendsFrom hbarred).1,
    fun e he n hn => ?_, fun e he v hv => isFree_iff.mp (hvalues e he v hv), fun e he => ?_, fun e he n hn hfree => ?_,
    fun w hw n hn => ?_⟩
  · obtain ⟨hlast, hland⟩ := hto e he
    refine isFree_of_testBit (Nat.lt_of_le_of_lt (Entry.holds_iff.mp hn).2 hlast) (testBit_eq_false_of_land hland ?_)
    rwa [Entry.testBit_mask]
  · have hsame := eq_of_beq (hcomposites e he)
    rw [← isFree_iff, hsame, List.all_eq_true]
    exact forall₂_congr fun v _ => isFree_iff
  · rcases honeWay e he with hland | hall
    · -- all that the entry holds becomes something else
      have hbit := congrArg (·.testBit n) hland
      have htaken : (taken (moved ++ (spelled ++ (dropped ++ barred)))).testBit n = true := by
        simpa [Entry.testBit_mask, hn] using hbit
      rw [hfree.testBit] at htaken
      cases htaken
    · exact fun v hv => isFree_iff.mp (hall v hv)
  · have hlast : ∀ w ∈ keptRanges, w.last < 0x110000 := by decide
    refine isFree_of_testBit (Nat.lt_of_le_of_lt (Entry.holds_iff.mp hn).2 (hlast w hw)) (testBit_eq_false_of_land hkept ?_)
    rw [testBit_mask, List.any_eq_true]
    exact ⟨w, hw, hn⟩

/-- A character that no table of four changes. -/
structure IsKeptBy (moved spelled dropped barred : CodePoint.Table) (n : Nat) : Prop where
  valid : n.isValidChar
  moved : moved.find? n = none
  spelled : spelled.find? n = none
  dropped : dropped.find? n = none
  barred : barred.find? n = none

theorem FormTables.isKeptBy_iff {moved spelled dropped barred : CodePoint.Table}
    (h : FormTables moved.list spelled.list dropped.list barred.list composites oneWay changes)
    (hchanges : changes = moved.list ++ (spelled.list ++ (dropped.list ++ barred.list))) :
    IsKeptBy moved spelled dropped barred n ↔ IsFree changes n := by
  have hiff : IsKeptBy moved spelled dropped barred n ↔ n.isValidChar ∧ moved.find? n = none ∧ spelled.find? n = none ∧
      dropped.find? n = none ∧ barred.find? n = none :=
    ⟨fun ⟨h₁, h₂, h₃, h₄, h₅⟩ => ⟨h₁, h₂, h₃, h₄, h₅⟩, fun ⟨h₁, h₂, h₃, h₄, h₅⟩ => ⟨h₁, h₂, h₃, h₄, h₅⟩⟩
  have hfree : IsFree changes n ↔ n.isValidChar ∧ ∀ e ∈ changes, e.holds n = false :=
    ⟨fun ⟨h₁, h₂⟩ => ⟨h₁, h₂⟩, fun ⟨h₁, h₂⟩ => ⟨h₁, h₂⟩⟩
  rw [hiff, hfree, hchanges, List.forall_mem_append, List.forall_mem_append, List.forall_mem_append,
    CodePoint.Table.find?_eq_none_iff h.movedAscends, CodePoint.Table.find?_eq_none_iff h.spelledAscends,
    CodePoint.Table.find?_eq_none_iff h.droppedAscends, CodePoint.Table.find?_eq_none_iff h.barredAscends]

section FormBy

variable {moved spelled dropped barred : CodePoint.Table}

theorem IsKeptBy.formBy_eq (h : IsKeptBy moved spelled dropped barred c.toNat) :
    formBy moved spelled dropped barred c = some [c] := by
  simp only [formBy, CodePoint.Table.contains, h.moved, h.spelled, h.dropped, h.barred]
  rfl

/-- What a character becomes stays as it is. -/
theorem FormTables.isKeptBy_of_formBy {form : List Char}
    (h : FormTables moved.list spelled.list dropped.list barred.list composites oneWay changes)
    (hchanges : changes = moved.list ++ (spelled.list ++ (dropped.list ++ barred.list)))
    (hform : formBy moved spelled dropped barred c = some form) :
    ∀ d ∈ form, IsKeptBy moved spelled dropped barred d.toNat := by
  have hchar {n : Nat} (hfree : IsFree changes n) : IsKeptBy moved spelled dropped barred (Char.ofNat n).toNat := by
    rw [CodePoint.toNat_ofNat hfree.valid]
    exact (h.isKeptBy_iff hchanges).mpr hfree
  unfold formBy at hform
  split at hform
  · next e he =>
    cases hform
    obtain ⟨he, hn⟩ := CodePoint.Table.mem_of_find? he
    refine List.forall_mem_singleton.mpr (hchar (h.movedTo e he _ (Entry.holds_iff.mpr ?_)))
    have := Entry.holds_iff.mp hn
    simp only [Url.movedTo]
    omega
  · next hmoved =>
    split at hform
    · next e he =>
      cases hform
      exact List.forall_mem_map.mpr fun v hv => hchar (h.spelled e (CodePoint.Table.mem_of_find? he).1 v hv)
    · next hspelled =>
      split_ifs at hform with hdropped hbarred
      · cases hform
        exact List.forall_mem_nil _
      · cases hform
        rw [CodePoint.Table.contains, Option.not_isSome_iff_eq_none] at hdropped hbarred
        exact List.forall_mem_singleton.mpr ⟨c.valid, hmoved, hspelled, hdropped, hbarred⟩

end FormBy

end Checked

theorem forms_checked : checkForms movedRanges.list spelledOut.list dropped.list barred.list composites.list
    oneWay.list = true := by
  unfold movedRanges spelledOut dropped barred composites oneWay
  apply Eq.trans
  · apply checkForms_congr
    all_goals
      apply CodePoint.Table.list_ofLines
      repeat (first | exact CodePoint.Table.toList_nil | apply CodePoint.Table.toList_cons rfl)
  · decide +kernel

theorem formTables : FormTables movedRanges.list spelledOut.list dropped.list barred.list composites.list oneWay.list
    (movedRanges.list ++ (spelledOut.list ++ (dropped.list ++ barred.list))) := formTables_of_checkForms forms_checked

/-! ## The characters of names -/

/-- A character that stays as it is in a name. -/
def IsKept (n : Nat) : Prop := IsKeptBy movedRanges spelledOut dropped barred n

theorem isKept_iff : IsKept n ↔ IsFree (movedRanges.list ++ (spelledOut.list ++ (dropped.list ++ barred.list))) n :=
  formTables.isKeptBy_iff rfl

theorem nameForm_of_isKept (h : IsKept c.toNat) : nameForm c = some [c] := h.formBy_eq

theorem isKept_of_nameForm {form : List Char} (h : nameForm c = some form) : ∀ d ∈ form, IsKept d.toNat :=
  formTables.isKeptBy_of_formBy rfl h

theorem isKept_of_nameFormOf {form : List Char} (h : nameFormOf s = some form) : ∀ d ∈ form, IsKept d.toNat := by
  induction s generalizing form with
  | nil =>
    cases h
    exact List.forall_mem_nil _
  | cons c r ih =>
    simp only [nameFormOf, Option.bind_eq_bind, Option.bind_eq_some_iff, Option.pure_def, Option.some.injEq] at h
    obtain ⟨here, hhere, rest, hrest, rfl⟩ := h
    exact List.forall_mem_append.mpr ⟨isKept_of_nameForm hhere, ih hrest⟩

/-- Characters that stay as they are make a text that does. -/
theorem nameFormOf_of_isKept (h : ∀ c ∈ s, IsKept c.toNat) : nameFormOf s = some s := by
  induction s with
  | nil => rfl
  | cons c r ih =>
    obtain ⟨hc, hr⟩ := List.forall_mem_cons.mp h
    rw [nameFormOf, nameForm_of_isKept hc, ih hr]
    rfl

theorem isKept_of_holds {w : Entry} (hw : w ∈ keptRanges) (hn : w.holds n = true) : IsKept n :=
  isKept_iff.mpr (formTables.kept w hw n hn)

theorem isKept_of_isLetter (h : CodePoint.IsLetter n) : IsKept n := by
  rcases h with h | h | h
  · exact isKept_of_holds (w := ⟨0x1100, 0x1112, []⟩) (by simp [keptRanges]) (Entry.holds_iff.mpr h)
  · exact isKept_of_holds (w := ⟨0x1161, 0x1175, []⟩) (by simp [keptRanges]) (Entry.holds_iff.mpr h)
  · exact isKept_of_holds (w := ⟨0x11A8, 0x11C2, []⟩) (by simp [keptRanges]) (Entry.holds_iff.mpr h)

/-- A composite that stays as it is has parts that do, and the other way round. -/
theorem isKept_iff_of_mem_composites {e : Entry} (he : e ∈ composites.list) :
    IsKept e.first ↔ ∀ v ∈ e.values, IsKept v := by
  rw [isKept_iff, formTables.composite e he]
  exact forall₂_congr fun v _ => isKept_iff.symm

theorem isKept_of_mem_decompose (hn : IsKept n) : ∀ m ∈ decompose n, IsKept m := by
  refine CodePoint.forall_mem_decomposeFueled (fun n ps hps _ m hm => ?_) (fun n e he hn => ?_) hn
  · exact isKept_of_isLetter (CodePoint.isLetter_of_mem_parts? hps hm)
  · obtain ⟨hmem, hholds⟩ := finds_entryOf? n e he
    rcases List.mem_append.mp hmem with hmem | hmem
    · obtain ⟨a, b, hpair⟩ := partsTables.pair e hmem
      obtain ⟨hfirst, hlast⟩ := Entry.holds_iff.mp hholds
      rw [hpair.last] at hlast
      exact (isKept_iff_of_mem_composites hmem).mp (Nat.le_antisymm hfirst hlast ▸ hn)
    · exact fun v hv => isKept_iff.mpr (formTables.oneWay e hmem n hholds (isKept_iff.mp hn) v hv)

theorem isKept_of_compose? {a b m : Nat} (ha : IsKept a) (hb : IsKept b) (h : compose? a b = some m) : IsKept m := by
  rcases CodePoint.compose?_cases hb.valid h with h | ⟨e, he, hpair, rfl⟩
  · obtain ⟨ps, hparts, -⟩ := CodePoint.parts?_of_join? h
    obtain ⟨hlo, hhi⟩ := CodePoint.mem_of_parts? hparts
    exact isKept_of_holds (w := ⟨0xAC00, 0xD7A3, []⟩) (by simp [keptRanges])
      (Entry.holds_iff.mpr ⟨hlo, Nat.le_of_lt_succ hhi⟩)
  · rw [isKept_iff_of_mem_composites he, hpair.values]
    exact List.forall_mem_cons.mpr ⟨ha, List.forall_mem_singleton.mpr hb⟩

/-- A normal form of characters that stay as they are has such characters. -/
theorem isKept_of_mem_normalForm (h : ∀ c ∈ s, IsKept c.toNat) : ∀ c ∈ CodePoint.normalForm s, IsKept c.toNat :=
  CodePoint.forall_mem_normalForm (fun _ => isKept_of_mem_decompose) (fun _ _ _ => isKept_of_compose?) h

end MediaBackup.Url
