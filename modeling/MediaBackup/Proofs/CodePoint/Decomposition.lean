import Mathlib.Data.Nat.Bitwise
import MediaBackup.CodePoint.NormalForm
import MediaBackup.CodePoint.Table
import MediaBackup.Proofs.Text.Order

/-
  Taking characters apart ends, and putting them together undoes it.

  In a table whose entries ascend a search finds the entry that holds a code point, if there is one (`find?_eq_some_iff`).
  All that a table holds is one number, bit by bit (`testBit_mask`), so that what two tables have in common is told by one
  operation.

  What the tables say is checked once (`parts_checked`): a composite is one code point and has a character and a mark as
  its parts, ASCII and Korean letters are whole, and no character has parts in parts in parts that have parts.  So taking
  apart never stops short (`decompose_eq`), what comes out is whole (`isWhole_of_mem_decompose`), and a character that is
  put together comes apart into what its two parts come apart into (`decompose_of_compose?`).
-/

namespace MediaBackup.CodePoint

namespace Entry

variable {e : Entry} {n : Nat}

theorem holds_iff : e.holds n = true ↔ e.first ≤ n ∧ n ≤ e.last := by
  simp [holds]

/-- One bit for each code point of an entry. -/
def mask (e : Entry) : Nat := (2 ^ (e.last + 1 - e.first) - 1) <<< e.first

theorem testBit_mask (e : Entry) (n : Nat) : e.mask.testBit n = e.holds n := by
  rw [mask, Nat.testBit_shiftLeft, Nat.testBit_two_pow_sub_one, holds]
  by_cases hfirst : e.first ≤ n
  · simp only [hfirst, decide_true, Bool.true_and, decide_eq_decide]
    omega
  · simp [hfirst]

end Entry

namespace Table

variable {t : Table} {e : Entry} {n : Nat}

/-- The entries of a table. -/
def list (t : Table) : List Entry := t.entries.toList

/-! ## The lines of a table

  A table is checked on the characters of its lines: as they stand, they can be read within a proof. -/

theorem toList_nil : ([] : List String).map String.toList = [] := rfl

theorem toList_cons {line : String} {chars : List Char} {lines : List String} {rest : List (List Char)}
    (h : line = String.ofList chars) (hrest : lines.map String.toList = rest) :
    (line :: lines).map String.toList = chars :: rest := by
  rw [List.map_cons, hrest, h, String.toList_ofList]

theorem list_ofLines {lines : List String} {chars : List (List Char)} (h : lines.map String.toList = chars) :
    (ofLines lines).list = chars.flatMap (entriesFrom none none [] none) := by
  rw [ofLines, h]
  rfl

/-! ## What is found -/

theorem mem_of_find? (h : t.find? n = some e) : e ∈ t.list ∧ e.holds n = true := by
  have hget := (Option.filter_eq_some_iff.mp h).1
  exact ⟨Array.mem_toList_iff.mpr (Array.mem_of_getElem? hget), holds_of_find? h⟩

/-- The entries ascend and do not overlap. -/
structure Ascends (entries : List Entry) : Prop where
  full : ∀ e ∈ entries, e.first ≤ e.last
  apart : entries.Pairwise fun a b => a.last < b.first

theorem first_getD_lt {i j : Nat} (h : Ascends t.list) (hij : i < j) (hj : j < t.entries.size) :
    (t.entries.getD i default).last < (t.entries.getD j default).first := by
  have hi : i < t.entries.size := Nat.lt_trans hij hj
  have hlt := List.pairwise_iff_getElem.mp h.apart i j hi hj hij
  simpa [Array.getD, hi, hj, list] using hlt

theorem first_getD_le_last {i : Nat} (h : Ascends t.list) (hi : i < t.entries.size) :
    (t.entries.getD i default).first ≤ (t.entries.getD i default).last := by
  have hle := h.full _ (List.getElem_mem (l := t.list) hi)
  simpa [Array.getD, hi, list] using hle

/-- The search by halves counts the entries that start at or below the code point. -/
theorem countUpTo_spec (h : Ascends t.list) {lo hi : Nat} (hle : lo ≤ hi) (hhi : hi ≤ t.entries.size)
    (hlow : ∀ i < lo, (t.entries.getD i default).first ≤ n)
    (hhigh : ∀ i < t.entries.size, hi ≤ i → n < (t.entries.getD i default).first) :
    t.countUpTo n lo hi ≤ hi ∧ (∀ i < t.countUpTo n lo hi, (t.entries.getD i default).first ≤ n) ∧
      ∀ i < t.entries.size, t.countUpTo n lo hi ≤ i → n < (t.entries.getD i default).first := by
  have hmono {i j : Nat} (hij : i ≤ j) (hj : j < t.entries.size) :
      (t.entries.getD i default).first ≤ (t.entries.getD j default).first := by
    rcases Nat.lt_or_eq_of_le hij with hij | rfl
    · exact Nat.le_of_lt (Nat.lt_of_le_of_lt (first_getD_le_last h (Nat.lt_trans hij hj)) (first_getD_lt h hij hj))
    · exact Nat.le_refl _
  fun_induction countUpTo t n lo hi with
  | case1 lo hi hlt hfirst ih =>
    refine ih (by omega) hhi (fun i hi' => ?_) hhigh
    exact Nat.le_trans (hmono (by omega) (by omega)) hfirst
  | case2 lo hi hlt hfirst ih =>
    obtain ⟨hcount, hspec⟩ := ih (by omega) (by omega) hlow fun i hi' hmid =>
      Nat.lt_of_lt_of_le (Nat.not_le.mp hfirst) (hmono hmid hi')
    exact ⟨by omega, hspec⟩
  | case3 lo hi hlt =>
    have heq : lo = hi := by omega
    subst heq
    exact ⟨Nat.le_refl _, hlow, hhigh⟩

/-- The entry that holds a code point is found. -/
theorem find?_of_mem (h : Ascends t.list) (he : e ∈ t.list) (hn : e.holds n = true) : t.find? n = some e := by
  obtain ⟨hsize, hlow, hhigh⟩ := countUpTo_spec (n := n) h (Nat.zero_le _) (Nat.le_refl _) nofun fun i hi hsize =>
    absurd hi (Nat.not_lt.mpr hsize)
  obtain ⟨i, hi, rfl⟩ := List.getElem_of_mem he
  obtain ⟨hfirst, hlast⟩ := Entry.holds_iff.mp hn
  have hi' : i < t.entries.size := hi
  have hget : t.entries.getD i default = t.list[i] := by simp [Array.getD, hi', list]
  have hcount : i < t.countUpTo n 0 t.entries.size := by
    refine Nat.lt_of_not_le fun hge => ?_
    have := hhigh i hi' hge
    rw [hget] at this
    omega
  -- a later entry would start behind this one
  have hlastOne : t.countUpTo n 0 t.entries.size - 1 = i := by
    refine Nat.le_antisymm (Nat.le_of_not_lt fun hlater => ?_) (by omega)
    have hlt := first_getD_lt h hlater (by omega)
    have := hlow (t.countUpTo n 0 t.entries.size - 1) (by omega)
    rw [hget] at hlt
    omega
  have hentry : t.entries[i]? = some t.list[i] := by simp [hi', list]
  rw [find?, hlastOne, hentry]
  exact if_pos hn

theorem find?_eq_some_iff (h : Ascends t.list) : t.find? n = some e ↔ e ∈ t.list ∧ e.holds n = true :=
  ⟨mem_of_find?, fun ⟨he, hn⟩ => find?_of_mem h he hn⟩

theorem find?_eq_none_iff (h : Ascends t.list) : t.find? n = none ↔ ∀ e ∈ t.list, e.holds n = false := by
  rw [Option.eq_none_iff_forall_ne_some]
  constructor
  · exact fun hnone e he => Bool.eq_false_iff.mpr fun hn => hnone e (find?_of_mem h he hn)
  · intro hall e hfind
    obtain ⟨he, hn⟩ := mem_of_find? hfind
    rw [hall e he] at hn
    cases hn

/-! ## Checking a table -/

/-- The entries ascend, from `least` on. -/
def ascendsFrom (least : Nat) : List Entry → Bool
  | [] => true
  | e :: es => Nat.ble least e.first && (Nat.ble e.first e.last && ascendsFrom (e.last + 1) es)

theorem ascends_of_ascendsFrom {least : Nat} {entries : List Entry} (h : ascendsFrom least entries = true) :
    Ascends entries ∧ ∀ e ∈ entries, least ≤ e.first := by
  induction entries generalizing least with
  | nil => exact ⟨⟨nofun, .nil⟩, nofun⟩
  | cons e es ih =>
    rw [ascendsFrom, Bool.and_eq_true, Bool.and_eq_true, Nat.ble_eq, Nat.ble_eq] at h
    obtain ⟨hleast, hfull, hes⟩ := h
    obtain ⟨hrest, hlater⟩ := ih hes
    refine ⟨⟨List.forall_mem_cons.mpr ⟨hfull, hrest.full⟩, List.pairwise_cons.mpr ⟨hlater, hrest.apart⟩⟩,
      List.forall_mem_cons.mpr ⟨hleast, fun a ha => ?_⟩⟩
    have := hlater a ha
    omega

/-- Nothing stands before the first entry. -/
theorem find?_of_lt {least : Nat} (h : ascendsFrom least t.list = true) (hn : n < least) : t.find? n = none := by
  obtain ⟨hascends, hleast⟩ := ascends_of_ascendsFrom h
  refine (find?_eq_none_iff hascends).mpr fun e he => Bool.eq_false_iff.mpr fun hholds => ?_
  have hfirst := hleast e he
  have := (Entry.holds_iff.mp hholds).1
  omega

/-! ## What a table holds -/

/-- One bit for each code point that the entries hold. -/
def mask : List Entry → Nat
  | [] => 0
  | e :: es => e.mask ||| mask es

theorem testBit_mask (entries : List Entry) (n : Nat) : (mask entries).testBit n = entries.any (·.holds n) := by
  induction entries with
  | nil => exact Nat.zero_testBit n
  | cons e es ih => rw [mask, Nat.testBit_or, ih, Entry.testBit_mask, List.any_cons]

end Table

end MediaBackup.CodePoint

namespace MediaBackup.CodePoint

open Table (Ascends mask testBit_mask ascendsFrom)

variable {a b c n : Nat} {e : Entry}

/-! ## What the tables say -/

/-- `n` is a character. -/
def isCode (n : Nat) : Bool := Nat.blt n 0xD800 || (Nat.blt 0xDFFF n && Nat.blt n 0x110000)

theorem isCode_iff : isCode n = true ↔ n.isValidChar := by
  rw [isCode, Bool.or_eq_true, Bool.and_eq_true, Nat.blt_eq, Nat.blt_eq, Nat.blt_eq]

/-- The entry puts a character and a mark together, and neither is a point. -/
def isPair (e : Entry) : Bool :=
  match e.values with
  | [a, b] => Nat.beq e.first e.last && (isCode e.first && (isCode a && (!(Nat.beq a 0x2E) && (isCode b && Nat.ble 0x300 b))))
  | _ => false

/-- The parts of the entry are characters, and none of them is a point. -/
def hasParts (e : Entry) : Bool := e.values.all fun v => isCode v && !(Nat.beq v 0x2E)

/-- What is held by the entries that have a value in `m`. -/
def deeper (m : Nat) (entries : List Entry) : Nat := mask (entries.filter fun e => e.values.any m.testBit)

/-- ASCII, and Korean letters and syllables. -/
def wholeRanges : List Entry := [⟨0, 0x7F, []⟩, ⟨0x1100, 0x11FF, []⟩, ⟨0xAC00, 0xD7A3, []⟩]

/-- What is to be known of the tables. -/
def checkParts (composites oneWay : List Entry) : Bool :=
  ascendsFrom 0 composites && (composites.all isPair && (oneWay.all hasParts &&
    (Nat.beq (Nat.land (mask (composites ++ oneWay)) (mask wholeRanges)) 0 &&
      Nat.beq (deeper (deeper (deeper (mask (composites ++ oneWay)) (composites ++ oneWay)) (composites ++ oneWay))
        (composites ++ oneWay)) 0)))

theorem parts_checked : checkParts composites.list oneWay.list = true := by
  unfold composites oneWay
  apply Eq.trans
  · apply congrArg₂
    all_goals
      apply Table.list_ofLines
      repeat (first | exact Table.toList_nil | apply Table.toList_cons rfl)
  · decide +kernel

/-- A composite of two parts. -/
structure IsPair (e : Entry) (a b : Nat) : Prop where
  values : e.values = [a, b]
  last : e.last = e.first
  composite : e.first.isValidChar
  left : a.isValidChar
  point : a ≠ 0x2E
  right : b.isValidChar
  mark : 0x300 ≤ b

theorem exists_isPair (h : isPair e = true) : ∃ a b, IsPair e a b := by
  unfold isPair at h
  split at h
  · next a b hvalues =>
    simp only [Bool.and_eq_true, Nat.beq_eq, Bool.not_eq_true', isCode_iff, Nat.ble_eq] at h
    obtain ⟨hlast, hcomposite, hleft, hpoint, hright, hmark⟩ := h
    have hpoint : a ≠ 0x2E := by
      rintro rfl
      cases hpoint
    exact ⟨a, b, hvalues, hlast.symm, hcomposite, hleft, hpoint, hright, hmark⟩
  · cases h

/-- `n` is taken apart in at most this many steps. -/
def Within (entries : List Entry) : Nat → Nat → Prop
  | 0, n => ∀ e ∈ entries, e.holds n = false
  | k + 1, n => ∀ e ∈ entries, e.holds n = true → ∀ v ∈ e.values, Within entries k v

theorem within_of_testBit_deeper {entries : List Entry} {k m : Nat} (h : ∀ v, m.testBit v = false → Within entries k v)
    (hn : (deeper m entries).testBit n = false) : Within entries (k + 1) n := by
  intro e he hholds v hv
  refine h v (Bool.eq_false_iff.mpr fun hbit => ?_)
  rw [deeper, testBit_mask, List.any_eq_false] at hn
  exact hn e (List.mem_filter.mpr ⟨he, List.any_eq_true.mpr ⟨v, hv, hbit⟩⟩) hholds

theorem holds_eq_false_of_testBit {entries : List Entry} (h : (mask entries).testBit n = false) :
    ∀ e ∈ entries, e.holds n = false := by
  rw [testBit_mask, List.any_eq_false] at h
  exact fun e he => Bool.eq_false_iff.mpr (h e he)

/-- What is known of the tables. -/
structure PartsTables (composites oneWay : List Entry) : Prop where
  ascends : Ascends composites
  pair : ∀ e ∈ composites, ∃ a b, IsPair e a b
  parts : ∀ e ∈ oneWay, ∀ v ∈ e.values, v.isValidChar ∧ v ≠ 0x2E
  whole : ∀ w ∈ wholeRanges, ∀ n, w.holds n = true → ∀ e ∈ composites ++ oneWay, e.holds n = false
  within : ∀ n, Within (composites ++ oneWay) 3 n

theorem partsTables_of_checkParts {composites oneWay : List Entry} (h : checkParts composites oneWay = true) :
    PartsTables composites oneWay := by
  simp only [checkParts, Bool.and_eq_true, List.all_eq_true, Nat.beq_eq] at h
  obtain ⟨hascends, hpair, hparts, hwhole, hdeep⟩ := h
  refine ⟨(Table.ascends_of_ascendsFrom hascends).1, fun e he => exists_isPair (hpair e he), fun e he v hv => ?_,
    fun w hw n hn => ?_, fun n => ?_⟩
  · have hv := List.all_eq_true.mp (hparts e he) v hv
    simp only [Bool.and_eq_true, isCode_iff, Bool.not_eq_true'] at hv
    refine ⟨hv.1, ?_⟩
    rintro rfl
    cases hv.2
  · refine holds_eq_false_of_testBit ?_
    have hbit := congrArg (·.testBit n) hwhole
    have hin : (mask wholeRanges).testBit n = true := by
      rw [testBit_mask, List.any_eq_true]
      exact ⟨w, hw, hn⟩
    simpa [Nat.testBit_land, hin] using hbit
  · have hzero (v : Nat) (hv : (mask (composites ++ oneWay)).testBit v = false) : Within (composites ++ oneWay) 0 v :=
      holds_eq_false_of_testBit hv
    refine within_of_testBit_deeper (fun v => within_of_testBit_deeper fun v => within_of_testBit_deeper hzero) ?_
    rw [hdeep]
    exact Nat.zero_testBit n

theorem partsTables : PartsTables composites.list oneWay.list := partsTables_of_checkParts parts_checked

/-! ## Taking apart, whatever the entries -/

section Fueled

variable {find : Nat → Option Entry} {entries : List Entry}

/-- A character that is not taken apart. -/
structure IsWhole (find : Nat → Option Entry) (n : Nat) : Prop where
  parts : Syllable.parts? n = none
  entry : find n = none

theorem IsWhole.decomposeFueled_eq (h : IsWhole find n) (fuel : Nat) : decomposeFueled find fuel n = [n] := by
  cases fuel with
  | zero => rfl
  | succ fuel => rw [decomposeFueled, h.parts, h.entry]

/-- The entries that are found are among these, and hold what they are found for. -/
def Finds (find : Nat → Option Entry) (entries : List Entry) : Prop :=
  ∀ n e, find n = some e → e ∈ entries ∧ e.holds n = true

theorem Finds.eq_none (hfind : Finds find entries) (h : ∀ e ∈ entries, e.holds n = false) : find n = none := by
  cases hentry : find n with
  | none => rfl
  | some e =>
    obtain ⟨he, hn⟩ := hfind n e hentry
    rw [h e he] at hn
    cases hn

/-- With steps left over, taking apart comes to the same and to whole characters. -/
theorem decomposeFueled_spec (hfind : Finds find entries)
    (hkorean : ∀ n ps, Syllable.parts? n = some ps → ∀ m ∈ ps, IsWhole find m) {k fuel : Nat} (h : Within entries k n)
    (hfuel : k + 1 ≤ fuel) :
    decomposeFueled find fuel n = decomposeFueled find (k + 1) n ∧ ∀ m ∈ decomposeFueled find fuel n, IsWhole find m := by
  induction k generalizing n fuel with
  | zero =>
    obtain ⟨fuel, rfl⟩ := Nat.exists_eq_add_of_le' hfuel
    have hnone := hfind.eq_none h
    rw [decomposeFueled, decomposeFueled, hnone]
    cases hparts : Syllable.parts? n with
    | some ps => exact ⟨rfl, hkorean n ps hparts⟩
    | none => exact ⟨rfl, fun m hm => List.mem_singleton.mp hm ▸ ⟨hparts, hnone⟩⟩
  | succ k ih =>
    obtain ⟨fuel, rfl⟩ := Nat.exists_eq_add_of_le' (Nat.le_trans (by omega : 1 ≤ k + 1 + 1) hfuel)
    rw [decomposeFueled, decomposeFueled]
    cases hparts : Syllable.parts? n with
    | some ps => exact ⟨rfl, hkorean n ps hparts⟩
    | none =>
      cases hentry : find n with
      | none => exact ⟨rfl, fun m hm => List.mem_singleton.mp hm ▸ ⟨hparts, hentry⟩⟩
      | some e =>
        obtain ⟨he, hn⟩ := hfind n e hentry
        have hvalues (v : Nat) (hv : v ∈ e.values) := @ih v fuel (h e he hn v hv) (by omega)
        refine ⟨congrArg List.flatten (List.map_congr_left fun v hv => (hvalues v hv).1), fun m hm => ?_⟩
        obtain ⟨v, hv, hm⟩ := List.mem_flatMap.mp hm
        exact (hvalues v hv).2 m hm

/-- What the parts of each character keep, taking apart keeps. -/
theorem forall_mem_decomposeFueled {p : Nat → Prop}
    (hparts : ∀ n ps, Syllable.parts? n = some ps → p n → ∀ m ∈ ps, p m)
    (hentry : ∀ n e, find n = some e → p n → ∀ v ∈ e.values, p v) {fuel : Nat} (hn : p n) :
    ∀ m ∈ decomposeFueled find fuel n, p m := by
  induction fuel generalizing n with
  | zero => exact fun m hm => List.mem_singleton.mp hm ▸ hn
  | succ fuel ih =>
    intro m hm
    rw [decomposeFueled] at hm
    cases hps : Syllable.parts? n with
    | some ps =>
      rw [hps] at hm
      exact hparts n ps hps hn m hm
    | none =>
      rw [hps] at hm
      cases he : find n with
      | some e =>
        rw [he] at hm
        obtain ⟨v, hv, hm⟩ := List.mem_flatMap.mp hm
        exact ih (hentry n e he hn v hv) m hm
      | none =>
        rw [he] at hm
        exact List.mem_singleton.mp hm ▸ hn

end Fueled

/-! ## Syllables -/

/-- The parts of a syllable, in numbers. -/
theorem parts?_of_mem (hlo : 0xAC00 ≤ n) (hhi : n < 0xAC00 + 19 * 21 * 28) : Syllable.parts? n =
    some ([0x1100 + (n - 0xAC00) / (21 * 28), 0x1161 + (n - 0xAC00) / 28 % 21] ++
      if (n - 0xAC00) % 28 = 0 then [] else [0x11A7 + (n - 0xAC00) % 28]) := if_pos ⟨hlo, hhi⟩

theorem mem_of_parts? {ps : List Nat} (h : Syllable.parts? n = some ps) : 0xAC00 ≤ n ∧ n < 0xAC00 + 19 * 21 * 28 := by
  unfold Syllable.parts? at h
  split at h
  · next hn => exact hn
  · cases h

/-- A letter that syllables are written with. -/
def IsLetter (n : Nat) : Prop := 0x1100 ≤ n ∧ n ≤ 0x1112 ∨ 0x1161 ≤ n ∧ n ≤ 0x1175 ∨ 0x11A8 ≤ n ∧ n ≤ 0x11C2

theorem IsLetter.bounds (h : IsLetter n) : 0x1100 ≤ n ∧ n ≤ 0x11FF := by
  unfold IsLetter at h
  omega

theorem isLetter_of_mem_parts? {ps : List Nat} {m : Nat} (h : Syllable.parts? n = some ps) (hm : m ∈ ps) : IsLetter m := by
  obtain ⟨hlo, hhi⟩ := mem_of_parts? h
  rw [parts?_of_mem hlo hhi] at h
  cases h
  unfold IsLetter
  rw [List.mem_append, List.mem_cons, List.mem_singleton] at hm
  rcases hm with (rfl | rfl) | hm
  · omega
  · omega
  · split at hm
    · cases hm
    · rw [List.mem_singleton] at hm
      omega

/-- What two parts of a syllable join to has them as its parts. -/
theorem parts?_of_join? (h : Syllable.join? a b = some c) : ∃ ps,
    Syllable.parts? c = some (ps ++ [b]) ∧ 0x1100 ≤ b ∧ b ≤ 0x11FF ∧
      (ps = [a] ∧ 0x1100 ≤ a ∧ a ≤ 0x11FF ∨ Syllable.parts? a = some ps) := by
  unfold Syllable.join? at h
  split at h
  · next hab =>
    have hab : 0x1100 ≤ a ∧ a < 0x1100 + 19 ∧ 0x1161 ≤ b ∧ b < 0x1161 + 21 := hab
    have hc : c = 0xAC00 + ((a - 0x1100) * 21 + (b - 0x1161)) * 28 := (Option.some.inj h).symm
    obtain ⟨h1, h2, h3, h4⟩ := hab
    refine ⟨[a], ?_, by omega, by omega, .inl ⟨rfl, h1, by omega⟩⟩
    rw [parts?_of_mem (by omega) (by omega), if_pos (by omega), List.append_nil]
    have hlead : 0x1100 + (c - 0xAC00) / (21 * 28) = a := by omega
    have hvowel : 0x1161 + (c - 0xAC00) / 28 % 21 = b := by omega
    rw [hlead, hvowel]
    rfl
  · split at h
    · next hab =>
      have hab : 0xAC00 ≤ a ∧ a < 0xAC00 + 19 * 21 * 28 ∧ (a - 0xAC00) % 28 = 0 ∧ 0x11A7 < b ∧ b < 0x11A7 + 28 := hab
      have hc : c = a + (b - 0x11A7) := (Option.some.inj h).symm
      obtain ⟨h1, h2, h3, h4, h5⟩ := hab
      refine ⟨_, ?_, by omega, by omega, .inr (parts?_of_mem h1 h2)⟩
      rw [parts?_of_mem (by omega) (by omega), if_neg (by omega), if_pos h3, List.append_nil]
      have hlead : (c - 0xAC00) / (21 * 28) = (a - 0xAC00) / (21 * 28) := by omega
      have hvowel : (c - 0xAC00) / 28 = (a - 0xAC00) / 28 := by omega
      have htrail : 0x11A7 + (c - 0xAC00) % 28 = b := by omega
      rw [hlead, hvowel, htrail]
    · cases h

/-! ## Taking apart by the tables -/

theorem or_of_orElse {α : Type} {x : Option α} {f : Unit → Option α} {y : α} (h : x.orElse f = some y) :
    x = some y ∨ f () = some y := by
  cases x with
  | none => exact .inr h
  | some x => exact .inl h

theorem finds_entryOf? : Finds entryOf? (composites.list ++ oneWay.list) := by
  intro n e h
  rcases or_of_orElse h with h | h
  · obtain ⟨he, hn⟩ := Table.mem_of_find? h
    exact ⟨List.mem_append_left _ he, hn⟩
  · obtain ⟨he, hn⟩ := Table.mem_of_find? h
    exact ⟨List.mem_append_right _ he, hn⟩

theorem entryOf?_of_holds {w : Entry} (hw : w ∈ wholeRanges) (hn : w.holds n = true) : entryOf? n = none :=
  finds_entryOf?.eq_none (partsTables.whole w hw n hn)

theorem parts?_of_lt (h : n < Syllable.base) : Syllable.parts? n = none := by
  rw [Syllable.parts?, if_neg fun hsyllable => Nat.not_le.mpr h hsyllable.1]

/-- Korean letters are whole. -/
theorem isWhole_of_korean (hlo : 0x1100 ≤ n) (hhi : n ≤ 0x11FF) : IsWhole entryOf? n where
  parts := parts?_of_lt (Nat.lt_of_le_of_lt hhi (by decide))
  entry := entryOf?_of_holds (w := ⟨0x1100, 0x11FF, []⟩) (by simp [wholeRanges]) (Entry.holds_iff.mpr ⟨hlo, hhi⟩)

/-- ASCII characters are whole. -/
theorem isWhole_of_ascii (h : n < 0x80) : IsWhole entryOf? n where
  parts := parts?_of_lt (Nat.lt_trans h (by decide))
  entry := entryOf?_of_holds (w := ⟨0, 0x7F, []⟩) (by simp [wholeRanges])
    (Entry.holds_iff.mpr ⟨Nat.zero_le n, Nat.le_of_lt_succ h⟩)

theorem spec_of_le {fuel : Nat} (n : Nat) (h : 4 ≤ fuel) :
    decomposeFueled entryOf? fuel n = decomposeFueled entryOf? 4 n ∧ ∀ m ∈ decomposeFueled entryOf? fuel n, IsWhole entryOf? m :=
  decomposeFueled_spec finds_entryOf? (fun _ _ hps _ hm => isWhole_of_korean (isLetter_of_mem_parts? hps hm).bounds.1
    (isLetter_of_mem_parts? hps hm).bounds.2) (partsTables.within n) h

theorem decompose_of_parts? {ps : List Nat} (h : Syllable.parts? n = some ps) : decompose n = ps := by
  rw [decompose, decomposeFueled, h]

/-- Taking apart never stops short. -/
theorem decompose_of_entryOf? (hparts : Syllable.parts? n = none) (h : entryOf? n = some e) :
    decompose n = e.values.flatMap decompose := by
  have hsame : decomposeFueled entryOf? 7 = decompose :=
    funext fun v => (spec_of_le v (by decide)).1.trans (spec_of_le v (by decide)).1.symm
  rw [decompose, decomposeFueled, hparts, h, hsame]

theorem isWhole_of_mem_decompose {m : Nat} (h : m ∈ decompose n) : IsWhole entryOf? m := (spec_of_le n (by decide)).2 m h

theorem IsWhole.decompose (h : IsWhole entryOf? n) : decompose n = [n] := h.decomposeFueled_eq 8

/-! ## Putting together -/

theorem pairKey_inj {a' b' : Nat} (hb : b < 2 ^ 21) (hb' : b' < 2 ^ 21) (h : pairKey a b = pairKey a' b') :
    a = a' ∧ b = b' := by
  have h : a * 2 ^ 21 + b = a' * 2 ^ 21 + b' := h
  omega

theorem lt_of_isValidChar (h : n.isValidChar) : n < 0x110000 := by
  simp only [Nat.isValidChar] at h
  omega

theorem mem_byPairs {t : Table} {e : Entry} (h : e ∈ t.byPairs.list) : ∃ c ∈ t.list, ∃ a b, c.values = [a, b] ∧
    e = ⟨pairKey a b, pairKey a b, [c.first]⟩ := by
  have hmem : e ∈ (t.list.filterMap byPair?).mergeSort fun a b => decide (a.first ≤ b.first) := h
  rw [List.mem_mergeSort, List.mem_filterMap] at hmem
  obtain ⟨c, hc, hvalues⟩ := hmem
  unfold byPair? at hvalues
  split at hvalues
  · next a b hab =>
    cases hvalues
    exact ⟨c, hc, a, b, hab, rfl⟩
  · cases hvalues

/-- What two characters join to: a Korean syllable, or a composite of the table. -/
theorem compose?_cases (hb : b.isValidChar) (h : compose? a b = some c) : Syllable.join? a b = some c ∨
    ∃ e ∈ composites.list, IsPair e a b ∧ e.first = c := by
  rcases or_of_orElse h with h | h
  · exact .inl h
  · obtain ⟨e, hfind, hhead⟩ := Option.bind_eq_some_iff.mp h
    obtain ⟨he, hholds⟩ := Table.mem_of_find? hfind
    obtain ⟨c', hc', a', b', hvalues, rfl⟩ := mem_byPairs he
    obtain ⟨a'', b'', hpair⟩ := partsTables.pair c' hc'
    rw [hpair.values] at hvalues
    cases hvalues
    obtain ⟨hlo, hhi⟩ := Entry.holds_iff.mp hholds
    have hkey := Nat.le_antisymm hhi hlo
    obtain ⟨rfl, rfl⟩ := pairKey_inj (Nat.lt_trans (lt_of_isValidChar hb) (by decide))
      (Nat.lt_trans (lt_of_isValidChar hpair.right) (by decide)) hkey
    cases hhead
    exact .inr ⟨c', hc', hpair, rfl⟩

theorem entryOf?_of_mem {e : Entry} (he : e ∈ composites.list) (hn : e.holds n = true) : entryOf? n = some e := by
  rw [entryOf?, Table.find?_of_mem partsTables.ascends he hn]
  rfl

theorem parts?_of_entryOf? (h : entryOf? n = some e) : Syllable.parts? n = none := by
  cases hparts : Syllable.parts? n with
  | none => rfl
  | some ps =>
    obtain ⟨hlo, hhi⟩ := mem_of_parts? hparts
    have hnone := entryOf?_of_holds (w := ⟨0xAC00, 0xD7A3, []⟩) (by simp [wholeRanges])
      (Entry.holds_iff.mpr ⟨hlo, Nat.le_of_lt_succ hhi⟩)
    rw [hnone] at h
    cases h

/-- A character that is put together comes apart into what its two parts come apart into. -/
theorem decompose_of_compose? (hb : b.isValidChar) (h : compose? a b = some c) :
    decompose c = decompose a ++ decompose b := by
  rcases compose?_cases hb h with h | ⟨e, he, hpair, rfl⟩
  · obtain ⟨ps, hparts, hlo, hhi, hps⟩ := parts?_of_join? h
    have ha : decompose a = ps := by
      rcases hps with ⟨rfl, hlo, hhi⟩ | hps
      · exact (isWhole_of_korean hlo hhi).decompose
      · exact decompose_of_parts? hps
    rw [decompose_of_parts? hparts, ha, (isWhole_of_korean hlo hhi).decompose]
  · have hentry := entryOf?_of_mem he (Entry.holds_iff.mpr ⟨Nat.le_refl _, Nat.le_of_eq hpair.last.symm⟩)
    rw [decompose_of_entryOf? (parts?_of_entryOf? hentry) hentry, hpair.values]
    simp

end MediaBackup.CodePoint
