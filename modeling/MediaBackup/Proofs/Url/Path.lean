import Mathlib.Data.List.Basic
import MediaBackup.Proofs.Text.Reading
import MediaBackup.Url.Parse
import MediaBackup.Url.Percent

/-
  Percent codes are written once, and paths are read back.

  A text is plain for a part of a URL if the part may hold all of it.  What is encoded is plain (`isPlain_percentEncode`),
  since no part forbids the characters of a code, and what is plain stays as it is (`percentEncode_of_isPlain`).

  Segments that were read once are settled: nothing in them is to be encoded, none of them stands for another or for
  nothing, and none holds a slash (`IsSegment`).  That settled segments stay as they are is plain; that reading settles
  them has one crux, that encoding makes no segment of points out of another one (`isPlain_of_isDotted`).
-/

namespace MediaBackup.Url

/-- A fact about plain characters, one by one. -/
theorem forall_ascii {p : Char → Prop} (h : ∀ n < 0x80, p (Char.ofNat n)) (c : Char) (hc : c.toNat < 0x80) : p c :=
  Char.ofNat_toNat c ▸ h c.toNat hc

theorem isLower_iff {c : Char} : c.isLower = true ↔ 'a'.toNat ≤ c.toNat ∧ c.toNat ≤ 'z'.toNat := by
  show (decide ('a'.val ≤ c.val) && decide (c.val ≤ 'z'.val)) = true ↔ _
  rw [Bool.and_eq_true, decide_eq_true_iff, decide_eq_true_iff]
  rfl

theorem isUpper_iff {c : Char} : c.isUpper = true ↔ 'A'.toNat ≤ c.toNat ∧ c.toNat ≤ 'Z'.toNat := by
  show decide ('A'.val ≤ c.val ∧ c.val ≤ 'Z'.val) = true ↔ _
  rw [decide_eq_true_iff]
  rfl

theorem toNat_lt_of_isAlpha {c : Char} (h : c.isAlpha = true) : c.toNat < 0x80 := by
  rcases (Bool.or_eq_true _ _ ▸ h : c.isUpper = true ∨ c.isLower = true) with h | h
  · exact Nat.lt_of_le_of_lt (isUpper_iff.mp h).2 (by decide)
  · exact Nat.lt_of_le_of_lt (isLower_iff.mp h).2 (by decide)

theorem toNat_lt_of_isDigit {c : Char} (h : c.isDigit = true) : c.toNat < 0x80 :=
  Nat.lt_of_le_of_lt (Char.isDigit_iff_toNat.mp h).2 (by decide)

/-- What is checked of a text one character after the other, and not of all characters that there are. -/
theorem forall_mem_of_all {p : Char → Prop} [DecidablePred p] {s : List Char} (h : (s.all fun c => decide (p c)) = true) :
    ∀ c ∈ s, p c := fun c hc => of_decide_eq_true (List.all_eq_true.mp h c hc)

/-- The part whose set this is may hold the text as it is. -/
def IsPlain (set : Char → Bool) (s : List Char) : Prop := ∀ c ∈ s, c.toNat < 0x80 ∧ set c = false

variable {set : Char → Bool} {s t : List Char} {c : Char}

theorem isPlain_nil : IsPlain set [] := nofun

theorem isPlain_cons_iff : IsPlain set (c :: s) ↔ (c.toNat < 0x80 ∧ set c = false) ∧ IsPlain set s :=
  List.forall_mem_cons

theorem isPlain_append_iff : IsPlain set (s ++ t) ↔ IsPlain set s ∧ IsPlain set t := List.forall_mem_append

theorem IsPlain.sublist (h : IsPlain set s) (hsub : t.Sublist s) : IsPlain set t := fun c hc => h c (hsub.mem hc)

/-- A larger set leaves less. -/
theorem IsPlain.mono {large : Char → Bool} (h : IsPlain large s) (hle : ∀ c, set c = true → large c = true) :
    IsPlain set s := by
  intro c hc
  obtain ⟨hascii, hlarge⟩ := h c hc
  refine ⟨hascii, Bool.eq_false_iff.mpr fun hset => ?_⟩
  rw [hle c hset] at hlarge
  cases hlarge

/-! ## Codes -/

/-- The characters of a code. -/
def isCodeChar (c : Char) : Bool := c == '%' || (List.range 16).any fun n => c == upperHex n

theorem isCodeChar_of_mem_encodeByte {b : UInt8} (h : c ∈ encodeByte b) : isCodeChar c = true := by
  have hb : b.toNat < 256 := b.toNat_lt
  have hhex (n : Nat) (hn : n < 16) : isCodeChar (upperHex n) = true := by
    revert n
    decide
  simp only [encodeByte, List.mem_cons, List.not_mem_nil, or_false] at h
  rcases h with rfl | rfl | rfl
  · rfl
  · exact hhex _ (by omega)
  · exact hhex _ (by omega)

theorem toNat_lt_of_isCodeChar (h : isCodeChar c = true) : c.toNat < 0x80 := by
  simp only [isCodeChar, Bool.or_eq_true, beq_iff_eq, List.any_eq_true, List.mem_range] at h
  rcases h with rfl | ⟨n, hn, rfl⟩
  · decide
  · revert n
    decide

theorem percentEncode_cons : percentEncode set (c :: s) =
    (if set c || 0x80 ≤ c.toNat then (Text.encodeChar c).flatMap encodeByte else [c]) ++ percentEncode set s := rfl

/-- What is written is what was there, or part of a code. -/
theorem mem_of_mem_percentEncode (h : c ∈ percentEncode set s) :
    (c ∈ s ∧ c.toNat < 0x80 ∧ set c = false) ∨ isCodeChar c = true := by
  obtain ⟨d, hd, hmem⟩ := List.mem_flatMap.mp h
  by_cases hset : (set d || 0x80 ≤ d.toNat) = true
  · rw [if_pos hset] at hmem
    obtain ⟨b, -, hb⟩ := List.mem_flatMap.mp hmem
    exact .inr (isCodeChar_of_mem_encodeByte hb)
  · rw [if_neg hset, List.mem_singleton] at hmem
    simp only [Bool.or_eq_true, decide_eq_true_eq, not_or, Bool.not_eq_true, Nat.not_le] at hset
    subst hmem
    exact .inl ⟨hd, hset.2, hset.1⟩

/-- A text starts as it did, or with a code. -/
theorem head?_percentEncode (h : c ∈ (percentEncode set s).head?) : c = '%' ∨ c ∈ s.head? := by
  cases s with
  | nil => cases h
  | cons d s =>
    obtain ⟨b, bs, hb⟩ := List.exists_cons_of_ne_nil (Text.encodeChar_ne_nil d)
    rw [percentEncode_cons] at h
    split at h
    · rw [hb] at h
      cases h
      exact .inl rfl
    · exact .inr h

theorem isPlain_percentEncode (hset : ∀ c, isCodeChar c = true → set c = false) (s : List Char) :
    IsPlain set (percentEncode set s) := by
  intro c hc
  rcases mem_of_mem_percentEncode hc with ⟨-, hplain⟩ | hcode
  · exact hplain
  · exact ⟨toNat_lt_of_isCodeChar hcode, hset c hcode⟩

theorem percentEncode_of_isPlain (h : IsPlain set s) : percentEncode set s = s := by
  induction s with
  | nil => rfl
  | cons c s ih =>
    obtain ⟨⟨hascii, hset⟩, hs⟩ := isPlain_cons_iff.mp h
    rw [percentEncode_cons, ih hs, if_neg (by simp [hset, Nat.not_le.mpr hascii])]
    rfl

/-! ## The sets -/

theorem forall_isCodeChar {p : Char → Prop} (hpercent : p '%') (hhex : ∀ n < 16, p (upperHex n)) :
    ∀ c, isCodeChar c = true → p c := by
  intro c h
  simp only [isCodeChar, Bool.or_eq_true, beq_iff_eq, List.any_eq_true, List.mem_range] at h
  rcases h with rfl | ⟨n, hn, rfl⟩
  · exact hpercent
  · exact hhex n hn

theorem inPath_of_isCodeChar : ∀ c, isCodeChar c = true → inPath c = false :=
  forall_isCodeChar (by decide) (by decide)

theorem isControl_of_isCodeChar : ∀ c, isCodeChar c = true → isControl c = false :=
  forall_isCodeChar (by decide) (by decide)

/-! ## Decoding -/

/-- Where no code starts, only the bytes of the text are read. -/
theorem percentDecode_of_not_mem (h : '%' ∉ s) : percentDecode s = Text.encode s := by
  induction s with
  | nil => rfl
  | cons c s ih =>
    rw [Text.encode_cons, ← ih fun hs => h (.tail _ hs), percentDecode]
    intro a b r heq
    exact absurd (heq ▸ .head _) h

end MediaBackup.Url

namespace MediaBackup.Url

/-! ## Splits -/

section Splits

variable {α : Type} {p : α → Bool}

theorem splitAll_of_forall {s : List α} (h : ∀ c ∈ s, p c = false) : Text.splitAll p s = [s] := by
  induction s with
  | nil => rfl
  | cons c s ih =>
    rw [Text.splitAll, if_neg (by simp [h c (.head _)]), ih fun c hc => h c (.tail _ hc)]

theorem splitAll_append_cons {s : List α} (h : ∀ c ∈ s, p c = false) {d : α} (hd : p d = true) (r : List α) :
    Text.splitAll p (s ++ d :: r) = s :: Text.splitAll p r := by
  induction s with
  | nil => exact if_pos hd
  | cons c s ih =>
    rw [List.cons_append, Text.splitAll, if_neg (by simp [h c (.head _)]), ih fun c hc => h c (.tail _ hc)]

theorem splitAll_ne_nil (p : α → Bool) (s : List α) : Text.splitAll p s ≠ [] := by
  cases s with
  | nil => exact List.cons_ne_nil _ _
  | cons c s =>
    rw [Text.splitAll]
    split
    · exact List.cons_ne_nil _ _
    · split <;> exact List.cons_ne_nil _ _

/-- What a part holds is there and splits nothing. -/
theorem mem_of_mem_splitAll {s part : List α} (h : part ∈ Text.splitAll p s) {c : α} (hc : c ∈ part) :
    c ∈ s ∧ p c = false := by
  induction s generalizing part with
  | nil =>
    rw [List.mem_singleton.mp h] at hc
    cases hc
  | cons d s ih =>
    rw [Text.splitAll] at h
    by_cases hd : p d = true
    · rw [if_pos hd] at h
      rcases List.mem_cons.mp h with rfl | hpart
      · cases hc
      · exact ⟨.tail _ (ih hpart hc).1, (ih hpart hc).2⟩
    · rw [if_neg hd] at h
      cases hsplit : Text.splitAll p s with
      | nil => exact absurd hsplit (splitAll_ne_nil p s)
      | cons first parts =>
        rw [hsplit] at h ih
        have hlater {part : List α} (hpart : part ∈ first :: parts) (hc : c ∈ part) : c ∈ d :: s ∧ p c = false :=
          ⟨.tail _ (ih hpart hc).1, (ih hpart hc).2⟩
        rcases List.mem_cons.mp h with rfl | hpart
        · rcases List.mem_cons.mp hc with rfl | hc
          · exact ⟨.head _, Bool.eq_false_iff.mpr hd⟩
          · exact hlater (.head _) hc
        · exact hlater (.tail _ hpart) hc

/-- Parts with what they are split at between them are found again. -/
theorem splitAll_intercalate {d : α} (hd : p d = true) {parts : List (List α)} (hne : parts ≠ [])
    (h : ∀ s ∈ parts, ∀ c ∈ s, p c = false) : Text.splitAll p (List.intercalate [d] parts) = parts := by
  induction parts with
  | nil => exact absurd rfl hne
  | cons first rest ih =>
    obtain ⟨hfirst, hrest⟩ := List.forall_mem_cons.mp h
    cases rest with
    | nil => rw [List.intercalate_singleton, splitAll_of_forall hfirst]
    | cons second rest =>
      rw [List.intercalate_cons_cons, List.append_assoc, List.singleton_append, splitAll_append_cons hfirst hd,
        ih (List.cons_ne_nil _ _) hrest]

end Splits

variable {s t : List Char} {c : Char} {wellKnown : Bool}

/-! ## Segments of points -/

/-- Points, or their codes in either case. -/
def isDotted : List Char → Bool
  | [] => true
  | '.' :: r => isDotted r
  | '%' :: '2' :: e :: r => (e == 'e' || e == 'E') && isDotted r
  | _ => false

theorem toNat_lowerAsciiChar (c : Char) :
    Text.lowerAsciiChar c = c ∨ (0x41 ≤ c.toNat ∧ c.toNat ≤ 0x5A ∧ (Text.lowerAsciiChar c).toNat = c.toNat + 32) := by
  unfold Text.lowerAsciiChar
  split
  · next h =>
    have hlo : 0x41 ≤ c.toNat := h.1
    have hhi : c.toNat ≤ 0x5A := h.2
    refine .inr ⟨hlo, hhi, ?_⟩
    exact Text.toNat_char_ofNat (.inl (by omega))
  · exact .inl rfl

/-- What is no small letter is no letter in small. -/
theorem eq_of_lowerAsciiChar {d : Char} (h : Text.lowerAsciiChar c = d) (hd : d.toNat < 0x61) : c = d := by
  rcases toNat_lowerAsciiChar c with hc | ⟨hlo, -, hc⟩
  · exact hc.symm.trans h
  · rw [h] at hc
    omega

theorem eq_of_lowerAsciiChar_eq_e (h : Text.lowerAsciiChar c = 'e') : c = 'e' ∨ c = 'E' := by
  rcases toNat_lowerAsciiChar c with hc | ⟨hlo, -, hc⟩
  · exact .inl (hc.symm.trans h)
  · rw [h] at hc
    exact .inr (Char.toNat_inj.mp (Nat.add_right_cancel hc.symm))

/-- Points in small letters are points. -/
theorem isDotted_of_map (h : isDotted (s.map Text.lowerAsciiChar) = true) : isDotted s = true := by
  generalize hm : s.map Text.lowerAsciiChar = m at h
  induction m using isDotted.induct generalizing s with
  | case1 =>
    rw [List.map_eq_nil_iff.mp hm]
    rfl
  | case2 r ih =>
    obtain ⟨c, rest, rfl, hc, hs⟩ := List.map_eq_cons_iff.mp hm
    rw [eq_of_lowerAsciiChar hc (by decide)]
    exact (ih hs h : isDotted rest = true)
  | case3 e r ih =>
    obtain ⟨c, rest, rfl, hc, hs⟩ := List.map_eq_cons_iff.mp hm
    obtain ⟨d, rest, rfl, hd, hs⟩ := List.map_eq_cons_iff.mp hs
    obtain ⟨e', rest, rfl, he, hs⟩ := List.map_eq_cons_iff.mp hs
    rw [isDotted, Bool.and_eq_true, Bool.or_eq_true, beq_iff_eq, beq_iff_eq] at h
    rw [eq_of_lowerAsciiChar hc (by decide), eq_of_lowerAsciiChar hd (by decide), isDotted, Bool.and_eq_true,
      Bool.or_eq_true, beq_iff_eq, beq_iff_eq]
    refine ⟨?_, ih hs h.2⟩
    rcases h.1 with rfl | rfl
    · exact eq_of_lowerAsciiChar_eq_e he
    · exact .inr (eq_of_lowerAsciiChar he (by decide))
  | case4 m h1 h2 h3 =>
    rw [isDotted] at h
    · cases h
    · exact h1
    · exact h2
    · exact h3

theorem isDotted_of_isUp (h : isUp s = true) : isDotted s = true := by
  simp only [isUp, List.contains_eq_mem, List.mem_cons, List.not_mem_nil, or_false, decide_eq_true_eq] at h
  refine isDotted_of_map ?_
  rw [← String.toList_ofList (l := s.map Text.lowerAsciiChar)]
  rcases h with h | h | h | h <;> rw [h] <;> decide

theorem isDotted_of_isHere (h : isHere s = true) : isDotted s = true := by
  simp only [isHere, List.contains_eq_mem, List.mem_cons, List.not_mem_nil, or_false, decide_eq_true_eq] at h
  refine isDotted_of_map ?_
  rw [← String.toList_ofList (l := s.map Text.lowerAsciiChar)]
  rcases h with h | h <;> rw [h] <;> decide

/-- The only code in points is that of a point. -/
theorem code_of_isDotted {before after : List Char} {x y : Char} (h : isDotted t = true)
    (heq : t = before ++ '%' :: x :: y :: after) : x = '2' ∧ (y = 'e' ∨ y = 'E') := by
  induction t using isDotted.induct generalizing before with
  | case1 => simp at heq
  | case2 r ih =>
    cases before with
    | nil => simp at heq
    | cons b before => exact ih h (List.cons.inj heq).2
  | case3 e r ih =>
    rw [isDotted, Bool.and_eq_true] at h
    have he : e = 'e' ∨ e = 'E' := by simpa using h.1
    match before, heq with
    | [], heq =>
      simp only [List.nil_append, List.cons.injEq, true_and] at heq
      exact ⟨heq.1.symm, heq.2.1 ▸ he⟩
    | [_], heq => simp at heq
    | [_, _], heq =>
      simp only [List.cons_append, List.nil_append, List.cons.injEq] at heq
      rcases he with rfl | rfl <;> simp at heq
    | _ :: _ :: _ :: before, heq =>
      exact ih h.2 (List.cons.inj (List.cons.inj (List.cons.inj heq).2).2).2
  | case4 t h1 h2 h3 => 
    rw [isDotted] at h
    · cases h
    · exact h1
    · exact h2
    · exact h3

/-- The first code of a character that is encoded is no point's. -/
theorem encodeChar_eq_cons (c : Char) : ∃ b r, Text.encodeChar c = b :: r ∧ (b.toNat = 0x2E → c = '.') := by
  have hmax := Text.toNat_char_lt c
  have hpoint : c.toNat = 0x2E → c = '.' := fun h => Char.toNat_inj.mp h
  unfold Text.encodeChar
  generalize c.toNat = n at *
  dsimp only
  split_ifs
  · exact ⟨_, _, rfl, fun h => hpoint (by rwa [Text.toNat_toUInt8 (by omega)] at h)⟩
  · refine ⟨_, _, rfl, fun h => ?_⟩
    rw [Text.toNat_toUInt8 (by omega)] at h
    omega
  · refine ⟨_, _, rfl, fun h => ?_⟩
    rw [Text.toNat_toUInt8 (by omega)] at h
    omega
  · refine ⟨_, _, rfl, fun h => ?_⟩
    rw [Text.toNat_toUInt8 (by omega)] at h
    omega

/-- Nothing else becomes points when it is encoded. -/
theorem isPlain_of_isDotted {set : Char → Bool} (hpoint : set '.' = false)
    (h : isDotted (percentEncode set s) = true) : IsPlain set s := by
  intro c hc
  by_cases hplain : c.toNat < 0x80 ∧ set c = false
  · exact hplain
  exfalso
  have henc : (set c || decide (0x80 ≤ c.toNat)) = true := by
    rcases Nat.lt_or_ge c.toNat 0x80 with hascii | hbig
    · rw [Bool.ne_false_iff.mp fun hset => hplain ⟨hascii, hset⟩, Bool.true_or]
    · rw [decide_eq_true hbig, Bool.or_true]
  obtain ⟨before, after, rfl⟩ := List.append_of_mem hc
  obtain ⟨b, bs, hbytes, hb⟩ := encodeChar_eq_cons c
  have heq : percentEncode set (before ++ c :: after) = percentEncode set before ++
      '%' :: upperHex (b.toNat / 16) :: upperHex (b.toNat % 16) :: (bs.flatMap encodeByte ++ percentEncode set after) := by
    rw [percentEncode, List.flatMap_append, List.flatMap_cons, if_pos henc, hbytes, List.flatMap_cons]
    simp [percentEncode, encodeByte]
  have hcode := code_of_isDotted h heq
  have hlt : b.toNat < 256 := b.toNat_lt
  have hhi : b.toNat / 16 = 2 := by
    have hdigit : ∀ n < 16, upperHex n = '2' → n = 2 := by decide
    exact hdigit _ (by omega) hcode.1
  have hlo : b.toNat % 16 = 14 := by
    have hdigit : ∀ n < 16, upperHex n = 'e' ∨ upperHex n = 'E' → n = 14 := by decide
    exact hdigit _ (by omega) hcode.2
  have hc := hb (by omega)
  subst hc
  rw [hpoint] at henc
  cases henc

/-! ## Settled segments -/

theorem isSlash_of_isCodeChar : ∀ c, isCodeChar c = true → isSlash wellKnown c = false := by
  cases wellKnown <;> exact forall_isCodeChar (by decide) (by decide)

/-- A segment that is read as it stands. -/
structure IsSegment (wellKnown : Bool) (s : List Char) : Prop where
  plain : IsPlain inPath s
  up : isUp s = false
  here : isHere s = false
  slash : ∀ c ∈ s, isSlash wellKnown c = false

theorem isSegment_nil : IsSegment wellKnown [] := ⟨isPlain_nil, by decide, by decide, nofun⟩

theorem isSegment_percentEncode (hup : isUp s = false) (hhere : isHere s = false)
    (hslash : ∀ c ∈ s, isSlash wellKnown c = false) : IsSegment wellKnown (percentEncode inPath s) := by
  -- what is points after encoding was the same points before
  have hsame (h : isDotted (percentEncode inPath s) = true) : percentEncode inPath s = s :=
    percentEncode_of_isPlain (isPlain_of_isDotted (by decide) h)
  refine ⟨isPlain_percentEncode inPath_of_isCodeChar s, Bool.eq_false_iff.mpr fun h => ?_,
    Bool.eq_false_iff.mpr fun h => ?_, fun c hc => ?_⟩
  · rw [hsame (isDotted_of_isUp h), hup] at h
    cases h
  · rw [hsame (isDotted_of_isHere h), hhere] at h
    cases h
  · rcases mem_of_mem_percentEncode hc with ⟨hmem, -⟩ | hcode
    · exact hslash c hmem
    · exact isSlash_of_isCodeChar c hcode

theorem isUp_isHere_of_colon (h : s.getLast? = some ':') : isUp s = false ∧ isHere s = false := by
  have hne (t : String) (ht : t.toList.getLast? ≠ some ':') : String.ofList (s.map Text.lowerAsciiChar) ≠ t := by
    rintro rfl
    rw [String.toList_ofList, List.getLast?_map, h] at ht
    exact ht rfl
  simp only [isUp, isHere, List.contains_eq_mem, List.mem_cons, List.not_mem_nil, or_false, decide_eq_false_iff_not, not_or]
  exact ⟨⟨hne _ (by decide), hne _ (by decide), hne _ (by decide), hne _ (by decide)⟩, hne _ (by decide), hne _ (by decide)⟩

/-- A drive with a colon is settled. -/
theorem isSegment_drive (h : isDrive s = true) : IsSegment wellKnown (s.take 1 ++ [':']) := by
  unfold isDrive at h
  split at h
  · next c d =>
    rw [Bool.and_eq_true] at h
    have hascii : c.toNat < 0x80 := toNat_lt_of_isAlpha h.1
    obtain ⟨hup, hhere⟩ := isUp_isHere_of_colon (s := [c, ':']) rfl
    refine ⟨fun x hx => ?_, hup, hhere, fun x hx => ?_⟩
    · rcases List.mem_cons.mp hx with rfl | hx
      · exact ⟨hascii, forall_ascii (p := fun c => c.isAlpha = true → inPath c = false) (by decide) x hascii h.1⟩
      · rw [List.mem_singleton.mp hx]
        decide
    · rcases List.mem_cons.mp hx with rfl | hx
      · have halpha := h.1
        revert halpha
        cases wellKnown
        · exact forall_ascii (p := fun c => c.isAlpha = true → isSlash false c = false) (by decide) x hascii
        · exact forall_ascii (p := fun c => c.isAlpha = true → isSlash true c = false) (by decide) x hascii
      · rw [List.mem_singleton.mp hx]
        cases wellKnown <;> rfl
  · cases h

/-- What is written of a segment is settled. -/
theorem isSegment_writeSegment {startsFile : Bool} (hup : isUp s = false) (hhere : isHere s = false)
    (hslash : ∀ c ∈ s, isSlash wellKnown c = false) : IsSegment wellKnown (writeSegment startsFile s) := by
  unfold writeSegment
  split
  · next hdrive => exact isSegment_drive (Bool.and_eq_true_iff.mp hdrive).2
  · exact isSegment_percentEncode hup hhere hslash

theorem writeSegment_of_isSegment {startsFile : Bool} (h : IsSegment wellKnown s)
    (hdrive : startsFile = true → isDrive s = false) : writeSegment startsFile s = s := by
  rw [writeSegment, if_neg, percentEncode_of_isPlain h.plain]
  rw [Bool.and_eq_true]
  rintro ⟨hstarts, hs⟩
  rw [hdrive hstarts] at hs
  cases hs

theorem placeSegments_cons (inFile : Bool) (stack : List (List Char)) (segment : List Char) (rest : List (List Char)) :
    placeSegments inFile stack (segment :: rest) =
      if isUp segment then
        placeSegments inFile
          (let kept := match stack with
            | [] => []
            | d :: lower => if isDrive d then d :: lower else lower
          if rest.isEmpty then [] :: kept else kept) rest
      else if isHere segment then placeSegments inFile (if rest.isEmpty then [] :: stack else stack) rest
      else placeSegments inFile (writeSegment (inFile && stack.isEmpty) segment :: stack) rest :=
  placeSegments.eq_def inFile stack (segment :: rest)

theorem isSegment_of_mem_close {stack : List (List Char)} {last : Bool} (h : ∀ s ∈ stack, IsSegment wellKnown s) :
    ∀ s ∈ (if last then [] :: stack else stack), IsSegment wellKnown s := by
  cases last with
  | true => exact List.forall_mem_cons.mpr ⟨isSegment_nil, h⟩
  | false => exact h

/-- Reading settles segments. -/
theorem isSegment_of_mem_placeSegments {inFile : Bool} {stack segments : List (List Char)}
    (hstack : ∀ s ∈ stack, IsSegment wellKnown s) (hslash : ∀ s ∈ segments, ∀ c ∈ s, isSlash wellKnown c = false) :
    ∀ s ∈ placeSegments inFile stack segments, IsSegment wellKnown s := by
  induction segments generalizing stack with
  | nil => exact hstack
  | cons segment rest ih =>
    obtain ⟨hsegment, hrest⟩ := List.forall_mem_cons.mp hslash
    rw [placeSegments_cons]
    by_cases hup : isUp segment = true
    · rw [if_pos hup]
      refine ih (isSegment_of_mem_close fun s hs => ?_) hrest
      cases stack with
      | nil => cases hs
      | cons d lower =>
        dsimp only at hs
        split at hs
        · exact hstack s hs
        · exact hstack s (.tail _ hs)
    rw [if_neg hup]
    by_cases hhere : isHere segment = true
    · rw [if_pos hhere]
      exact ih (isSegment_of_mem_close hstack) hrest
    rw [if_neg hhere]
    refine ih (List.forall_mem_cons.mpr ⟨?_, hstack⟩) hrest
    exact isSegment_writeSegment (Bool.eq_false_iff.mpr hup) (Bool.eq_false_iff.mpr hhere) hsegment

theorem placeSegments_ne_nil {inFile : Bool} {stack segments : List (List Char)} (h : stack ≠ [] ∨ segments ≠ []) :
    placeSegments inFile stack segments ≠ [] := by
  induction segments generalizing stack with
  | nil => exact h.resolve_right fun h => h rfl
  | cons segment rest ih =>
    have hclose (stack : List (List Char)) : (if rest.isEmpty then [] :: stack else stack) ≠ [] ∨ rest ≠ [] := by
      cases rest with
      | nil => exact .inl (List.cons_ne_nil _ _)
      | cons _ _ => exact .inr (List.cons_ne_nil _ _)
    rw [placeSegments_cons]
    split
    · exact ih (hclose _)
    · split
      · exact ih (hclose _)
      · exact ih (.inl (List.cons_ne_nil _ _))

/-- Settled segments stay as they are, but for a drive that a file's path starts with. -/
theorem placeSegments_of_isSegment {inFile : Bool} {stack segments : List (List Char)}
    (h : ∀ s ∈ segments, IsSegment wellKnown s)
    (hdrive : inFile = true → stack = [] → segments.head?.any isDrive = false) :
    placeSegments inFile stack segments = segments.reverse ++ stack := by
  induction segments generalizing stack with
  | nil => rfl
  | cons segment rest ih =>
    obtain ⟨hsegment, hrest⟩ := List.forall_mem_cons.mp h
    have hwrite : writeSegment (inFile && stack.isEmpty) segment = segment := by
      refine writeSegment_of_isSegment hsegment fun hstarts => ?_
      rw [Bool.and_eq_true, List.isEmpty_iff] at hstarts
      exact hdrive hstarts.1 hstarts.2
    rw [placeSegments_cons, if_neg (by simp [hsegment.up]), if_neg (by simp [hsegment.here]), hwrite,
      ih hrest fun _ hnil => absurd hnil (List.cons_ne_nil _ _), List.reverse_cons, List.append_assoc]
    rfl

/-! ## Paths -/

/-- The segments of a path, each behind a slash, are found again. -/
theorem splitAll_text {first : List Char} {rest : List (List Char)} (h : ∀ s ∈ first :: rest, IsSegment wellKnown s) :
    Text.splitAll (isSlash wellKnown) (first ++ (Path.rooted rest).text) = first :: rest := by
  induction rest generalizing first with
  | nil => simpa [Path.text] using splitAll_of_forall (h first (.head _)).slash
  | cons second rest ih =>
    obtain ⟨hfirst, hrest⟩ := List.forall_mem_cons.mp h
    rw [Path.text, List.flatMap_cons, List.cons_append, splitAll_append_cons hfirst.slash (by simp [isSlash])]
    exact congrArg _ (ih hrest)

/-- A path of settled segments is read back. -/
theorem readPath_text {segments : List (List Char)} (h : ∀ s ∈ segments, IsSegment wellKnown s)
    (hne : wellKnown = true → segments ≠ []) : readPath wellKnown (Path.rooted segments).text = .rooted segments := by
  cases segments with
  | nil =>
    cases wellKnown with
    | true => exact absurd rfl (hne rfl)
    | false => rfl
  | cons first rest =>
    show Path.rooted (placeSegments false [] (Text.splitAll (isSlash wellKnown) (first ++ (Path.rooted rest).text))).reverse = _
    rw [splitAll_text h, placeSegments_of_isSegment h (fun hfile => absurd hfile Bool.false_ne_true), List.append_nil, List.reverse_reverse]

/-- What is read is a path of settled segments. -/
theorem exists_readPath (wellKnown : Bool) (s : List Char) : ∃ segments, readPath wellKnown s = .rooted segments ∧
    (∀ t ∈ segments, IsSegment wellKnown t) ∧ (wellKnown = true ∨ s ≠ [] → segments ≠ []) := by
  have hplaced (body : List Char) : ∃ segments,
      Path.rooted (placeSegments false [] (Text.splitAll (isSlash wellKnown) body)).reverse = .rooted segments ∧
      (∀ t ∈ segments, IsSegment wellKnown t) ∧ (wellKnown = true ∨ s ≠ [] → segments ≠ []) := by
    refine ⟨_, rfl, fun t ht => ?_, fun _ => ?_⟩
    · exact isSegment_of_mem_placeSegments (List.forall_mem_nil _) (fun _ hs c hc => (mem_of_mem_splitAll hs hc).2) t (List.mem_reverse.mp ht)
    · rw [Ne, List.reverse_eq_nil_iff]
      exact placeSegments_ne_nil (.inr (splitAll_ne_nil _ _))
  cases s with
  | nil =>
    cases wellKnown with
    | true => exact hplaced []
    | false => exact ⟨[], rfl, List.forall_mem_nil _, fun h => h.elim (absurd · Bool.false_ne_true) (absurd rfl)⟩
  | cons c r =>
    unfold readPath
    dsimp only
    split_ifs
    · exact hplaced r
    · exact hplaced (c :: r)

/-! ## Paths of files -/

theorem dropEmpty_of_ne {r : List (List Char)} (h : ∀ s t, r = [] :: s :: t → False) : dropEmpty r = r := by
  rw [dropEmpty]
  exact h

theorem dropEmpty_sublist (segments : List (List Char)) : (dropEmpty segments).Sublist segments := by
  induction segments using dropEmpty.induct with
  | case1 s r ih => exact ih.cons _
  | case2 r h => rw [dropEmpty_of_ne h]

theorem dropEmpty_idem (segments : List (List Char)) : dropEmpty (dropEmpty segments) = dropEmpty segments := by
  induction segments using dropEmpty.induct with
  | case1 s r ih => exact ih
  | case2 r h => rw [dropEmpty_of_ne h, dropEmpty_of_ne h]

theorem dropEmpty_ne_nil {segments : List (List Char)} (h : segments ≠ []) : dropEmpty segments ≠ [] := by
  induction segments using dropEmpty.induct with
  | case1 s r ih => exact ih (List.cons_ne_nil _ _)
  | case2 r hr =>
    rw [dropEmpty_of_ne hr]
    exact h

/-- Segments of a file's path: settled, and none of them empty before another one. -/
structure IsFilePath (segments : List (List Char)) : Prop where
  settled : ∀ s ∈ segments, IsSegment true s
  ne_nil : segments ≠ []
  full : dropEmpty segments = segments

/-- What is placed of the segments of a file's text is settled. -/
theorem isSegment_of_mem_fileSegments (s : List Char) :
    ∀ t ∈ (placeSegments true [] (fileSegments s)).reverse, IsSegment true t := fun t ht =>
  isSegment_of_mem_placeSegments (List.forall_mem_nil _) (fun _ hs _ hc => (mem_of_mem_splitAll hs hc).2) t
    (List.mem_reverse.mp ht)

/-- What is read is the path of a file. -/
theorem exists_fileAt (h : Host) (s : List Char) : ∃ settled, (fileAt h s).2 = .rooted settled ∧ IsFilePath settled := by
  refine ⟨_, rfl, fun t ht => ?_, dropEmpty_ne_nil ?_, dropEmpty_idem _⟩
  · exact isSegment_of_mem_fileSegments s t ((dropEmpty_sublist _).mem ht)
  · rw [Ne, List.reverse_eq_nil_iff]
    exact placeSegments_ne_nil (.inr (splitAll_ne_nil _ _))

end MediaBackup.Url
