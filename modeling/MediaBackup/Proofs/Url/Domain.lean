import MediaBackup.Proofs.Url.Address
import MediaBackup.Proofs.Url.NameForm
import MediaBackup.Proofs.Url.Punycode
import MediaBackup.Url.Domain

/-
  Names in ASCII.

  A name that was written has none of the characters that no name may hold.  Read again it says what it said, since its
  letters keep their form, and each of its codes is read as what it was written for (`toAscii_encode`).  That fails for a
  code that is longer than what is read, and for no other name (`toAscii_encode_eq_none`).
-/

namespace MediaBackup.Url.Label

/-! ## Plain characters run forward -/

open CodePoint (Table)

theorem rightToLeftLetters_checked : Table.ascendsFrom 0x80 CodePoint.rightToLeftLetters.list = true := by
  unfold CodePoint.rightToLeftLetters
  apply Eq.trans
  · apply congrArg
    apply Table.list_ofLines
    repeat (first | exact Table.toList_nil | apply Table.toList_cons rfl)
  · decide +kernel

theorem arabicNumbers_checked : Table.ascendsFrom 0x80 CodePoint.arabicNumbers.list = true := by
  unfold CodePoint.arabicNumbers
  apply Eq.trans
  · apply congrArg
    apply Table.list_ofLines
    repeat (first | exact Table.toList_nil | apply Table.toList_cons rfl)
  · decide +kernel

theorem runsBack_of_ascii {c : Char} (h : c.toNat < 0x80) : runsBack c = false := by
  have hletter : CodePoint.rightToLeftLetters.contains c = false := by
    rw [Table.contains, Table.find?_of_lt rightToLeftLetters_checked h]
    rfl
  have hnumber : CodePoint.arabicNumbers.contains c = false := by
    rw [Table.contains, Table.find?_of_lt arabicNumbers_checked h]
    rfl
  unfold runsBack CodePoint.directionOf
  rw [hletter, hnumber]
  simp only [Bool.false_eq_true, if_false]
  split_ifs <;> rfl

end MediaBackup.Url.Label

namespace MediaBackup.Url.Domain

variable {label meant : List Char} {c : Char}

/-! ## What makes a name -/

/-- A text is a name in ASCII if it has a form for names whose labels all mean something, keep to their directions where
    one of them runs back, and can be written. -/
theorem toAscii_eq_some_iff {bytes : List UInt8} {d : List Char} : toAscii bytes = some d ↔
    ∃ form meanings written, nameFormOf (Text.decodeLossy bytes) = some form ∧
      (Text.splitAll (· == '.') (CodePoint.normalForm form)).mapM meaning? = some meanings ∧
      ((meanings.any fun label => label.any Label.runsBack) && !(meanings.all Label.keepsDirection)) = false ∧
      (Text.splitAll (· == '.') (CodePoint.normalForm form)).mapM write? = some written ∧
      List.intercalate ['.'] written = d := by
  simp only [toAscii, Option.bind_eq_bind, Option.bind_eq_some_iff]
  constructor
  · rintro ⟨form, hform, meanings, hmeanings, h⟩
    split at h
    · cases h
    · next hdir =>
      obtain ⟨written, hwritten, rfl⟩ := Option.map_eq_some_iff.mp h
      exact ⟨form, meanings, written, hform, hmeanings, Bool.eq_false_iff.mpr hdir, hwritten, rfl⟩
  · rintro ⟨form, meanings, written, hform, hmeanings, hdir, hwritten, rfl⟩
    refine ⟨form, hform, meanings, hmeanings, ?_⟩
    rw [hdir, if_neg Bool.false_ne_true, hwritten]
    rfl

/-! ## The characters of a name -/

theorem isForbidden_of_digitValue? (hc : c.toNat < 0x80) (h : (Punycode.digitValue? c).isSome = true) :
    isForbidden c = false := by
  revert h
  exact forall_ascii (p := fun c => (Punycode.digitValue? c).isSome = true → isForbidden c = false) (by decide) c hc

theorem isPlain_codeTag : IsPlain isForbidden codeTag := forall_mem_of_all (by decide)

theorem isPlain_of_all_isAscii (hascii : label.all isAscii = true) (h : label.any isForbidden = false) :
    IsPlain isForbidden label := fun c hc =>
  ⟨of_decide_eq_true (List.all_eq_true.mp hascii c hc), Bool.eq_false_iff.mpr (List.any_eq_false.mp h c hc)⟩

theorem ofCode?_eq_some_iff {code : List Char} : ofCode? code = some label ↔
    code.length ≤ longestRead ∧ Punycode.decode? code = some label ∧ label.all isAscii = false ∧
      nameFormOf label = some label ∧ CodePoint.normalForm label = label := by
  rw [ofCode?]
  by_cases hlength : longestRead < code.length
  · simp [hlength]
  · simp only [if_neg hlength, Option.bind_eq_bind, Option.bind_eq_some_iff, Nat.not_lt.mp hlength, true_and]
    constructor
    · rintro ⟨l, hread, h⟩
      split at h
      · cases h
      · next hl =>
        cases h
        simpa [hread, and_assoc] using hl
    · rintro ⟨hread, hl⟩
      refine ⟨label, hread, if_neg ?_⟩
      simpa [and_assoc] using hl

/-- What a label stands for before it is looked at. -/
def source? (label : List Char) : Option (List Char) :=
  if codeTag.isPrefixOf label then ofCode? (label.drop codeTag.length) else some label

/-- A label means itself, or what its code says. -/
theorem meaning?_eq_some_iff : meaning? label = some meant ↔ source? label = some meant ∧
    meant.any isForbidden = false ∧ (meant.all isAscii = true ∨ Label.isWellFormed meant = true) := by
  have heq : meaning? label = (source? label).bind fun meant =>
      if meant.any isForbidden then none
      else if meant.all isAscii || Label.isWellFormed meant then some meant else none := by
    unfold meaning? source?
    split <;> rfl
  rw [heq, Option.bind_eq_some_iff]
  constructor
  · rintro ⟨m, hm, h⟩
    split_ifs at h with hforbidden hformed
    cases h
    exact ⟨hm, Bool.eq_false_iff.mpr hforbidden, by simpa using hformed⟩
  · rintro ⟨hm, hforbidden, hformed⟩
    refine ⟨meant, hm, ?_⟩
    rw [hforbidden, if_neg Bool.false_ne_true, if_pos (by simpa using hformed)]

theorem isPlain_of_decode? {code : List Char} (hread : Punycode.decode? code = some label)
    (hforbidden : label.any isForbidden = false) : IsPlain isForbidden code := by
  intro c hc
  obtain ⟨hascii, hmem | rfl | hdigit⟩ := Punycode.mem_of_decode? hread hc
  · exact ⟨hascii, Bool.eq_false_iff.mpr (List.any_eq_false.mp hforbidden c hmem)⟩
  · exact ⟨hascii, by decide⟩
  · exact ⟨hascii, isForbidden_of_digitValue? hascii hdigit⟩

/-- A label beyond ASCII means itself. -/
theorem eq_of_meaning? (h : meaning? label = some meant) (hascii : label.all isAscii = false) : label = meant := by
  obtain ⟨hm, hforbidden, -⟩ := meaning?_eq_some_iff.mp h
  unfold source? at hm
  split at hm
  · next htag =>
    exfalso
    obtain ⟨-, hread, -⟩ := ofCode?_eq_some_iff.mp hm
    obtain ⟨code, rfl⟩ := List.isPrefixOf_iff_prefix.mp htag
    rw [List.drop_left] at hread
    have hcode := isPlain_of_decode? hread hforbidden
    have hall : code.all isAscii = true := List.all_eq_true.mpr fun c hc => decide_eq_true (hcode c hc).1
    rw [List.all_append, hall] at hascii
    cases hascii
  · exact Option.some.inj hm

theorem isPlain_of_meaning? (h : meaning? label = some meant) (hascii : label.all isAscii = true) :
    IsPlain isForbidden label := by
  obtain ⟨hm, hforbidden, -⟩ := meaning?_eq_some_iff.mp h
  unfold source? at hm
  split at hm
  · next htag =>
    obtain ⟨-, hread, -⟩ := ofCode?_eq_some_iff.mp hm
    obtain ⟨code, rfl⟩ := List.isPrefixOf_iff_prefix.mp htag
    rw [List.drop_left] at hread
    exact isPlain_append_iff.mpr ⟨isPlain_codeTag, isPlain_of_decode? hread hforbidden⟩
  · cases hm
    exact isPlain_of_all_isAscii hascii hforbidden

theorem isForbidden_of_isDigitChar : ∀ c, Punycode.isDigitChar c = true → isForbidden c = false ∧ c.toNat < 0x80 :=
  Punycode.forall_isDigitChar (by decide)

theorem isPlain_of_write? {written : List Char} (h : meaning? label = some meant) (hw : write? label = some written) :
    IsPlain isForbidden written := by
  rw [write?] at hw
  split_ifs at hw with hascii hlength
  · cases hw
    exact isPlain_of_meaning? h hascii
  · cases hw
    have hself := eq_of_meaning? h (Bool.eq_false_iff.mpr hascii)
    obtain ⟨-, hforbidden, -⟩ := meaning?_eq_some_iff.mp h
    refine isPlain_append_iff.mpr ⟨isPlain_codeTag, fun c hc => ?_⟩
    rcases Punycode.mem_of_mem_encode hc with ⟨hmem, hc⟩ | rfl | hdigit
    · exact ⟨hc, Bool.eq_false_iff.mpr (List.any_eq_false.mp hforbidden c (hself ▸ hmem))⟩
    · decide
    · exact (isForbidden_of_isDigitChar c hdigit).symm

theorem mem_intercalate {parts : List (List Char)} {separator : List Char} (h : c ∈ List.intercalate separator parts) :
    c ∈ separator ∨ ∃ part ∈ parts, c ∈ part := by
  induction parts with
  | nil => cases h
  | cons part parts ih =>
    cases parts with
    | nil => exact .inr ⟨part, .head _, by simpa using h⟩
    | cons next parts =>
      rw [List.intercalate_cons_cons, List.mem_append, List.mem_append] at h
      rcases h with (h | h) | h
      · exact .inr ⟨part, .head _, h⟩
      · exact .inl h
      · exact (ih h).imp_right fun ⟨p, hp, hc⟩ => ⟨p, .tail _ hp, hc⟩

/-- A name in ASCII holds nothing that no name may hold. -/
theorem isPlain_of_toAscii {bytes : List UInt8} {d : List Char} (h : toAscii bytes = some d) :
    IsPlain isForbidden d := by
  obtain ⟨form, meanings, written, -, hmeanings, -, hwritten, rfl⟩ := toAscii_eq_some_iff.mp h
  intro c hc
  rcases mem_intercalate hc with hc | ⟨part, hpart, hc⟩
  · rw [List.mem_singleton.mp hc]
    decide
  · have hmem : some part ∈ written.map some := List.mem_map_of_mem hpart
    rw [← mapM_eq_some_iff.mp hwritten] at hmem
    obtain ⟨label, hlabel, hwrite⟩ := List.mem_map.mp hmem
    have hmeant : meaning? label ∈ meanings.map some := mapM_eq_some_iff.mp hmeanings ▸ List.mem_map_of_mem hlabel
    obtain ⟨meant, -, hmeant⟩ := List.mem_map.mp hmeant
    exact isPlain_of_write? hmeant.symm hwrite c hc

/-! ## What was written is read back -/

/-- The characters that codes are written in stay as they are. -/
theorem isKept_of_isDigitChar : ∀ c, Punycode.isDigitChar c = true → IsKept c.toNat := by
  have hholds : ∀ d < 36, ∃ w ∈ keptRanges, w.holds (Punycode.digitChar d).toNat = true := by decide
  refine Punycode.forall_isDigitChar fun d hd => ?_
  obtain ⟨w, hw, hd⟩ := hholds d hd
  exact isKept_of_holds hw hd

theorem isKept_of_mem_codeTag : ∀ c ∈ codeTag, IsKept c.toNat := by
  have hholds : ∀ c ∈ codeTag, ∃ w ∈ keptRanges, w.holds c.toNat = true := forall_mem_of_all (by decide)
  intro c hc
  obtain ⟨w, hw, hc⟩ := hholds c hc
  exact isKept_of_holds hw hc

/-- The labels of a normal form are the normal forms of the labels. -/
theorem splitAll_normalForm (s : List Char) : Text.splitAll (· == '.') (CodePoint.normalForm s) =
    (Text.splitAll (· == '.') s).map CodePoint.normalForm := by
  have hinner {t : List Char} (ht : '.' ∉ t) : ∀ c ∈ t, (c == '.') = false := fun c hc =>
    beq_eq_false_iff_ne.mpr fun heq => ht (heq ▸ hc)
  induction hn : s.length using Nat.strong_induction_on generalizing s with
  | _ n ih =>
    by_cases hs : '.' ∈ s
    · obtain ⟨x, y, rfl, hx⟩ := List.eq_append_cons_of_mem hs
      have hlt : y.length < n := by
        rw [← hn, List.length_append, List.length_cons]
        omega
      rw [CodePoint.normalForm_append_point, splitAll_append_cons (hinner hx) rfl,
        splitAll_append_cons (hinner (CodePoint.point_notMem_normalForm hx)) rfl, ih _ hlt y rfl, List.map_cons]
    · rw [splitAll_of_forall (hinner hs), splitAll_of_forall (hinner (CodePoint.point_notMem_normalForm hs))]
      rfl

/-- A label of a name in its form for names. -/
structure IsLabel (label : List Char) : Prop where
  kept : ∀ c ∈ label, IsKept c.toNat
  inner : ∀ c ∈ label, (c == '.') = false
  normal : CodePoint.normalForm label = label

theorem isLabel_of_mem {bytes : List UInt8} {form : List Char} (hform : nameFormOf (Text.decodeLossy bytes) = some form)
    (h : label ∈ Text.splitAll (· == '.') (CodePoint.normalForm form)) : IsLabel label := by
  refine ⟨fun c hc => ?_, fun c hc => (mem_of_mem_splitAll h hc).2, ?_⟩
  · exact isKept_of_mem_normalForm (isKept_of_nameFormOf hform) c (mem_of_mem_splitAll h hc).1
  · rw [splitAll_normalForm] at h
    obtain ⟨part, -, rfl⟩ := List.mem_map.mp h
    exact CodePoint.normalForm_normalForm part

/-- A label in ASCII that is read as it stands. -/
structure IsWritten (label : List Char) : Prop where
  kept : ∀ c ∈ label, IsKept c.toNat
  ascii : ∀ c ∈ label, c.toNat < 0x80
  inner : ∀ c ∈ label, (c == '.') = false

theorem isInner_of_isDigitChar : ∀ c, Punycode.isDigitChar c = true → (c == '.') = false :=
  Punycode.forall_isDigitChar (by decide)

theorem isWritten_of_write? {written : List Char} (hlabel : IsLabel label) (hw : write? label = some written) :
    IsWritten written := by
  rw [write?] at hw
  split_ifs at hw with hascii hlength
  · cases hw
    exact ⟨hlabel.kept, fun c hc => of_decide_eq_true (List.all_eq_true.mp hascii c hc), hlabel.inner⟩
  · cases hw
    have htag : ∀ c ∈ codeTag, c.toNat < 0x80 ∧ (c == '.') = false := forall_mem_of_all (by decide)
    have hmark : IsKept '-'.toNat := isKept_of_mem_codeTag '-' (by decide)
    refine ⟨List.forall_mem_append.mpr ⟨isKept_of_mem_codeTag, fun c hc => ?_⟩,
      List.forall_mem_append.mpr ⟨fun c hc => (htag c hc).1, fun c hc => ?_⟩,
      List.forall_mem_append.mpr ⟨fun c hc => (htag c hc).2, fun c hc => ?_⟩⟩
    · rcases Punycode.mem_of_mem_encode hc with ⟨hmem, -⟩ | rfl | hdigit
      · exact hlabel.kept c hmem
      · exact hmark
      · exact isKept_of_isDigitChar c hdigit
    · rcases Punycode.mem_of_mem_encode hc with ⟨-, hc⟩ | rfl | hdigit
      · exact hc
      · decide
      · exact (isForbidden_of_isDigitChar c hdigit).2
    · rcases Punycode.mem_of_mem_encode hc with ⟨hmem, -⟩ | rfl | hdigit
      · exact hlabel.inner c hmem
      · rfl
      · exact isInner_of_isDigitChar c hdigit

/-- The label has no code that is longer than what is read. -/
def FitsLabel (label : List Char) : Prop := codeTag <+: label → (label.drop codeTag.length).length ≤ longestRead

instance : DecidablePred FitsLabel := fun label =>
  inferInstanceAs (Decidable (codeTag <+: label → (label.drop codeTag.length).length ≤ longestRead))

/-- A label that was written means what it was written for, unless its code is longer than what is read. -/
theorem meaning?_of_write? {written : List Char} (hlabel : IsLabel label) (h : meaning? label = some meant)
    (hw : write? label = some written) (hfits : FitsLabel written) : meaning? written = some meant := by
  rw [write?] at hw
  split_ifs at hw with hascii hlength
  · cases hw
    exact h
  · cases hw
    have hascii := Bool.eq_false_iff.mpr hascii
    obtain rfl := eq_of_meaning? h hascii
    have hfits := hfits (List.prefix_append _ _)
    rw [List.drop_left] at hfits
    refine meaning?_eq_some_iff.mpr ⟨?_, (meaning?_eq_some_iff.mp h).2⟩
    rw [source?, if_pos (List.isPrefixOf_iff_prefix.mpr (List.prefix_append _ _)), List.drop_left]
    exact ofCode?_eq_some_iff.mpr ⟨hfits, Punycode.decode?_encode (Nat.not_lt.mp hlength), hascii,
      nameFormOf_of_isKept hlabel.kept, hlabel.normal⟩

/-- A label that means something has no code that is longer than what is read. -/
theorem fitsLabel_of_meaning? (h : meaning? label = some meant) : FitsLabel label := by
  intro htag
  obtain ⟨hm, -⟩ := meaning?_eq_some_iff.mp h
  rw [source?, if_pos (List.isPrefixOf_iff_prefix.mpr htag)] at hm
  exact (ofCode?_eq_some_iff.mp hm).1

theorem map_meaning?_of_write? {source meanings written : List (List Char)} (hlabel : ∀ l ∈ source, IsLabel l)
    (hmeanings : source.map meaning? = meanings.map some) (hwritten : source.map write? = written.map some)
    (hfits : ∀ l ∈ written, FitsLabel l) : written.map meaning? = meanings.map some := by
  -- the three lists run side by side, so one label of each is settled at a time
  induction source generalizing meanings written with
  | nil =>
    rw [List.map_eq_nil_iff.mp hwritten.symm, List.map_eq_nil_iff.mp hmeanings.symm]
    rfl
  | cons label source ih =>
    obtain ⟨meant, meanings, rfl, hmeant, hmeanings⟩ := List.map_eq_cons_iff.mp hmeanings.symm
    obtain ⟨w, written, rfl, hw, hwritten⟩ := List.map_eq_cons_iff.mp hwritten.symm
    obtain ⟨hlabel, hrest⟩ := List.forall_mem_cons.mp hlabel
    obtain ⟨hfit, hfits⟩ := List.forall_mem_cons.mp hfits
    rw [List.map_cons, List.map_cons, meaning?_of_write? hlabel hmeant.symm hw.symm hfit,
      ih hrest hmeanings.symm hwritten.symm hfits]

/-- No label of a name has a code longer than what is read. -/
def Fits (d : List Char) : Prop := ∀ label ∈ Text.splitAll (· == '.') d, FitsLabel label

instance : DecidablePred Fits := fun d => inferInstanceAs (Decidable (∀ label ∈ Text.splitAll (· == '.') d, FitsLabel label))

theorem splitAll_labels {labels : List (List Char)} (hne : labels ≠ []) (hlabels : ∀ l ∈ labels, IsWritten l) :
    Text.splitAll (· == '.') (List.intercalate ['.'] labels) = labels :=
  splitAll_intercalate (p := (· == '.')) rfl hne fun l hl => (hlabels l hl).inner

theorem isWritten_intercalate {labels : List (List Char)} (hlabels : ∀ l ∈ labels, IsWritten l) :
    ∀ c ∈ List.intercalate ['.'] labels, IsKept c.toNat ∧ c.toNat < 0x80 := by
  intro c hc
  rcases mem_intercalate hc with hc | ⟨l, hl, hc⟩
  · rw [List.mem_singleton.mp hc]
    exact ⟨isKept_of_holds (w := ⟨0x2D, 0x2E, []⟩) (by simp [keptRanges]) rfl, by decide⟩
  · exact ⟨(hlabels l hl).kept c hc, (hlabels l hl).ascii c hc⟩

/-- Labels that are read as they stand make a name just if they mean something and keep to their directions. -/
theorem toAscii_encode_eq_some_iff {labels : List (List Char)} {d : List Char} (hne : labels ≠ [])
    (hlabels : ∀ l ∈ labels, IsWritten l) : toAscii (Text.encode (List.intercalate ['.'] labels)) = some d ↔
      (∃ meanings, labels.mapM meaning? = some meanings ∧
        ((meanings.any fun label => label.any Label.runsBack) && !(meanings.all Label.keepsDirection)) = false) ∧
      List.intercalate ['.'] labels = d := by
  have hall := isWritten_intercalate hlabels
  have hform : nameFormOf (Text.decodeLossy (Text.encode (List.intercalate ['.'] labels))) =
      some (List.intercalate ['.'] labels) := by
    rw [Text.decodeLossy_encode, nameFormOf_of_isKept fun c hc => (hall c hc).1]
  have hsplit : Text.splitAll (· == '.') (CodePoint.normalForm (List.intercalate ['.'] labels)) = labels := by
    rw [CodePoint.normalForm_of_ascii fun c hc => (hall c hc).2, splitAll_labels hne hlabels]
  have hwrite : labels.mapM write? = some labels := by
    refine mapM_eq_some_iff.mpr (List.map_congr_left fun l hl => ?_)
    have hascii : l.all isAscii = true := List.all_eq_true.mpr fun c hc => decide_eq_true ((hlabels l hl).ascii c hc)
    rw [write?, if_pos hascii]
  rw [toAscii_eq_some_iff]
  constructor
  · rintro ⟨form, meanings, written, hform', hmeanings, hdir, hwritten, rfl⟩
    rw [hform] at hform'
    cases hform'
    rw [hsplit] at hmeanings hwritten
    rw [hwrite] at hwritten
    cases hwritten
    exact ⟨⟨meanings, hmeanings, hdir⟩, rfl⟩
  · rintro ⟨⟨meanings, hmeanings, hdir⟩, rfl⟩
    refine ⟨_, meanings, labels, hform, ?_, hdir, ?_, rfl⟩
    · rw [hsplit, hmeanings]
    · rw [hsplit, hwrite]

/-- The labels of a name, and what they mean. -/
theorem exists_labels_of_toAscii {bytes : List UInt8} {d : List Char} (h : toAscii bytes = some d) :
    ∃ labels, labels ≠ [] ∧ (∀ l ∈ labels, IsWritten l) ∧ List.intercalate ['.'] labels = d ∧
      (Fits d → ∃ meanings, labels.mapM meaning? = some meanings ∧
        ((meanings.any fun label => label.any Label.runsBack) && !(meanings.all Label.keepsDirection)) = false) := by
  obtain ⟨form, meanings, written, hform, hmeanings, hdir, hwritten, rfl⟩ := toAscii_eq_some_iff.mp h
  have hsource := splitAll_ne_nil (· == '.') (CodePoint.normalForm form)
  have hlabel : ∀ l ∈ Text.splitAll (· == '.') (CodePoint.normalForm form), IsLabel l := fun l hl => isLabel_of_mem hform hl
  generalize Text.splitAll (· == '.') (CodePoint.normalForm form) = source at *
  have hmap := mapM_eq_some_iff.mp hwritten
  have hne : written ≠ [] := by
    rintro rfl
    exact hsource (List.map_eq_nil_iff.mp hmap)
  have hall : ∀ l ∈ written, IsWritten l := by
    intro l hl
    have hmem : some l ∈ written.map some := List.mem_map_of_mem hl
    rw [← hmap] at hmem
    obtain ⟨label, hsource, hw⟩ := List.mem_map.mp hmem
    exact isWritten_of_write? (hlabel label hsource) hw
  refine ⟨written, hne, hall, rfl, fun hfits => ⟨meanings, ?_, hdir⟩⟩
  rw [Fits, splitAll_labels hne hall] at hfits
  exact mapM_eq_some_iff.mpr (map_meaning?_of_write? hlabel (mapM_eq_some_iff.mp hmeanings) hmap hfits)

/-- A name in ASCII is read as it stands, if its codes are not too long to be read. -/
theorem toAscii_encode {bytes : List UInt8} {d : List Char} (h : toAscii bytes = some d) (hfits : Fits d) :
    toAscii (Text.encode d) = some d := by
  obtain ⟨labels, hne, hlabels, rfl, hmeant⟩ := exists_labels_of_toAscii h
  exact (toAscii_encode_eq_some_iff hne hlabels).mpr ⟨hmeant hfits, rfl⟩

theorem toAscii_encode_eq_none {bytes : List UInt8} {d : List Char} (h : toAscii bytes = some d) (hfits : ¬ Fits d) :
    toAscii (Text.encode d) = none := by
  obtain ⟨labels, hne, hlabels, rfl, -⟩ := exists_labels_of_toAscii h
  -- if it were read, each label would mean something, and no code that is too long does
  refine Option.eq_none_iff_forall_ne_some.mpr fun d' hread => hfits ?_
  obtain ⟨⟨meanings, hmeanings, -⟩, -⟩ := (toAscii_encode_eq_some_iff hne hlabels).mp hread
  intro label hl
  rw [splitAll_labels hne hlabels] at hl
  have hmem : meaning? label ∈ meanings.map some := mapM_eq_some_iff.mp hmeanings ▸ List.mem_map_of_mem hl
  obtain ⟨meant, -, hmeant⟩ := List.mem_map.mp hmem
  exact fitsLabel_of_meaning? hmeant.symm

/-! ## Names without codes -/

/-- The characters of names that are read as they stand. -/
def isNameChar (c : Char) : Bool := c.isLower || c.isDigit || c == '-'

theorem isKept_of_isNameChar (h : isNameChar c = true) : IsKept c.toNat := by
  simp only [isNameChar, Bool.or_eq_true, beq_iff_eq] at h
  rcases h with (h | h) | rfl
  · exact isKept_of_holds (w := ⟨0x61, 0x7A, []⟩) (by simp [keptRanges]) (CodePoint.Entry.holds_iff.mpr (isLower_iff.mp h))
  · exact isKept_of_holds (w := ⟨0x30, 0x39, []⟩) (by simp [keptRanges])
      (CodePoint.Entry.holds_iff.mpr (Char.isDigit_iff_toNat.mp h))
  · exact isKept_of_mem_codeTag '-' (by decide)

theorem isPlain_of_isNameChar (h : isNameChar c = true) : c.toNat < 0x80 ∧ isForbidden c = false ∧ (c == '.') = false := by
  have hascii : c.toNat < 0x80 := by
    simp only [isNameChar, Bool.or_eq_true, beq_iff_eq] at h
    rcases h with (h | h) | rfl
    · exact Nat.lt_of_le_of_lt (isLower_iff.mp h).2 (by decide)
    · exact toNat_lt_of_isDigit h
    · decide
  revert h
  exact forall_ascii (p := fun c => isNameChar c = true → c.toNat < 0x80 ∧ isForbidden c = false ∧ (c == '.') = false)
    (by decide) c hascii

/-- A label without a code. -/
structure IsUncoded (label : List Char) : Prop where
  char : ∀ c ∈ label, isNameChar c = true
  tag : ¬ codeTag <+: label

theorem IsUncoded.isWritten (h : IsUncoded label) : IsWritten label where
  kept c hc := isKept_of_isNameChar (h.char c hc)
  ascii c hc := (isPlain_of_isNameChar (h.char c hc)).1
  inner c hc := (isPlain_of_isNameChar (h.char c hc)).2.2

/-- A label without a code means itself. -/
theorem IsUncoded.meaning?_eq (h : IsUncoded label) : meaning? label = some label := by
  refine meaning?_eq_some_iff.mpr ⟨if_neg fun htag => h.tag (List.isPrefixOf_iff_prefix.mp htag), ?_, .inl ?_⟩
  · exact List.any_eq_false.mpr fun c hc => Bool.eq_false_iff.mp (isPlain_of_isNameChar (h.char c hc)).2.1
  · exact List.all_eq_true.mpr fun c hc => decide_eq_true (h.isWritten.ascii c hc)

/-- A name of labels without codes is a name in ASCII as it stands. -/
theorem toAscii_of_isUncoded {labels : List (List Char)} (hne : labels ≠ []) (hlabels : ∀ l ∈ labels, IsUncoded l) :
    toAscii (Text.encode (List.intercalate ['.'] labels)) = some (List.intercalate ['.'] labels) := by
  have hmeanings : labels.mapM meaning? = some labels :=
    mapM_eq_some_iff.mpr (List.map_congr_left fun l hl => (hlabels l hl).meaning?_eq)
  have hforward : (labels.any fun label => label.any Label.runsBack) = false := by
    refine List.any_eq_false.mpr fun l hl => Bool.eq_false_iff.mp (List.any_eq_false.mpr fun c hc => ?_)
    exact Bool.eq_false_iff.mp (Label.runsBack_of_ascii ((hlabels l hl).isWritten.ascii c hc))
  refine (toAscii_encode_eq_some_iff hne fun l hl => (hlabels l hl).isWritten).mpr ⟨⟨labels, hmeanings, ?_⟩, rfl⟩
  rw [hforward, Bool.false_and]

end MediaBackup.Url.Domain
