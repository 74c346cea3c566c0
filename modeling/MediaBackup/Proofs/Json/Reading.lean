import Mathlib.Data.List.Basic
import MediaBackup.Json.Record
import MediaBackup.Json.Writer
import MediaBackup.Proofs.Text.Reading

/-
  What was written is read back.

  A reader READS a text up to what is left of it (`Reads`), wherever the text stands, so that readers are chained as their
  texts are.  A string is read back character by character (`stringRest_cons`), whatever is in it; a whole number digit by
  digit, as far as it fits 64 bits.  So a value that was written is read back as the tree that it is of (`IsOf`), as long as
  it stands where a member of an object ends.
-/

namespace MediaBackup.Json

open Reader

/-- The reader takes the text `t` up to `t'` for `a`, wherever it stands. -/
def Reads {α : Type} (r : Reader α) (t : List Char) (a : α) (t' : List Char) : Prop :=
  ∀ p : Place, ∃ q : Place, r ⟨p, t⟩ = .ok (a, ⟨q, t'⟩)

variable {α β : Type} {c d : Char} {s t u v : List Char} {fuel : Nat}

namespace Reads

theorem pure (a : α) (t : List Char) : Reads (Pure.pure a) t a t := fun p => ⟨p, rfl⟩

/-- Two readers, one after the other. -/
theorem bind {r : Reader α} {f : α → Reader β} {a : α} {b : β} (h : Reads r t a u) (h' : Reads (f a) u b v) :
    Reads (r >>= f) t b v := by
  intro p
  obtain ⟨q, hq⟩ := h p
  obtain ⟨q', hq'⟩ := h' q
  refine ⟨q', ?_⟩
  show (r ⟨p, t⟩ >>= fun x => f x.1 x.2) = _
  rw [hq]
  exact hq'

theorem peek (c : Char) (t : List Char) : Reads Reader.peek (c :: t) (some c) (c :: t) := fun p => ⟨p, rfl⟩

theorem skip (c : Char) (t : List Char) : Reads Reader.skip (c :: t) () t := fun p => ⟨p.past c, rfl⟩

theorem left (t : List Char) : Reads Reader.left t t.length t := fun p => ⟨p, rfl⟩

/-- No blank stands in the way. -/
theorem peekPastBlank (h : ¬ (c = ' ' ∨ c = '\n' ∨ c = '\t' ∨ c = '\r')) (t : List Char) :
    Reads Reader.peekPastBlank (c :: t) (some c) (c :: t) := by
  intro p
  refine ⟨p, ?_⟩
  unfold Reader.peekPastBlank Source.unblank
  rw [if_neg h]
  rfl

theorem peekInString (c : Char) (t : List Char) : Reads Reader.peekInString (c :: t) c (c :: t) :=
  (peek c t).bind (pure c _)

/-- A word is read as it stands. -/
theorem word (w t : List Char) : Reads (Reader.word w) (w ++ t) () t := by
  induction w with
  | nil => exact pure () t
  | cons c w ih =>
    refine (peek c _).bind ?_
    show Reads (if c = c then _ else _) _ _ _
    rw [if_pos rfl]
    exact (skip c _).bind ih

end Reads

/-! ## Strings -/

/-- A character behind a backslash. -/
theorem stringRest_letter (h : escapeLetter? c = some d) (hu : c ≠ 'u') (hrest : Reads (stringRest true fuel) t s u) :
    Reads (stringRest true (fuel + 1)) ('\\' :: c :: t) (d :: s) u := by
  refine (Reads.peek _ _).bind ((Reads.skip _ _).bind ((Reads.peekInString _ _).bind ?_))
  rw [if_neg hu, h]
  exact (Reads.skip c t).bind ((Reads.pure d t).bind (hrest.bind (Reads.pure _ _)))

/-- Four hexadecimal digits. -/
theorem hexFour_of_hexValue? {a b c d : Char} {i j k l : Nat} (ha : hexValue? a = some i) (hb : hexValue? b = some j)
    (hc : hexValue? c = some k) (hd : hexValue? d = some l) :
    Reads hexFour (a :: b :: c :: d :: t) (((i * 16 + j) * 16 + k) * 16 + l) t := by
  intro p
  refine ⟨p.pastBytes 4 (a :: b :: c :: d :: t), ?_⟩
  simp [hexFour, ha, hb, hc, hd]

/-- A control written by its number is read back. -/
theorem hexDigits_control : ∀ n < 0x20, ((if n < 0x10 then ['0'] else []) ++ Text.hex n).map hexValue? =
    [some (n / 16), some (n % 16)] := by
  decide

theorem hexEscape_control (h : c.toNat < 0x20) (t : List Char) :
    Reads hexEscape (['0', '0'] ++ (if c.toNat < 0x10 then ['0'] else []) ++ Text.hex c.toNat ++ t) c t := by
  have hdigits := hexDigits_control c.toNat h
  rw [List.append_assoc ['0', '0']]
  generalize (if c.toNat < 0x10 then ['0'] else []) ++ Text.hex c.toNat = digits at hdigits ⊢
  obtain ⟨a, b, rfl⟩ : ∃ a b, digits = [a, b] := by
    have hlength := congrArg List.length hdigits
    rw [List.length_map] at hlength
    exact List.length_eq_two.1 hlength
  simp only [List.map_cons, List.map_nil, List.cons.injEq, and_true] at hdigits
  have hzero : hexValue? '0' = some 0 := by decide
  have hvalue := hexFour_of_hexValue? (t := t) hzero hzero hdigits.1 hdigits.2
  rw [show ((0 * 16 + 0) * 16 + c.toNat / 16) * 16 + c.toNat % 16 = c.toNat by omega] at hvalue
  refine hvalue.bind ?_
  rw [if_neg (by omega), if_pos (by omega), Char.ofNat_toNat]
  exact Reads.pure c t

/-- A control without a letter goes by its number. -/
theorem stringRest_control (h : c.toNat < 0x20) (hrest : Reads (stringRest true fuel) t s u) :
    Reads (stringRest true (fuel + 1))
      ('\\' :: 'u' :: (['0', '0'] ++ (if c.toNat < 0x10 then ['0'] else []) ++ Text.hex c.toNat ++ t)) (c :: s) u := by
  refine (Reads.peek _ _).bind ((Reads.skip _ _).bind ((Reads.peekInString _ _).bind ?_))
  rw [if_pos rfl]
  refine (Reads.skip _ _).bind ?_
  rw [if_pos rfl]
  exact (hexEscape_control h t).bind (hrest.bind (Reads.pure _ _))

/-- All else stands as it is. -/
theorem stringRest_plain (hquote : c ≠ '"') (hbackslash : c ≠ '\\') (hcontrol : ¬ c.toNat < 0x20)
    (hrest : Reads (stringRest true fuel) t s u) : Reads (stringRest true (fuel + 1)) (c :: t) (c :: s) u := by
  refine (Reads.peek c _).bind ?_
  split
  case h_1 h => cases h
  case h_2 h => exact absurd (Option.some.inj h) hquote
  case h_3 h => exact absurd (Option.some.inj h) hbackslash
  case h_4 _ h =>
    obtain rfl := Option.some.inj h
    rw [if_neg hcontrol]
    exact (Reads.skip _ _).bind (hrest.bind (Reads.pure _ _))

/-- A character is read back, whatever it is. -/
theorem stringRest_cons (c : Char) (hrest : Reads (stringRest true fuel) t s u) :
    Reads (stringRest true (fuel + 1)) (writeChar c ++ t) (c :: s) u := by
  unfold writeChar
  split
  case h_1 | h_2 | h_3 | h_4 | h_5 | h_6 | h_7 => exact stringRest_letter rfl (by decide) hrest
  case h_8 _ hquote hbackslash _ _ _ _ _ =>
    by_cases hcontrol : c.toNat < 0x20
    · rw [if_pos hcontrol]
      exact stringRest_control hcontrol hrest
    · rw [if_neg hcontrol]
      exact stringRest_plain hquote hbackslash hcontrol hrest

/-- So are all of them, up to the closing quote. -/
theorem stringRest_flatMap (cs t : List Char) (fuel : Nat) (h : cs.length < fuel) :
    Reads (stringRest true fuel) (cs.flatMap writeChar ++ '"' :: t) cs t := by
  induction cs generalizing fuel with
  | nil =>
    cases fuel with
    | zero => exact absurd h (Nat.not_lt_zero _)
    | succ fuel => exact (Reads.peek _ _).bind ((Reads.skip _ _).bind (Reads.pure _ _))
  | cons c cs ih =>
    cases fuel with
    | zero => exact absurd h (Nat.not_lt_zero _)
    | succ fuel =>
      rw [List.flatMap_cons, List.append_assoc]
      exact stringRest_cons c (ih fuel (Nat.lt_of_succ_lt_succ h))

/-- A character takes at least one. -/
theorem length_le_flatMap_writeChar (cs : List Char) : cs.length ≤ (cs.flatMap writeChar).length := by
  have hone : ∀ c, 1 ≤ (writeChar c).length := by
    intro c
    unfold writeChar
    split <;> simp
    split <;> simp
  induction cs with
  | nil => exact Nat.le_refl 0
  | cons c cs ih =>
    have hc := hone c
    rw [List.flatMap_cons, List.length_append, List.length_cons]
    omega

/-- A string is read back, its opening quote read. -/
theorem string_reads (s : String) (t : List Char) : Reads string (s.toList.flatMap writeChar ++ '"' :: t) s t := by
  have hlength := length_le_flatMap_writeChar s.toList
  have hrest := stringRest_flatMap s.toList t ((s.toList.flatMap writeChar ++ '"' :: t).length + 1)
    (by rw [List.length_append]; omega)
  have hstring : Reads string _ (String.ofList s.toList) t := (Reads.left _).bind (hrest.bind (Reads.pure _ t))
  rwa [String.ofList_toList] at hstring

theorem toList_writeString (s : String) : (writeString s).toList = '"' :: (s.toList.flatMap writeChar ++ ['"']) := by
  rw [writeString, String.toList_ofList]
  rfl

/-! ## Whole numbers -/

/-- Where a member of an object ends. -/
inductive Ends : List Char → Prop where
  | comma (t : List Char) : Ends (',' :: t)
  | brace (t : List Char) : Ends ('\x7d' :: t)

/-- No digit comes where a member ends. -/
theorem Ends.exists_cons (h : Ends t) : ∃ c t', t = c :: t' ∧ ¬ c.isDigit = true := by
  cases h with
  | comma t => exact ⟨_, t, rfl, by decide⟩
  | brace t => exact ⟨_, t, rfl, by decide⟩

theorem digits_append {ds : List Char} (hds : ∀ c ∈ ds, c.isDigit = true) (ht : Ends t) (h : ds.length ≤ fuel) :
    Reads (digits fuel) (ds ++ t) ds t := by
  induction ds generalizing fuel with
  | nil =>
    obtain ⟨c, t, rfl, hc⟩ := ht.exists_cons
    cases fuel with
    | zero => exact Reads.pure _ _
    | succ fuel =>
      refine (Reads.peek _ _).bind ?_
      dsimp only
      rw [if_neg hc]
      exact Reads.pure _ _
  | cons c ds ih =>
    obtain ⟨hc, hds⟩ := List.forall_mem_cons.1 hds
    cases fuel with
    | zero => exact absurd h (Nat.not_succ_le_zero _)
    | succ fuel =>
      refine (Reads.peek _ _).bind ?_
      dsimp only
      rw [if_pos hc]
      exact (Reads.skip _ _).bind ((ih hds (Nat.le_of_succ_le_succ h)).bind (Reads.pure _ _))

theorem someDigits_append {ds : List Char} (hds : ∀ c ∈ ds, c.isDigit = true) (ht : Ends t) :
    Reads someDigits (ds ++ t) ds t := by
  refine (Reads.left _).bind (digits_append hds ht ?_)
  rw [List.length_append]
  omega

/-- All digits are taken as long as the number fits. -/
theorem gather_eq (ds : List Char) (n : Nat) (h : Nat.ofDigitChars 10 ds n < UInt64.size) :
    gather n ds = (Nat.ofDigitChars 10 ds n, 0) := by
  induction ds generalizing n with
  | nil => rfl
  | cons c ds ih =>
    rw [Nat.ofDigitChars_cons, Nat.mul_comm] at h ⊢
    have hfits : n * 10 + (c.toNat - '0'.toNat) < UInt64.size := by
      rw [Nat.ofDigitChars_eq_ofDigitChars_zero] at h
      have hpow : 0 < 10 ^ ds.length := Nat.pow_pos (by decide)
      have hle := Nat.le_mul_of_pos_left (n * 10 + (c.toNat - '0'.toNat)) hpow
      omega
    unfold gather
    rw [if_pos hfits]
    exact ih _ h

theorem numberEnd_reads {n : Nat} {ds : List Char} (h : gather 0 ds = (n, 0)) (ht : Ends t) :
    Reads (numberEnd true ds) t (.natural n) t := by
  unfold numberEnd
  rw [h]
  cases ht with
  | comma t => exact (Reads.peek _ _).bind (Reads.pure _ _)
  | brace t => exact (Reads.peek _ _).bind (Reads.pure _ _)

/-- A whole number is read back, if it fits 64 bits. -/
theorem number_reads {n : Nat} (h : n < UInt64.size) (ht : Ends t) :
    Reads (number true) (Nat.toDigits 10 n ++ t) (.natural n) t := by
  have hgather := gather_eq (Nat.toDigits 10 n) 0 (by rw [Nat.ofDigitChars_ten_toDigits]; exact h)
  rw [Nat.ofDigitChars_ten_toDigits] at hgather
  have hend := numberEnd_reads hgather ht
  have hdigits : ∀ c ∈ Nat.toDigits 10 n, c.isDigit = true := fun c =>
    Nat.isDigit_of_mem_toDigits (by decide) (by decide)
  by_cases hn : n = 0
  · subst hn
    rw [Nat.toDigits_zero] at hend ⊢
    obtain ⟨d, t, rfl, hd⟩ := ht.exists_cons
    refine (Reads.peek _ _).bind ((Reads.skip _ _).bind ((Reads.peek _ _).bind ?_))
    dsimp only
    rw [if_neg hd]
    exact (Reads.pure _ _).bind hend
  · have hfirst := Text.head?_toDigits_ne n hn
    obtain ⟨c, ds, hc⟩ := List.exists_cons_of_ne_nil (Nat.toDigits_ne_nil (n := n) (b := 10))
    rw [hc] at hfirst hdigits hend ⊢
    obtain ⟨hdigit, hds⟩ := List.forall_mem_cons.1 hdigits
    refine (Reads.peek _ _).bind ?_
    dsimp only
    rw [if_neg (by rw [hdigit]; decide)]
    refine (Reads.skip _ _).bind ?_
    rw [if_neg (fun e => hfirst (congrArg some e))]
    exact (someDigits_append hds ht).bind hend

/-! ## Values -/

/-- The text is that of a value: where a member of an object ends behind it, the value is read from it. -/
def IsOf (text : String) (value : Tree) : Prop :=
  ∀ depth t, Ends t → Reads (tree depth) (text.toList ++ t) value t

theorem isOf_of_treeFueled {text : String} {value : Tree}
    (h : ∀ fuel depth t, Ends t → Reads (treeFueled (fuel + 1) depth) (text.toList ++ t) value t) : IsOf text value :=
  fun depth t ht => (Reads.left _).bind (h _ depth t ht)

theorem isOf_writeString (s : String) : IsOf (writeString s) (.text s) := by
  refine isOf_of_treeFueled fun fuel depth t _ => ?_
  rw [toList_writeString, treeFueled, List.cons_append, List.append_assoc]
  refine (Reads.peekPastBlank (by decide) _).bind ((Reads.skip _ _).bind ?_)
  exact (string_reads s t).bind (Reads.pure _ _)

theorem isOf_null : IsOf "null" .null := by
  refine isOf_of_treeFueled fun fuel depth t _ => ?_
  rw [treeFueled]
  refine (Reads.peekPastBlank (by decide) _).bind ((Reads.skip _ _).bind ?_)
  exact (Reads.word ['u', 'l', 'l'] t).bind (Reads.pure _ _)

theorem isOf_writeOption (s : Option String) : IsOf (writeOption s) (s.elim .null .text) := by
  cases s with
  | none => exact isOf_null
  | some s => exact isOf_writeString s

theorem isOf_toString {n : Nat} (h : n < UInt64.size) : IsOf (toString n) (.number (.natural n)) := by
  refine isOf_of_treeFueled fun fuel depth t ht => ?_
  have hnumber := number_reads h ht
  obtain ⟨c, ds, hc⟩ := List.exists_cons_of_ne_nil (Nat.toDigits_ne_nil (n := n) (b := 10))
  have hdigit : c.isDigit = true :=
    Nat.isDigit_of_mem_toDigits (by decide) (by decide) (hc ▸ List.mem_cons_self (a := c) (l := ds))
  rw [Nat.toString_eq_ofList_toDigits, String.toList_ofList, treeFueled]
  rw [hc] at hnumber ⊢
  refine (Reads.peekPastBlank ?_ _).bind ?_
  · rintro (rfl | rfl | rfl | rfl) <;> cases hdigit
  split
  case h_1 h => cases h
  case h_9 d _ _ _ _ _ _ _ h =>
    obtain rfl := Option.some.inj h
    rw [if_pos hdigit]
    exact hnumber.bind (Reads.pure _ _)
  all_goals
    -- no other value begins with a digit
    rename_i h
    obtain rfl := Option.some.inj h
    cases hdigit

/-! ## Objects -/

theorem hasMember_first (t : List Char) : Reads (hasMember true) ('"' :: t) true ('"' :: t) :=
  (Reads.peekPastBlank (by decide) _).bind (Reads.pure _ _)

theorem hasMember_next (t : List Char) : Reads (hasMember false) (',' :: '"' :: t) true ('"' :: t) :=
  (Reads.peekPastBlank (by decide) _).bind
    ((Reads.skip _ _).bind ((Reads.peekPastBlank (by decide) _).bind (Reads.pure _ _)))

theorem hasMember_last (first : Bool) (t : List Char) : Reads (hasMember first) ('\x7d' :: t) false ('\x7d' :: t) :=
  (Reads.peekPastBlank (by decide) _).bind (Reads.pure _ _)

theorem colon_reads (t : List Char) : Reads colon (':' :: t) () t :=
  (Reads.peekPastBlank (by decide) _).bind (Reads.skip _ _)

theorem closeObject_reads (t : List Char) : Reads closeObject ('\x7d' :: t) () t :=
  (Reads.peekPastBlank (by decide) _).bind (Reads.skip _ _)

theorem finish_reads : Reads finish [] () [] := fun p => ⟨p, rfl⟩

/-- A member as it is written, behind the quote that begins its name. -/
def memberText (m : String × String) : List Char := m.1.toList.flatMap writeChar ++ '"' :: ':' :: m.2.toList

/-- The members behind another one, the end of their object, and what follows it. -/
def tailText (ms : List (String × String)) (t : List Char) : List Char :=
  ms.flatMap (fun m => ',' :: '"' :: memberText m) ++ '\x7d' :: t

theorem tailText_cons (m : String × String) (ms : List (String × String)) (t : List Char) :
    tailText (m :: ms) t = ',' :: '"' :: (memberText m ++ tailText ms t) := by
  simp [tailText]

theorem ends_tailText (ms : List (String × String)) (t : List Char) : Ends (tailText ms t) := by
  cases ms with
  | nil => exact .brace t
  | cons m ms =>
    rw [tailText_cons]
    exact .comma _

theorem length_lt_tailText (ms : List (String × String)) (t : List Char) : ms.length < (tailText ms t).length := by
  induction ms with
  | nil => exact Nat.succ_pos _
  | cons m ms ih =>
    rw [tailText_cons]
    simp only [List.length_cons, List.length_append]
    omega

/-- An object with members. -/
theorem toList_writeObject (m : String × String) (ms : List (String × String)) (t : List Char) :
    (writeObject (m :: ms)).toList ++ t = '\x7b' :: '"' :: (memberText m ++ tailText ms t) := by
  have hmember : ∀ m : String × String, (writeString m.1 ++ ":" ++ m.2).toList = '"' :: memberText m := by
    intro m
    simp [toList_writeString, memberText]
  have hjoined : (String.intercalate "," ((m :: ms).map fun m => writeString m.1 ++ ":" ++ m.2)).toList =
      '"' :: memberText m ++ ms.flatMap fun m => ',' :: '"' :: memberText m := by
    rw [String.toList_intercalate, List.map_map, List.map_cons, Function.comp_apply, hmember]
    induction ms generalizing m with
    | nil => simp
    | cons m' ms ih =>
      rw [List.map_cons, List.intercalate_cons_cons, Function.comp_apply, hmember, ih, List.flatMap_cons]
      simp
  rw [writeObject, String.toList_append, String.toList_append, hjoined]
  simp [tailText]

/-- The name of a member is read back. -/
theorem string_memberText (m : String × String) (t : List Char) :
    Reads string (memberText m ++ t) m.1 (':' :: (m.2.toList ++ t)) := by
  rw [memberText, List.append_assoc]
  exact string_reads m.1 _

/-- A string of its own is read back. -/
theorem quotedText_reads (wanted s : String) (t : List Char) :
    Reads (quotedText wanted) ((writeString s).toList ++ t) s t := by
  rw [toList_writeString, List.cons_append, List.append_assoc]
  exact (Reads.peekPastBlank (by decide) _).bind ((Reads.skip _ _).bind (string_reads s t))

/-- A text that is read to its end. -/
theorem run_of_reads {r : Reader α} {text : String} {a : α} (h : Reads r text.toList a []) : run r text = .ok a := by
  obtain ⟨q, hq⟩ := h ⟨1, 0⟩
  unfold run Source.ofString
  rw [hq]
  rfl

end MediaBackup.Json
