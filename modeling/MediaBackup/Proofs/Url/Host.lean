import MediaBackup.Proofs.Url.Domain
import MediaBackup.Url.Parse

/-
  Hosts as they stand in a URL.

  The text of a host ends where a URL says that its host ends, and nothing in it looks like a user (`Stands`).  That
  holds of names and of addresses of four bytes, since none of their characters means anything in a URL, and of addresses
  of eight pieces because their colons stand between brackets.  A host is read back from its text, unless it is a name
  that is not read back (`Host.parse_text`).
-/

namespace MediaBackup.Url

variable {wellKnown : Bool} {s t rest : List Char} {c : Char}

/-! ## The size of a host -/

/-- What follows a host: nothing, a port, or the end of the part that names one. -/
def EndsHere (wellKnown : Bool) (rest : List Char) : Prop := ∀ c ∈ rest.head?, c = ':' ∨ endsHost wellKnown c = true

theorem hostSize_of_endsHere (h : EndsHere wellKnown rest) : hostSize wellKnown false rest = 0 := by
  cases rest with
  | nil => rfl
  | cons c rest =>
    rw [hostSize, if_pos]
    rcases h c rfl with rfl | hc
    · simp
    · simp [hc]

theorem hostSize_cons {inside : Bool} (hc : endsHost wellKnown c = false) (hcolon : c = ':' → inside = true) :
    hostSize wellKnown inside (c :: rest) =
      hostSize wellKnown (if c = '[' then true else if c = ']' then false else inside) rest + 1 := by
  have hgo : ¬ (endsHost wellKnown c || (c == ':' && !inside)) = true := by
    simpa [hc] using hcolon
  rw [hostSize, if_neg hgo, Nat.add_comm]
  simp only [beq_iff_eq]

/-- A character of a host that means nothing else in a URL. -/
structure IsHostChar (wellKnown : Bool) (c : Char) : Prop where
  visible : 0x20 < c.toNat
  user : c ≠ '@'
  goesOn : endsHost wellKnown c = false

/-- The text is found as a host in a URL. -/
structure Stands (wellKnown : Bool) (t : List Char) : Prop where
  char : ∀ c ∈ t, IsHostChar wellKnown c
  size : ∀ rest, EndsHere wellKnown rest → hostSize wellKnown false (t ++ rest) = t.length

theorem stands_of_forall (h : ∀ c ∈ t, IsHostChar wellKnown c ∧ c ≠ ':' ∧ c ≠ '[') : Stands wellKnown t := by
  refine ⟨fun c hc => (h c hc).1, fun rest hrest => ?_⟩
  induction t with
  | nil => exact hostSize_of_endsHere hrest
  | cons c t ih =>
    obtain ⟨⟨hc, hcolon, hbracket⟩, ht⟩ := List.forall_mem_cons.mp h
    rw [List.cons_append, hostSize_cons hc.goesOn fun h => absurd h hcolon, if_neg hbracket, ite_self, ih ht,
      List.length_cons]

/-- Between brackets colons belong to the host. -/
theorem stands_bracketed (h : ∀ c ∈ t, IsHostChar wellKnown c ∧ c ≠ ']') : Stands wellKnown ('[' :: t ++ [']']) := by
  have hinside : ∀ t, (∀ c ∈ t, IsHostChar wellKnown c ∧ c ≠ ']') → ∀ rest,
      hostSize wellKnown true (t ++ rest) = t.length + hostSize wellKnown true rest := by
    intro t ht rest
    induction t with
    | nil => exact (Nat.zero_add _).symm
    | cons c t ih =>
      obtain ⟨⟨hc, hbracket⟩, ht⟩ := List.forall_mem_cons.mp ht
      rw [List.cons_append, hostSize_cons hc.goesOn fun _ => rfl, if_neg hbracket, ite_self, ih ht, List.length_cons,
        Nat.add_right_comm]
  have hopen : IsHostChar wellKnown '[' := ⟨by decide, by decide, by cases wellKnown <;> rfl⟩
  have hclose : IsHostChar wellKnown ']' := ⟨by decide, by decide, by cases wellKnown <;> rfl⟩
  constructor
  · intro c hc
    rw [List.cons_append, List.mem_cons, List.mem_append, List.mem_singleton] at hc
    rcases hc with rfl | hc | rfl
    · exact hopen
    · exact (h c hc).1
    · exact hclose
  · intro rest hrest
    rw [List.cons_append, List.cons_append, hostSize_cons hopen.goesOn (by decide), if_pos rfl, List.append_assoc,
      hinside t h, List.singleton_append, hostSize_cons hclose.goesOn fun _ => rfl, if_neg (by decide), if_pos rfl,
      hostSize_of_endsHere hrest, List.length_cons, List.length_append, List.length_singleton]

/-! ## The characters of hosts -/

/-- A character that stands in names of the well-known schemes. -/
theorem isHostChar_of_isForbidden (hc : c.toNat < 0x80) (h : Domain.isForbidden c = false) :
    IsHostChar true c ∧ c ≠ ':' ∧ c ≠ '[' ∧ c ≠ '|' := by
  have hall : ∀ c, c.toNat < 0x80 → Domain.isForbidden c = false →
      0x20 < c.toNat ∧ c ≠ '@' ∧ endsHost true c = false ∧ c ≠ ':' ∧ c ≠ '[' ∧ c ≠ '|' :=
    forall_ascii (p := fun c => Domain.isForbidden c = false → _) (by decide)
  obtain ⟨h1, h2, h3, h4⟩ := hall c hc h
  exact ⟨⟨h1, h2, h3⟩, h4⟩

/-- A character that stands in hosts of other schemes. -/
theorem isHostChar_of_isControl (hc : c.toNat < 0x80) (hcontrol : isControl c = false) (h : Host.isForbidden c = false) :
    IsHostChar false c ∧ c ≠ ':' ∧ c ≠ '[' := by
  have hall : ∀ c, c.toNat < 0x80 → isControl c = false → Host.isForbidden c = false →
      0x20 < c.toNat ∧ c ≠ '@' ∧ endsHost false c = false ∧ c ≠ ':' ∧ c ≠ '[' :=
    forall_ascii (p := fun c => isControl c = false → Host.isForbidden c = false → _) (by decide)
  obtain ⟨h1, h2, h3, h4⟩ := hall c hc hcontrol h
  exact ⟨⟨h1, h2, h3⟩, h4⟩

namespace Address

theorem text_ne_nil (n : Nat) : text n ≠ [] := by
  intro hnil
  have hmeant := isMeant_text n
  rw [hnil] at hmeant
  cases hmeant

theorem isPlain_text (n : Nat) : IsPlain Domain.isForbidden (text n) := by
  intro c hc
  rcases Domain.mem_intercalate hc with hc | ⟨part, hpart, hc⟩
  · rw [List.mem_singleton.mp hc]
    decide
  · obtain ⟨m, -, rfl⟩ := List.mem_map.mp hpart
    have hdigit := isDigit_of_mem_toDigits hc
    have hascii := toNat_lt_of_isDigit hdigit
    exact ⟨hascii, forall_ascii (p := fun c => c.isDigit = true → Domain.isForbidden c = false) (by decide) c hascii hdigit⟩

/-- An address is a name in ASCII. -/
theorem toAscii_text (n : Nat) : Domain.toAscii (Text.encode (text n)) = some (text n) := by
  refine Domain.toAscii_of_isUncoded (List.cons_ne_nil _ _) fun l hl => ?_
  obtain ⟨m, -, rfl⟩ := List.mem_map.mp hl
  refine ⟨fun c hc => ?_, fun htag => ?_⟩
  · rw [Domain.isNameChar, isDigit_of_mem_toDigits hc, Bool.or_true, Bool.true_or]
  · cases isDigit_of_mem_toDigits (htag.subset (List.mem_cons_self : 'x' ∈ Domain.codeTag))

end Address

namespace WideAddress

theorem mem_joined {ps : List Nat} (h : c ∈ joined ps) : (∃ d < 16, c = d.digitChar) ∨ c = ':' := by
  rcases Domain.mem_intercalate h with h | ⟨part, hpart, h⟩
  · exact .inr (List.mem_singleton.mp h)
  · obtain ⟨p, -, rfl⟩ := List.mem_map.mp hpart
    exact .inl (mem_toDigits h)

theorem mem_body {ps : List Nat} (h : c ∈ body ps) : (∃ d < 16, c = d.digitChar) ∨ c = ':' := by
  unfold body at h
  generalize longestRun ps 0 = run at h
  obtain ⟨at_, size⟩ := run
  dsimp only at h
  split at h
  · exact mem_joined h
  · rcases List.mem_append.mp h with h | h
    · rcases List.mem_append.mp h with h | h
      · exact mem_joined h
      · simp only [List.mem_cons, List.not_mem_nil, or_false, or_self] at h
        exact .inr h
    · exact mem_joined h

theorem stands_text (ps : List Nat) : Stands wellKnown (text ps) := by
  refine stands_bracketed fun c hc => ?_
  have hdigit : ∀ d < 16, 0x20 < d.digitChar.toNat ∧ d.digitChar ≠ '@' ∧ endsHost wellKnown d.digitChar = false ∧
      d.digitChar ≠ ']' := by
    cases wellKnown <;> decide
  rcases mem_body hc with ⟨d, hd, rfl⟩ | rfl
  · obtain ⟨h1, h2, h3, h4⟩ := hdigit d hd
    exact ⟨⟨h1, h2, h3⟩, h4⟩
  · exact ⟨⟨by decide, by decide, by cases wellKnown <;> rfl⟩, by decide⟩

end WideAddress

/-! ## Hosts that were read -/

namespace Host

variable {h : Host}

theorem exists_of_bracketed (hread : bracketed s = .ok h) : ∃ ps, WideAddress.IsPieces ps ∧ h = .wideAddress ps := by
  unfold bracketed at hread
  split at hread
  · cases hread
  · split at hread
    · next ps hps =>
      cases hread
      exact ⟨ps, WideAddress.isPieces_of_parse? hps, rfl⟩
    · cases hread

theorem bracketed_body {ps : List Nat} (hps : WideAddress.IsPieces ps) :
    bracketed (WideAddress.body ps ++ [']']) = .ok (.wideAddress ps) := by
  unfold bracketed
  rw [List.getLast?_concat, List.dropLast_concat, WideAddress.parse?_body hps]
  rfl

/-- An address of eight pieces is read back. -/
theorem readAs_wideAddress (wellKnown : Bool) {ps : List Nat} (hps : WideAddress.IsPieces ps) :
    readAs wellKnown (WideAddress.text ps) = .ok (.wideAddress ps) := by
  cases wellKnown <;> exact bracketed_body hps

/-- A host of a well-known scheme is an address or a name in ASCII. -/
theorem parse_cases (hread : parse s = .ok h) : (∃ ps, WideAddress.IsPieces ps ∧ h = .wideAddress ps) ∨
    (∃ n ≤ Address.last, h = .address n) ∨
    ∃ d, Domain.toAscii (percentDecode s) = some d ∧ d ≠ [] ∧ Address.isMeant d = false ∧ h = .name d := by
  unfold parse at hread
  split at hread
  · exact .inl (exists_of_bracketed hread)
  · split at hread
    · cases hread
    · cases hread
    next d hne hd =>
    split at hread
    · split at hread
      · next n hn =>
        cases hread
        exact .inr (.inl ⟨n, Address.le_last_of_parse? hn, rfl⟩)
      · cases hread
    · next hmeant =>
      cases hread
      exact .inr (.inr ⟨d, hd, hne, Bool.eq_false_iff.mpr hmeant, rfl⟩)

/-- The text of a host of a well-known scheme without brackets holds nothing that no name may hold. -/
theorem isPlain_text_of_parse (hread : parse s = .ok h) :
    (∃ ps, WideAddress.IsPieces ps ∧ h = .wideAddress ps) ∨ IsPlain Domain.isForbidden h.text := by
  rcases parse_cases hread with hps | ⟨n, -, rfl⟩ | ⟨d, hd, -, -, rfl⟩
  · exact .inl hps
  · exact .inr (Address.isPlain_text n)
  · exact .inr (Domain.isPlain_of_toAscii hd)

theorem stands_of_parse (hread : parse s = .ok h) : Stands true h.text := by
  rcases isPlain_text_of_parse hread with ⟨ps, -, rfl⟩ | hplain
  · exact WideAddress.stands_text ps
  · refine stands_of_forall fun c hc => ?_
    obtain ⟨hchar, hcolon, hbracket, -⟩ := isHostChar_of_isForbidden (hplain c hc).1 (hplain c hc).2
    exact ⟨hchar, hcolon, hbracket⟩

theorem text_ne_nil_of_parse (hread : parse s = .ok h) : h.text ≠ [] := by
  rcases parse_cases hread with ⟨ps, -, rfl⟩ | ⟨n, -, rfl⟩ | ⟨d, -, hne, -, rfl⟩
  · exact List.cons_ne_nil _ _
  · exact Address.text_ne_nil n
  · exact hne

theorem ne_nameless_of_parse (hread : parse s = .ok h) : h ≠ .name [] := fun hname =>
  text_ne_nil_of_parse hread (congrArg text hname)

/-- No host of a well-known scheme looks like a drive. -/
theorem isDrive_text (hread : parse s = .ok h) : isDrive h.text = false := by
  rcases isPlain_text_of_parse hread with ⟨ps, -, rfl⟩ | hplain
  · show isDrive ('[' :: (WideAddress.body ps ++ [']'])) = false
    unfold isDrive
    split
    · next heq =>
      cases (List.cons.inj heq).1
      rfl
    · rfl
  · unfold isDrive
    split
    · next c d heq =>
      obtain ⟨hascii, hforbidden⟩ := hplain d (by rw [heq]; simp)
      obtain ⟨-, hcolon, -, hbar⟩ := isHostChar_of_isForbidden hascii hforbidden
      simp [hcolon, hbar]
    · rfl

/-! ### Well-known schemes -/

/-- What a name in ASCII stands for. -/
def ofAscii : Option (List Char) → Except Fault Host
  | none => .error .badDomain
  | some [] => .error .emptyHost
  | some d =>
    if Address.isMeant d then
      match Address.parse? d with
      | some n => .ok (.address n)
      | none => .error .badAddress
    else .ok (.name d)

/-- A text that holds nothing that no name may hold is read as a name. -/
theorem parse_of_isPlain (hplain : IsPlain Domain.isForbidden s) : parse s = ofAscii (Domain.toAscii (Text.encode s)) := by
  have hmark : '%' ∉ s := fun hmem => absurd (hplain '%' hmem).2 (by decide)
  unfold parse
  split
  · exact absurd (hplain '[' (.head _)).2 (by decide)
  · rw [percentDecode_of_not_mem hmark]
    rfl

theorem ofAscii_of_ne_nil {d : List Char} (hne : d ≠ []) : ofAscii (some d) =
    if Address.isMeant d then
      match Address.parse? d with
      | some n => .ok (.address n)
      | none => .error .badAddress
    else .ok (.name d) := by
  obtain ⟨c, r, rfl⟩ := List.exists_cons_of_ne_nil hne
  rfl

/-- An address of four bytes is read back. -/
theorem parse_address {n : Nat} (hn : n ≤ Address.last) : parse (Address.text n) = .ok (.address n) := by
  rw [parse_of_isPlain (Address.isPlain_text n), Address.toAscii_text, ofAscii_of_ne_nil (Address.text_ne_nil n),
    Address.isMeant_text, if_pos rfl, Address.parse?_text hn]

/-- A name of labels without codes is read as it stands. -/
theorem parse_of_isUncoded {labels : List (List Char)} (hne : labels ≠ [])
    (hlabels : ∀ l ∈ labels, Domain.IsUncoded l) (hs : List.intercalate ['.'] labels ≠ [])
    (hmeant : Address.isMeant (List.intercalate ['.'] labels) = false) :
    parse (List.intercalate ['.'] labels) = .ok (.name (List.intercalate ['.'] labels)) := by
  have hread := Domain.toAscii_of_isUncoded hne hlabels
  rw [parse_of_isPlain (Domain.isPlain_of_toAscii hread), hread, ofAscii_of_ne_nil hs, hmeant, if_neg Bool.false_ne_true]

/-- The host is no name with a code that is too long to be read. -/
def IsLegible (h : Host) : Prop := ∀ d, h = .name d → Domain.Fits d

/-- A host of a well-known scheme is read back, if its codes are not too long to be read. -/
theorem parse_text (hread : parse s = .ok h) (hlegible : h.IsLegible) : parse h.text = .ok h := by
  rcases parse_cases hread with ⟨ps, hps, rfl⟩ | ⟨n, hn, rfl⟩ | ⟨d, hd, hne, hmeant, rfl⟩
  · exact readAs_wideAddress true hps
  · exact parse_address hn
  · show parse d = .ok (.name d)
    rw [parse_of_isPlain (Domain.isPlain_of_toAscii hd), Domain.toAscii_encode hd (hlegible d rfl), ofAscii_of_ne_nil hne,
      hmeant, if_neg Bool.false_ne_true]

/-- A name with a code that is too long is refused. -/
theorem parse_text_of_not_isLegible (hread : parse s = .ok h) (hlegible : ¬ h.IsLegible) :
    parse h.text = .error .badDomain := by
  rcases parse_cases hread with ⟨ps, -, rfl⟩ | ⟨n, -, rfl⟩ | ⟨d, hd, -, -, rfl⟩
  · exact absurd (fun d heq => by cases heq) hlegible
  · exact absurd (fun d heq => by cases heq) hlegible
  · have hfits : ¬ Domain.Fits d := fun hfits => hlegible fun d' heq => Host.name.inj heq ▸ hfits
    show parse d = _
    rw [parse_of_isPlain (Domain.isPlain_of_toAscii hd), Domain.toAscii_encode_eq_none hd hfits]
    rfl

/-! ### Other schemes -/

/-- A host of another scheme is an address of eight pieces or a text. -/
theorem parseAny_cases (hread : parseAny s = .ok h) : (∃ ps, WideAddress.IsPieces ps ∧ h = .wideAddress ps) ∨
    ∃ d, IsPlain isControl d ∧ d.any isForbidden = false ∧ h = .name d := by
  unfold parseAny at hread
  split at hread
  · exact .inl (exists_of_bracketed hread)
  · split at hread
    · cases hread
    next hforbidden =>
    cases hread
    refine .inr ⟨_, isPlain_percentEncode isControl_of_isCodeChar s, List.any_eq_false.mpr fun c hc => ?_, rfl⟩
    rcases mem_of_mem_percentEncode hc with ⟨hmem, -⟩ | hcode
    · exact List.any_eq_false.mp (Bool.eq_false_iff.mpr hforbidden) c hmem
    · exact forall_isCodeChar (p := fun c => ¬ isForbidden c = true) (by decide) (by decide) c hcode

theorem stands_of_parseAny (hread : parseAny s = .ok h) : Stands false h.text := by
  rcases parseAny_cases hread with ⟨ps, -, rfl⟩ | ⟨d, hplain, hforbidden, rfl⟩
  · exact WideAddress.stands_text ps
  · exact stands_of_forall fun c hc => isHostChar_of_isControl (hplain c hc).1 (hplain c hc).2
      (Bool.eq_false_iff.mpr (List.any_eq_false.mp hforbidden c hc))

/-- A host of another scheme is read back. -/
theorem parseAny_text (hread : parseAny s = .ok h) : parseAny h.text = .ok h := by
  rcases parseAny_cases hread with ⟨ps, hps, rfl⟩ | ⟨d, hplain, hforbidden, rfl⟩
  · exact readAs_wideAddress false hps
  · show parseAny d = .ok (.name d)
    unfold parseAny
    split
    · next r =>
      rw [List.any_cons] at hforbidden
      cases hforbidden
    · rw [hforbidden, if_neg Bool.false_ne_true, percentEncode_of_isPlain hplain]

end Host

end MediaBackup.Url
