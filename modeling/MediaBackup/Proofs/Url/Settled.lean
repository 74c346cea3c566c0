import MediaBackup.Log.Redact
import MediaBackup.Proofs.Url.Host

/-
  What a URL that was read is made of.

  Reading settles each part of a URL: the scheme is in small letters, the host was read as one, the port fits and is not
  the one that is implied, and the path has settled segments or is a bare text (`IsRead`).  Only a URL with a place for a
  user has one, so that what cannot be taken out of a URL is not in it.
-/

namespace MediaBackup.Url

theorem bind_eq_ok_iff {ε α β : Type} {x : Except ε α} {f : α → Except ε β} {b : β} :
    (x >>= f) = .ok b ↔ ∃ a, x = .ok a ∧ f a = .ok b := by
  cases x with
  | error e => exact ⟨nofun, nofun⟩
  | ok a => exact ⟨fun h => ⟨a, rfl, h⟩, fun ⟨_, ha, h⟩ => by cases ha; exact h⟩

variable {scheme : String} {s t : List Char} {u : Url} {h : Host} {segments : List (List Char)}

/-! ## The parts -/

/-- A scheme as URLs keep it. -/
structure IsScheme (scheme : String) : Prop where
  first : ∀ c ∈ scheme.toList.head?, c.isAlpha = true
  ne_nil : scheme.toList ≠ []
  char : ∀ c ∈ scheme.toList, isSchemeChar c = true
  lower : ∀ c ∈ scheme.toList, Text.lowerAsciiChar c = c

/-- A port as URLs keep it: one that fits and is not implied. -/
def IsPort (scheme : String) (port : Option Nat) : Prop := ∀ p ∈ port, p ≤ lastPort ∧ impliedPort scheme ≠ some p

/-- The text of a bare path. -/
structure IsBare (t : List Char) : Prop where
  plain : IsPlain isControl t
  head : t.head? ≠ some '/'
  goesOn : ∀ c ∈ t, c ≠ '?' ∧ c ≠ '#'

/-- The host of a file. -/
def IsFileHost (h : Host) : Prop := h = .name [] ∨ (∃ t, Host.parse t = .ok h) ∧ h ≠ .name "localhost".toList

/-- The parts that go together in a URL. -/
inductive Settled (scheme : String) : Option Host → Option Nat → Path → Prop where
  | file {host : Host} {path : List (List Char)} (hscheme : scheme = "file") (hhost : IsFileHost host)
      (hpath : IsFilePath path) : Settled scheme (some host) none (.rooted path)
  | wellKnown {host : Host} {port : Option Nat} {path : List (List Char)} (hscheme : isWellKnown scheme = true)
      (hfile : scheme ≠ "file") (hhost : ∃ s, Host.parse s = .ok host) (hport : IsPort scheme port)
      (hpath : ∀ segment ∈ path, IsSegment true segment) (hne : path ≠ []) :
      Settled scheme (some host) port (.rooted path)
  | other {host : Host} {port : Option Nat} {path : List (List Char)} (hscheme : isWellKnown scheme = false)
      (hhost : ∃ s, Host.parseAny s = .ok host) (hport : IsPort scheme port) (hnameless : host = .name [] → port = none)
      (hpath : ∀ segment ∈ path, IsSegment false segment) : Settled scheme (some host) port (.rooted path)
  | rooted {path : List (List Char)} (hscheme : isWellKnown scheme = false)
      (hpath : ∀ segment ∈ path, IsSegment false segment) (hne : path ≠ []) : Settled scheme none none (.rooted path)
  | bare {text : List Char} (hscheme : isWellKnown scheme = false) (htext : IsBare text) :
      Settled scheme none none (.bare text)

/-- What holds of each URL that was read. -/
structure IsRead (u : Url) : Prop where
  scheme : IsScheme u.scheme
  parts : Settled u.scheme u.host u.port u.path
  user : u.takesUser = false → u.username = [] ∧ u.password = []

/-! ## Query and fragment -/

theorem withRest_eq (u : Url) (s : List Char) : ∃ query fragment,
    withRest u s = { u with query := query, fragment := fragment } := ⟨_, _, rfl⟩

/-! ## The scheme -/

theorem toNat_lt_of_isSchemeChar {c : Char} (h : isSchemeChar c = true) : c.toNat < 0x80 := by
  simp only [isSchemeChar, Bool.or_eq_true, beq_iff_eq, Char.isAlphanum] at h
  rcases h with (((h | h) | rfl) | rfl) | rfl
  · exact toNat_lt_of_isAlpha h
  · exact toNat_lt_of_isDigit h
  all_goals decide

theorem isSchemeChar_lowerAsciiChar {c : Char} (h : isSchemeChar c = true) :
    isSchemeChar (Text.lowerAsciiChar c) = true ∧ Text.lowerAsciiChar (Text.lowerAsciiChar c) = Text.lowerAsciiChar c ∧
      (c.isAlpha = true → (Text.lowerAsciiChar c).isAlpha = true) := by
  have hascii := toNat_lt_of_isSchemeChar h
  revert h
  exact forall_ascii (p := fun c => isSchemeChar c = true → isSchemeChar (Text.lowerAsciiChar c) = true ∧
    Text.lowerAsciiChar (Text.lowerAsciiChar c) = Text.lowerAsciiChar c ∧
      (c.isAlpha = true → (Text.lowerAsciiChar c).isAlpha = true)) (by decide) c hascii

theorem isScheme_of_scheme? {rest : List Char} (h : scheme? s = some (scheme, rest)) : IsScheme scheme := by
  cases s with
  | nil => cases h
  | cons c r =>
    rw [scheme?] at h
    split at h
    · cases h
    next halpha =>
    have halpha : c.isAlpha = true := by simpa using halpha
    split at h
    · cases h
      have hchar : ∀ d ∈ c :: r.takeWhile isSchemeChar, isSchemeChar d = true := by
        refine List.forall_mem_cons.mpr ⟨?_, fun d hd => List.mem_takeWhile_imp hd⟩
        simp [isSchemeChar, Char.isAlphanum, halpha]
      constructor
      · intro d hd
        rw [String.toList_ofList, List.map_cons, List.head?_cons, Option.mem_some_iff] at hd
        rw [← hd]
        exact (isSchemeChar_lowerAsciiChar (hchar c (.head _))).2.2 halpha
      · rw [String.toList_ofList]
        exact List.cons_ne_nil _ _
      · rw [String.toList_ofList]
        exact List.forall_mem_map.mpr fun d hd => (isSchemeChar_lowerAsciiChar (hchar d hd)).1
      · rw [String.toList_ofList]
        exact List.forall_mem_map.mpr fun d hd => (isSchemeChar_lowerAsciiChar (hchar d hd)).2.1
    · cases h

/-! ## Files -/

theorem isFileHost_of_fileHost {rest : List Char} (hread : fileHost s = .ok (h, rest)) : IsFileHost h := by
  unfold fileHost at hread
  split at hread
  · split at hread
    · dsimp only at hread
      split at hread
      · cases hread
        exact .inl rfl
      · obtain ⟨host, hhost, hread⟩ := bind_eq_ok_iff.mp hread
        split at hread
        · cases hread
          exact .inl rfl
        · next hlocal =>
          cases hread
          exact .inr ⟨⟨_, hhost⟩, hlocal⟩
    · cases hread
      exact .inl rfl
  · cases hread
    exact .inl rfl

theorem settled_fileAt (hh : IsFileHost h) (s : List Char) :
    Settled "file" (some (fileAt h s).1) none (fileAt h s).2 := by
  obtain ⟨settled, hpath, hsettled⟩ := exists_fileAt h s
  rw [hpath]
  refine .file rfl ?_ hsettled
  unfold fileAt
  dsimp only
  split
  · exact .inl rfl
  · exact hh

theorem isRead_of_readFile (hread : readFile s = .ok u) (hscheme : IsScheme "file") : IsRead u := by
  obtain ⟨⟨host, rest⟩, hhost, hread⟩ := bind_eq_ok_iff.mp hread
  cases hread
  obtain ⟨query, fragment, heq⟩ := withRest_eq
    (plain "file" (some (fileAt host (splitPath rest).1).1) (fileAt host (splitPath rest).1).2) (splitPath rest).2
  refine ⟨hscheme, settled_fileAt (isFileHost_of_fileHost hhost) _, fun _ => ⟨rfl, rfl⟩⟩

/-! ## Other schemes -/

theorem isPort_of_readPort {rest rest' : List Char} {port : Option Nat} (hread : readPort scheme rest = .ok (port, rest')) :
    IsPort scheme port := by
  unfold readPort at hread
  dsimp only at hread
  have hport (digits : List Char) (n : Nat) (hn : ¬ lastPort < n) :
      IsPort scheme (if digits.isEmpty || impliedPort scheme == some n then none else some n) := by
    intro p hp
    split at hp
    · cases hp
    · next hnew =>
      cases hp
      simp only [Bool.or_eq_true, beq_iff_eq, not_or] at hnew
      exact ⟨Nat.not_lt.mp hn, hnew.2⟩
  split at hread
  · cases hread
  next hlast =>
  split at hread
  · split at hread
    · cases hread
    · cases hread
      exact hport _ _ hlast
  · cases hread
    exact hport _ _ hlast

/-- What is read before the path of a URL with a host. -/
theorem hostAt_eq_ok_iff {wellKnown : Bool} {rest : List Char} : hostAt wellKnown s = .ok (h, rest) ↔
    ¬ (wellKnown ∧ (s.take (hostSize wellKnown false s)).isEmpty) ∧
      Host.readAs wellKnown (s.take (hostSize wellKnown false s)) = .ok h ∧
      ¬ (h = .name [] ∧ rest.head? = some ':') ∧ rest = s.drop (hostSize wellKnown false s) := by
  unfold hostAt
  dsimp only
  constructor
  · intro hread
    split at hread
    · cases hread
    next hempty =>
    obtain ⟨host, hhost, hread⟩ := bind_eq_ok_iff.mp hread
    split at hread
    · cases hread
    next hport =>
    cases hread
    exact ⟨hempty, hhost, hport, rfl⟩
  · rintro ⟨hempty, hhost, hport, rfl⟩
    rw [if_neg hempty]
    refine bind_eq_ok_iff.mpr ⟨h, hhost, ?_⟩
    rw [if_neg hport]
    rfl

theorem isPort_of_portAt {rest rest' : List Char} {port : Option Nat} (hread : portAt scheme rest = .ok (port, rest')) :
    IsPort scheme port ∧ (rest.head? ≠ some ':' → port = none) := by
  unfold portAt at hread
  split at hread
  · exact ⟨isPort_of_readPort hread, fun hcolon => absurd rfl hcolon⟩
  · cases hread
    exact ⟨nofun, fun _ => rfl⟩

theorem isRead_of_readHost (hread : readHost scheme s = .ok u) (hscheme : IsScheme scheme) (hfile : scheme ≠ "file") :
    IsRead u := by
  unfold readHost at hread
  dsimp only at hread
  split at hread
  · cases hread
  obtain ⟨⟨host, rest⟩, hhost, hread⟩ := bind_eq_ok_iff.mp hread
  obtain ⟨⟨port, rest'⟩, hport, hread⟩ := bind_eq_ok_iff.mp hread
  dsimp only at hread
  split at hread
  · cases hread
  next huser =>
  cases hread
  obtain ⟨-, hhost, hnameless, -⟩ := hostAt_eq_ok_iff.mp hhost
  obtain ⟨hport, hnone⟩ := isPort_of_portAt hport
  have hnameless : host = .name [] → port = none := fun hname => hnone fun hcolon => hnameless ⟨hname, hcolon⟩
  obtain ⟨segments, hpath, hsegments, hne⟩ := exists_readPath (isWellKnown scheme) (splitPath rest').1
  refine ⟨hscheme, ?_, fun htakes => ?_⟩
  · show Settled scheme (some host) port (readPath (isWellKnown scheme) (splitPath rest').1)
    rw [hpath]
    cases hknown : isWellKnown scheme with
    | true =>
      rw [hknown] at hhost hsegments hne
      exact .wellKnown hknown hfile ⟨_, hhost⟩ hport hsegments (hne (.inl rfl))
    | false =>
      rw [hknown] at hhost hsegments
      exact .other hknown ⟨_, hhost⟩ hport hnameless hsegments
  · -- only a host without a name takes no user, and then there is none
    have hname : host = .name [] := by
      have htakes : (((some host).filter (· != .name [])).isSome && scheme != "file") = false := htakes
      simpa [hfile, Option.filter_some, bne_iff_ne] using htakes
    have hempty := not_and.mp huser hname
    simp only [Bool.not_eq_true', decide_eq_false_iff_not, not_not, List.isEmpty_iff] at hempty
    exact ⟨congrArg (percentEncode inUserInfo) hempty.1, congrArg (percentEncode inUserInfo) hempty.2⟩

theorem isBare_percentEncode (hslash : ∀ r, s ≠ '/' :: r) : IsBare (percentEncode isControl (splitPath s).1) := by
  refine ⟨isPlain_percentEncode isControl_of_isCodeChar _, fun h => ?_, fun c hc => ?_⟩
  · rcases head?_percentEncode h with hcode | hhead
    · cases hcode
    · cases s with
      | nil => cases hhead
      | cons c r =>
        have hc : c = '/' := by
          rw [splitPath] at hhead
          dsimp only at hhead
          rw [List.takeWhile_cons] at hhead
          split at hhead
          · cases hhead
            rfl
          · cases hhead
        exact hslash r (hc ▸ rfl)
  · rcases mem_of_mem_percentEncode hc with ⟨hmem, -⟩ | hcode
    · simpa using List.mem_takeWhile_imp hmem
    · exact forall_isCodeChar (p := fun c => c ≠ '?' ∧ c ≠ '#') (by decide) (by decide) c hcode

theorem isRead_of_readAfter {rest : List Char} (hread : readAfter scheme rest = .ok u) (hscheme : IsScheme scheme) :
    IsRead u := by
  unfold readAfter at hread
  split at hread
  · next hfile => exact isRead_of_readFile hread (hfile ▸ hscheme)
  next hfile =>
  split at hread
  · exact isRead_of_readHost hread hscheme hfile
  next hknown =>
  have hknown : isWellKnown scheme = false := Bool.eq_false_iff.mpr hknown
  split at hread
  · exact isRead_of_readHost hread hscheme hfile
  · next tail _ =>
    cases hread
    obtain ⟨segments, hpath, hsegments, hne⟩ := exists_readPath (isWellKnown scheme) (splitPath ('/' :: tail)).1
    refine ⟨hscheme, ?_, fun _ => ⟨rfl, rfl⟩⟩
    show Settled scheme none none (readPath (isWellKnown scheme) (splitPath ('/' :: tail)).1)
    rw [hpath]
    rw [hknown] at hsegments
    exact .rooted hknown hsegments (hne (.inr (List.cons_ne_nil _ _)))
  · next hslash =>
    cases hread
    exact ⟨hscheme, .bare hknown (isBare_percentEncode hslash), fun _ => ⟨rfl, rfl⟩⟩

/-- Whatever is read is settled. -/
theorem isRead_of_parse {text : String} (hread : parse text = .ok u) : IsRead u := by
  unfold parse at hread
  split at hread
  · cases hread
  · next hscheme => exact isRead_of_readAfter hread (isScheme_of_scheme? hscheme)

end MediaBackup.Url
