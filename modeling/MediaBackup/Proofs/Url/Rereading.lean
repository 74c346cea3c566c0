import MediaBackup.Proofs.Url.Settled

/-
  URLs are read back.

  The text of a URL of settled parts is read part by part, and each part is found where it was put: the host up to what
  ends one, the port, and the path, which is set apart where it would look like a host (`readAfter_text`).  Two things can
  go wrong, a host that is not read back (`readAfter_text_of_error`) and a drive behind the host of a file
  (`readFile_of_isDrive`).
-/

namespace MediaBackup.Url

variable {scheme : String} {s rest tail : List Char} {h : Host} {port : Option Nat} {segments : List (List Char)}
  {wellKnown : Bool} {c : Char}

/-! ## The text that counts -/

/-- Everything counts in a text of visible characters and of blanks inside. -/
theorem cleaned_of_visible (hfirst : ∀ c ∈ s.head?, 0x20 < c.toNat) (hlast : ∀ c ∈ s.getLast?, 0x20 < c.toNat)
    (hall : ∀ c ∈ s, 0x20 ≤ c.toNat) : cleaned s = s := by
  have hstays (t : List Char) (ht : ∀ c ∈ t.head?, 0x20 < c.toNat) : t.dropWhile (fun c => decide (c.toNat ≤ 0x20)) = t := by
    cases t with
    | nil => rfl
    | cons c t => exact List.dropWhile_cons_of_neg (by simpa using ht c rfl)
  have hkept : s.filter (fun c => !(['\t', '\n', '\r'].contains c)) = s := by
    refine List.filter_eq_self.mpr fun c hc => ?_
    have hc := hall c hc
    simp only [List.contains_eq_mem, List.mem_cons, List.not_mem_nil, or_false, Bool.not_eq_true', decide_eq_false_iff_not]
    rintro (rfl | rfl | rfl) <;> exact absurd hc (by decide)
  unfold cleaned
  dsimp only
  rw [hstays s hfirst, hstays s.reverse (by rwa [List.head?_reverse]), List.reverse_reverse, hkept]

theorem toNat_of_isSchemeChar (h : isSchemeChar c = true) : 0x20 < c.toNat ∧ c ≠ ':' := by
  have hascii := toNat_lt_of_isSchemeChar h
  revert h
  exact forall_ascii (p := fun c => isSchemeChar c = true → 0x20 < c.toNat ∧ c ≠ ':') (by decide) c hascii

theorem scheme?_append (hscheme : IsScheme scheme) (rest : List Char) :
    scheme? (scheme.toList ++ ':' :: rest) = some (scheme, rest) := by
  obtain ⟨c, r, hc⟩ := List.exists_cons_of_ne_nil hscheme.ne_nil
  have hchar : ∀ d ∈ r, isSchemeChar d = true := fun d hd => hscheme.char d (hc ▸ .tail _ hd)
  have halpha : c.isAlpha = true := hscheme.first c (by rw [hc]; rfl)
  have hlower : (c :: r).map Text.lowerAsciiChar = c :: r := by
    rw [← hc]
    exact (List.map_congr_left hscheme.lower).trans (List.map_id _)
  have hcolon : isSchemeChar ':' = false := by decide
  rw [hc, List.cons_append, scheme?]
  simp only [halpha, Bool.not_true, Bool.false_eq_true, if_false]
  rw [List.dropWhile_append_of_pos hchar, List.takeWhile_append_of_pos hchar, List.dropWhile_cons_of_neg (by simp [hcolon]),
    List.takeWhile_cons_of_neg (by simp [hcolon]), List.append_nil]
  rw [hlower, ← hc, String.ofList_toList]
  rfl

/-- A text from its scheme on is read behind the scheme. -/
theorem parse_ofList (hscheme : IsScheme scheme) (hall : ∀ c ∈ rest, 0x20 ≤ c.toNat)
    (hlast : ∀ c ∈ rest.getLast?, 0x20 < c.toNat) :
    parse (String.ofList (scheme.toList ++ ':' :: rest)) = readAfter scheme rest := by
  have hclean : cleaned (scheme.toList ++ ':' :: rest) = scheme.toList ++ ':' :: rest := by
    refine cleaned_of_visible (fun c hc => ?_) (fun c hc => ?_) fun c hc => ?_
    · rw [List.head?_append_of_ne_nil _ hscheme.ne_nil] at hc
      exact (toNat_of_isSchemeChar (hscheme.char c (List.mem_of_mem_head? hc))).1
    · rw [List.getLast?_append_of_ne_nil _ (List.cons_ne_nil _ _)] at hc
      cases rest with
      | nil =>
        cases hc
        decide
      | cons d r =>
        rw [List.getLast?_cons_cons] at hc
        exact hlast c hc
    · rcases List.mem_append.mp hc with hc | hc
      · exact Nat.le_of_lt (toNat_of_isSchemeChar (hscheme.char c hc)).1
      · rcases List.mem_cons.mp hc with rfl | hc
        · decide
        · exact hall c hc
  rw [parse, String.toList_ofList, hclean, scheme?_append hscheme]

/-! ## Behind a host -/

/-- A text that a path with segments has. -/
structure IsPathText (tail : List Char) : Prop where
  start : tail = [] ∨ ∃ r, tail = '/' :: r
  char : ∀ c ∈ tail, 0x20 < c.toNat ∧ c ≠ '?' ∧ c ≠ '#'

theorem isPathText_text (hpath : ∀ s ∈ segments, IsSegment wellKnown s) : IsPathText (Path.rooted segments).text := by
  refine ⟨?_, fun c hc => ?_⟩
  · cases segments with
    | nil => exact .inl rfl
    | cons s r => exact .inr ⟨_, rfl⟩
  · obtain ⟨s, hs, hc⟩ := List.mem_flatMap.mp hc
    rcases List.mem_cons.mp hc with rfl | hc
    · decide
    · obtain ⟨hascii, hplain⟩ := (hpath s hs).plain c hc
      exact forall_ascii (p := fun c => inPath c = false → 0x20 < c.toNat ∧ c ≠ '?' ∧ c ≠ '#') (by decide) c hascii hplain

/-- A text without a mark of what follows a path is all path. -/
theorem splitPath_of_forall (h : ∀ c ∈ s, c ≠ '?' ∧ c ≠ '#') : splitPath s = (s, []) := by
  have hgoes : ∀ c ∈ s, (c != '?' && c != '#') = true := fun c hc => by simpa using h c hc
  unfold splitPath
  dsimp only
  rw [List.takeWhile_eq_self_iff.mpr hgoes, List.dropWhile_eq_nil_iff.mpr hgoes]

theorem IsPathText.splitPath (htail : IsPathText tail) : splitPath tail = (tail, []) :=
  splitPath_of_forall fun c hc => (htail.char c hc).2

/-- A port in words. -/
def portText : Option Nat → List Char
  | some p => ':' :: Nat.toDigits 10 p
  | none => []

theorem portAt_portText (hport : IsPort scheme port) (htail : IsPathText tail) :
    portAt scheme (portText port ++ tail) = .ok (port, tail) := by
  cases port with
  | none =>
    show portAt scheme tail = _
    rcases htail.start with rfl | ⟨r, rfl⟩ <;> rfl
  | some p =>
    obtain ⟨hle, hnew⟩ := hport p rfl
    have hdigits : ∀ c ∈ Nat.toDigits 10 p, Char.isDigit c = true := fun c => Address.isDigit_of_mem_toDigits
    have hstop : tail.takeWhile Char.isDigit = [] ∧ tail.dropWhile Char.isDigit = tail := by
      rcases htail.start with rfl | ⟨r, rfl⟩
      · exact ⟨rfl, rfl⟩
      · exact ⟨rfl, rfl⟩
    show readPort scheme (Nat.toDigits 10 p ++ tail) = _
    unfold readPort
    dsimp only
    rw [List.takeWhile_append_of_pos hdigits, List.dropWhile_append_of_pos hdigits, hstop.1, hstop.2, List.append_nil,
      Address.digits?_toDigits 10 (by decide) (by decide), Option.getD_some, if_neg (Nat.not_lt.mpr hle),
      List.isEmpty_eq_false_iff.mpr Nat.toDigits_ne_nil]
    have hkept : (impliedPort scheme == some p) = false := beq_eq_false_iff_ne.mpr hnew
    rw [hkept]
    rcases htail.start with rfl | ⟨r, rfl⟩
    · rfl
    · rfl

/-! ## URLs with a host -/

theorem splitUser_text (hstands : Stands wellKnown s) (htail : IsPathText tail) :
    splitUser wellKnown (s ++ (portText port ++ tail)) = (none, s ++ (portText port ++ tail)) := by
  have hhost : ∀ c ∈ s, (!endsHost wellKnown c) = true := fun c hc => by simp [(hstands.char c hc).goesOn]
  have hport : ∀ c ∈ portText port, (!endsHost wellKnown c) = true ∧ c ≠ '@' := by
    cases port with
    | none => exact nofun
    | some p =>
      refine List.forall_mem_cons.mpr ⟨by cases wellKnown <;> decide, fun c hc => ?_⟩
      have hdigit := Address.isDigit_of_mem_toDigits hc
      have hascii : c.toNat < 0x80 := Nat.lt_of_le_of_lt (Char.isDigit_iff_toNat.mp hdigit).2 (by decide)
      revert hdigit
      cases wellKnown
      · exact forall_ascii (p := fun c => c.isDigit = true → (!endsHost false c) = true ∧ c ≠ '@') (by decide) c hascii
      · exact forall_ascii (p := fun c => c.isDigit = true → (!endsHost true c) = true ∧ c ≠ '@') (by decide) c hascii
  have hstop : tail.takeWhile (fun c => !endsHost wellKnown c) = [] := by
    rcases htail.start with rfl | ⟨r, rfl⟩ <;> rfl
  unfold splitUser
  dsimp only
  rw [List.takeWhile_append_of_pos hhost, List.takeWhile_append_of_pos fun c hc => (hport c hc).1, hstop, List.append_nil,
    if_neg]
  rw [List.contains_eq_mem, decide_eq_true_iff, List.mem_append, not_or]
  exact ⟨fun hc => (hstands.char _ hc).user rfl, fun hc => (hport _ hc).2 rfl⟩

theorem endsHere_portText (htail : IsPathText tail) : EndsHere wellKnown (portText port ++ tail) := by
  intro c hc
  cases port with
  | some p =>
    cases hc
    exact .inl rfl
  | none =>
    rcases htail.start with rfl | ⟨r, rfl⟩
    · cases hc
    · cases hc
      exact .inr rfl

/-- A host is found before what may follow one. -/
theorem hostAt_append (hhost : Host.readAs wellKnown h.text = .ok h) (hstands : Stands wellKnown h.text)
    (hne : wellKnown = true → h.text ≠ []) (hrest : EndsHere wellKnown rest)
    (hnameless : h = .name [] → rest.head? ≠ some ':') : hostAt wellKnown (h.text ++ rest) = .ok (h, rest) := by
  rw [hostAt_eq_ok_iff, hstands.size _ hrest, List.take_left, List.drop_left]
  exact ⟨fun ⟨hknown, hempty⟩ => hne hknown (List.isEmpty_iff.mp hempty), hhost,
    fun ⟨hname, hcolon⟩ => hnameless hname hcolon, rfl⟩

theorem IsPathText.head?_ne (htail : IsPathText tail) : tail.head? ≠ some ':' := by
  rcases htail.start with rfl | ⟨r, rfl⟩ <;> exact nofun

/-- What stands behind the slashes of a host is read part by part. -/
theorem readHost_eq {user : Option (List Char)} {t rest' : List Char}
    (huser : splitUser (isWellKnown scheme) s = (user, t)) (hempty : user ≠ some [])
    (hhost : hostAt (isWellKnown scheme) t = .ok (h, rest)) (hport : portAt scheme rest = .ok (port, rest'))
    (hname : h = .name [] → user = none) : readHost scheme s =
      .ok (withRest { plain scheme (some h) (readPath (isWellKnown scheme) (splitPath rest').1) with
        username := percentEncode inUserInfo ((user.getD []).takeWhile (· != ':'))
        password := percentEncode inUserInfo (((user.getD []).dropWhile (· != ':')).drop 1)
        port := port } (splitPath rest').2) := by
  unfold readHost
  dsimp only
  rw [huser]
  dsimp only
  rw [if_neg fun h => hempty h.1]
  refine bind_eq_ok_iff.mpr ⟨_, hhost, bind_eq_ok_iff.mpr ⟨_, hport, ?_⟩⟩
  dsimp only
  rw [if_neg]
  · rfl
  · rintro ⟨hname', huser⟩
    rw [hname hname'] at huser
    cases huser

/-- What stands behind the slashes of a host is read back. -/
theorem readHost_text (hhost : Host.readAs (isWellKnown scheme) h.text = .ok h)
    (hstands : Stands (isWellKnown scheme) h.text) (hne : isWellKnown scheme = true → h.text ≠ [])
    (hport : IsPort scheme port) (hnameless : h = .name [] → port = none) (htail : IsPathText tail) :
    readHost scheme (h.text ++ (portText port ++ tail)) =
      .ok { plain scheme (some h) (readPath (isWellKnown scheme) tail) with port := port } := by
  have hcolon : h = .name [] → (portText port ++ tail).head? ≠ some ':' := fun hname => hnameless hname ▸ htail.head?_ne
  rw [readHost_eq (splitUser_text hstands htail) nofun (hostAt_append hhost hstands hne (endsHere_portText htail) hcolon)
    (portAt_portText hport htail) fun _ => rfl, htail.splitPath]
  rfl

/-- A host that is no host makes the whole no URL. -/
theorem readHost_text_of_error {e : Fault} (hhost : Host.readAs (isWellKnown scheme) h.text = .error e)
    (hstands : Stands (isWellKnown scheme) h.text) (hne : h.text ≠ []) (htail : IsPathText tail) :
    readHost scheme (h.text ++ (portText port ++ tail)) = .error e := by
  have hat : hostAt (isWellKnown scheme) (h.text ++ (portText port ++ tail)) = .error e := by
    unfold hostAt
    dsimp only
    rw [hstands.size _ (endsHere_portText htail), List.take_left, List.drop_left,
      if_neg fun hempty => hne (List.isEmpty_iff.mp hempty.2), hhost]
    rfl
  unfold readHost
  dsimp only
  rw [splitUser_text hstands htail]
  dsimp only
  rw [if_neg (fun hnone => by cases hnone.1), hat]
  rfl

/-- What stands behind a well-known scheme is read part by part. -/
theorem readAfter_eq {text rest' : List Char} {user : Option (List Char)} (hknown : isWellKnown scheme = true)
    (hfile : scheme ≠ "file") (huser : splitUser true (text.dropWhile (isSlash true)) = (user, h.text ++ rest))
    (hempty : user ≠ some []) (hread : Host.parse h.text = .ok h) (hrest : EndsHere true rest)
    (hport : portAt scheme rest = .ok (port, rest')) : readAfter scheme text =
      .ok (withRest { plain scheme (some h) (readPath true (splitPath rest').1) with
        username := percentEncode inUserInfo ((user.getD []).takeWhile (· != ':'))
        password := percentEncode inUserInfo (((user.getD []).dropWhile (· != ':')).drop 1)
        port := port } (splitPath rest').2) := by
  have hname : h ≠ .name [] := Host.ne_nameless_of_parse hread
  have hat : hostAt true (h.text ++ rest) = .ok (h, rest) :=
    hostAt_append hread (Host.stands_of_parse hread) (fun _ => Host.text_ne_nil_of_parse hread) hrest fun heq => absurd heq hname
  rw [← hknown] at hat huser ⊢
  unfold readAfter
  rw [if_neg hfile, if_pos hknown, ← hknown, readHost_eq huser hempty hat hport fun heq => absurd heq hname]

/-! ## Files -/

/-- Between the slashes of a file the text of a host is read as one. -/
theorem fileHost_append (hread : Host.parse s = .ok h) {r : List Char} :
    fileHost ('/' :: '/' :: (h.text ++ '/' :: r)) =
      Host.parse h.text >>= fun host => .ok (if host = .name "localhost".toList then (.name [], '/' :: r) else (host, r)) := by
  have hslashes : (isSlash true '/' && isSlash true '/') = true := rfl
  have hstays : ∀ c ∈ h.text, (!endsHost true c) = true := fun c hc => by
    simp [((Host.stands_of_parse hread).char c hc).goesOn]
  have hstop : ('/' :: r).takeWhile (fun c => !endsHost true c) = [] := rfl
  unfold fileHost
  dsimp only
  rw [hslashes, if_pos rfl, List.takeWhile_append_of_pos hstays, hstop, List.append_nil, Host.isDrive_text hread,
    List.isEmpty_eq_false_iff.mpr (Host.text_ne_nil_of_parse hread), if_neg (by decide), List.drop_left]
  rfl

/-- The host of a file is read back.  Behind a host without a name the slash of the path is left over. -/
theorem fileHost_text (hhost : IsFileHost h) (hread : h ≠ .name [] → Host.parse h.text = .ok h) {r : List Char} :
    fileHost ('/' :: '/' :: (h.text ++ '/' :: r)) = .ok (h, if h = .name [] then '/' :: r else r) := by
  rcases hhost with rfl | ⟨⟨t, hfrom⟩, hlocal⟩
  · rfl
  · have hname : h ≠ .name [] := Host.ne_nameless_of_parse hfrom
    rw [fileHost_append hfrom, hread hname, if_neg hname]
    show Except.ok _ = _
    rw [if_neg hlocal]

/-- Behind a host with a name the text of the segments follows its slash. -/
theorem readFile_append (hhost : IsFileHost h) (hname : h ≠ .name []) (hread : Host.parse h.text = .ok h)
    {r : List Char} (hr : ∀ c ∈ r, c ≠ '?' ∧ c ≠ '#') :
    readFile ('/' :: '/' :: (h.text ++ '/' :: r)) = .ok (plain "file" (some (fileAt h r).1) (fileAt h r).2) := by
  refine bind_eq_ok_iff.mpr ⟨_, fileHost_text hhost fun _ => hread, ?_⟩
  dsimp only
  rw [if_neg hname, splitPath_of_forall hr]
  rfl

theorem fileSegments_text (hpath : IsFilePath segments) :
    ∃ r, (Path.rooted segments).text = '/' :: r ∧ fileSegments r = segments := by
  cases segments with
  | nil => exact absurd rfl hpath.ne_nil
  | cons first more => exact ⟨_, rfl, splitAll_text hpath.settled⟩

/-- Behind a slash that is left over no drive stands first, and the empty segment does not count. -/
theorem fileAt_slash (hpath : IsFilePath segments) {r : List Char} (hr : fileSegments r = segments) :
    fileAt (.name []) ('/' :: r) = (.name [], .rooted segments) := by
  have hsplit : fileSegments ('/' :: r) = [] :: segments := congrArg (List.cons []) hr
  have hplaced : placeSegments true [] ([] :: segments) = ([] :: segments).reverse :=
    (placeSegments_of_isSegment (List.forall_mem_cons.mpr ⟨isSegment_nil, hpath.settled⟩) fun _ _ => rfl).trans
      (List.append_nil _)
  have hempty : dropEmpty ([] :: segments) = segments := by
    obtain ⟨s, rest, rfl⟩ := List.exists_cons_of_ne_nil hpath.ne_nil
    exact hpath.full
  rw [fileAt, hsplit, hplaced, List.reverse_reverse, hempty, ite_self]

/-- The path of a file is read back, and its host with it unless a drive stands first. -/
theorem fileAt_text (hpath : IsFilePath segments) (hdrive : segments.head?.any isDrive = false) {r : List Char}
    (hr : fileSegments r = segments) : fileAt h r = (h, .rooted segments) := by
  rw [fileAt, hr, placeSegments_of_isSegment hpath.settled fun _ _ => hdrive, List.append_nil, List.reverse_reverse,
    hdrive, if_neg Bool.false_ne_true, hpath.full]

/-- A drive that stands first puts the host aside. -/
theorem fileAt_of_isDrive (hpath : IsFilePath segments) (hdrive : segments.head?.any isDrive = true) {r : List Char}
    (hr : fileSegments r = segments) : (fileAt h r).1 = .name [] := by
  obtain ⟨d, rest, rfl⟩ := List.exists_cons_of_ne_nil hpath.ne_nil
  obtain ⟨hd, hrest⟩ := List.forall_mem_cons.mp hpath.settled
  rw [List.head?_cons, Option.any_some] at hdrive
  have hplaced : placeSegments true [] (d :: rest) = rest.reverse ++ [d.take 1 ++ [':']] := by
    rw [placeSegments_cons, if_neg (by simp [hd.up]), if_neg (by simp [hd.here]),
      placeSegments_of_isSegment hrest fun _ hnil => absurd hnil (List.cons_ne_nil _ _), writeSegment, hdrive]
    rfl
  have hstays : isDrive (d.take 1 ++ [':']) = true := by
    unfold isDrive at hdrive
    split at hdrive
    · rw [Bool.and_eq_true] at hdrive
      simp [isDrive, hdrive.1]
    · cases hdrive
  rw [fileAt, hr, hplaced, List.reverse_append, List.reverse_reverse]
  exact if_pos hstays

/-! ## URLs without a host -/

/-- A path whose text would look like a host is set apart. -/
def apart : List (List Char) → List Char
  | [] :: _ :: _ => ['/', '.']
  | _ => []

theorem readPath_apart (hpath : ∀ s ∈ segments, IsSegment false s) :
    readPath false (apart segments ++ (Path.rooted segments).text) = .rooted segments := by
  unfold apart
  split
  · next second more =>
    have hsplit : Text.splitAll (isSlash false) ('.' :: (Path.rooted ([] :: second :: more)).text) =
        ['.'] :: [] :: second :: more := by
      have hpoint : ∀ c ∈ ['.'], isSlash false c = false := List.forall_mem_singleton.mpr rfl
      refine (splitAll_append_cons hpoint (d := '/') rfl _).trans ?_
      exact congrArg _ (splitAll_text hpath)
    show Path.rooted (placeSegments false [] (Text.splitAll (isSlash false)
      ('.' :: (Path.rooted ([] :: second :: more)).text))).reverse = _
    rw [hsplit, placeSegments_cons, if_neg (by decide), if_pos (by decide)]
    show Path.rooted (placeSegments false [] ([] :: second :: more)).reverse = _
    rw [placeSegments_of_isSegment hpath fun _ _ => rfl, List.append_nil, List.reverse_reverse]
  · exact readPath_text hpath nofun

theorem isPathText_apart (hpath : ∀ s ∈ segments, IsSegment false s) :
    IsPathText (apart segments ++ (Path.rooted segments).text) := by
  have htext := isPathText_text hpath
  unfold apart
  split
  · refine ⟨.inr ⟨_, rfl⟩, fun c hc => ?_⟩
    rcases List.mem_append.mp hc with hc | hc
    · rcases List.mem_cons.mp hc with rfl | hc
      · decide
      · rw [List.mem_singleton.mp hc]
        decide
    · exact htext.char c hc
  · exact htext

/-- Set apart, a path does not look like a host. -/
theorem apart_append (hpath : ∀ s ∈ segments, IsSegment false s) (hne : segments ≠ []) :
    ∃ r, apart segments ++ (Path.rooted segments).text = '/' :: r ∧ r.head? ≠ some '/' := by
  match segments, hne with
  | [] :: _ :: _, _ => exact ⟨_, rfl, nofun⟩
  | [[]], _ => exact ⟨[], rfl, nofun⟩
  | (c :: s) :: more, _ =>
    refine ⟨c :: s ++ (Path.rooted more).text, rfl, fun hc => ?_⟩
    have hslash := (hpath _ (.head _)).slash c (.head _)
    cases hc
    cases hslash

/-! ## All URLs -/

/-- A URL of these parts. -/
def ofParts (scheme : String) (host : Option Host) (port : Option Nat) (path : Path) : Url :=
  { plain scheme host path with port := port }

variable {host : Option Host} {path : Path}

/-- What stands behind the colon of a scheme. -/
def afterScheme (host : Option Host) (port : Option Nat) : Path → List Char
  | .rooted segments => match host with
    | some h => '/' :: '/' :: (h.text ++ (portText port ++ (Path.rooted segments).text))
    | none => apart segments ++ (Path.rooted segments).text
  | .bare s => s

/-- Behind the scheme of a file stand its host and, behind a slash, its segments. -/
theorem exists_afterScheme_eq (h : Host) (hpath : IsFilePath segments) : ∃ r, fileSegments r = segments ∧
    (∀ c ∈ r, c ≠ '?' ∧ c ≠ '#') ∧ afterScheme (some h) none (.rooted segments) = '/' :: '/' :: (h.text ++ '/' :: r) := by
  obtain ⟨r, htext, hr⟩ := fileSegments_text hpath
  have hplain := isPathText_text hpath.settled
  rw [htext] at hplain
  exact ⟨r, hr, fun c hc => (hplain.char c (.tail _ hc)).2, congrArg (fun tail => '/' :: '/' :: (h.text ++ tail)) htext⟩

theorem authority_some (h : Host) : (ofParts scheme (some h) port path).authority = '/' :: '/' :: (h.text ++ portText port) := by
  show ['/', '/'] ++ [] ++ h.text ++ portText port = _
  rw [List.append_nil, List.append_assoc]
  rfl

theorem authority_none : (ofParts scheme none port (.rooted segments)).authority = apart segments := by
  unfold authority apart
  dsimp only [ofParts, plain]
  split <;> split <;> simp_all

theorem text_ofParts (hparts : Settled scheme host port path) :
    (ofParts scheme host port path).text = String.ofList (scheme.toList ++ ':' :: afterScheme host port path) := by
  have htext : (ofParts scheme host port path).text =
      String.ofList (scheme.toList ++ ':' :: (ofParts scheme host port path).authority ++ path.text ++ [] ++ []) := rfl
  have hstem : (ofParts scheme host port path).authority ++ path.text = afterScheme host port path := by
    have hhost (h : Host) (port : Option Nat) (segments : List (List Char)) :
        (ofParts scheme (some h) port (.rooted segments)).authority ++ (Path.rooted segments).text =
          afterScheme (some h) port (.rooted segments) := by
      rw [authority_some, List.cons_append, List.cons_append, List.append_assoc]
      rfl
    cases hparts with
    | file => exact hhost _ _ _
    | wellKnown => exact hhost _ _ _
    | other => exact hhost _ _ _
    | rooted => exact congrArg (· ++ _) authority_none
    | bare => rfl
  rw [htext, List.append_nil, List.append_nil, List.append_assoc, List.cons_append, hstem]

/-- The host of a well-known scheme is read back. -/
def IsHostReadBack (scheme : String) (host : Option Host) : Prop :=
  ∀ h ∈ host, isWellKnown scheme = true → h ≠ .name [] → Host.parse h.text = .ok h

/-- No drive stands behind the host of a file. -/
def IsDriveless (scheme : String) (host : Option Host) (path : Path) : Prop :=
  scheme = "file" → host = some (.name []) ∨ ∀ segments, path = .rooted segments → segments.head?.any isDrive = false

/-- Behind the slashes of a well-known scheme stands the host. -/
theorem dropWhile_afterScheme (hstands : Stands true h.text) (hne : h.text ≠ []) :
    (afterScheme (some h) port (.rooted segments)).dropWhile (isSlash true) =
      h.text ++ (portText port ++ (Path.rooted segments).text) := by
  obtain ⟨c, r, hc⟩ := List.exists_cons_of_ne_nil hne
  have hslash : ¬ isSlash true c = true := by
    have hgoes := (hstands.char c (hc ▸ .head _)).goesOn
    simp only [endsHost, Bool.or_eq_false_iff] at hgoes
    simp [isSlash, hgoes.1.1.1, hgoes.2]
  rw [afterScheme, List.dropWhile_cons_of_pos rfl, List.dropWhile_cons_of_pos rfl, hc, List.cons_append,
    List.dropWhile_cons_of_neg hslash]

theorem ne_file_of_isWellKnown (h : isWellKnown scheme = false) : scheme ≠ "file" := by
  rintro rfl
  cases h

theorem readFile_afterScheme (hfile : IsFileHost h) (hpath : IsFilePath segments)
    (hread : h ≠ .name [] → Host.parse h.text = .ok h)
    (hdrive : h = .name [] ∨ segments.head?.any isDrive = false) :
    readFile (afterScheme (some h) none (.rooted segments)) = .ok (plain "file" (some h) (.rooted segments)) := by
  obtain ⟨r, hr, hplain, hback⟩ := exists_afterScheme_eq h hpath
  rw [hback]
  -- without a name the slash of the path is read as the end of an empty first segment
  by_cases hname : h = .name []
  · subst hname
    refine bind_eq_ok_iff.mpr ⟨_, fileHost_text hfile hread, ?_⟩
    dsimp only
    rw [if_pos rfl, splitPath_of_forall (List.forall_mem_cons.mpr ⟨by decide, hplain⟩)]
    dsimp only
    rw [fileAt_slash hpath hr]
    rfl
  · rw [readFile_append hfile hname (hread hname) hplain, fileAt_text hpath (hdrive.resolve_left hname) hr]

theorem readAfter_wellKnown (hknown : isWellKnown scheme = true) (hfile : scheme ≠ "file")
    (hread : Host.parse h.text = .ok h) (hport : IsPort scheme port) (hpath : ∀ s ∈ segments, IsSegment true s)
    (hne : segments ≠ []) :
    readAfter scheme (afterScheme (some h) port (.rooted segments)) = .ok (ofParts scheme (some h) port (.rooted segments)) := by
  have htext := Host.text_ne_nil_of_parse hread
  have hstands := Host.stands_of_parse hread
  have hname : h ≠ .name [] := Host.ne_nameless_of_parse hread
  have hback : Host.readAs (isWellKnown scheme) h.text = .ok h := by rwa [hknown]
  have hread := readHost_text hback (by rwa [hknown]) (fun _ => htext) hport (fun h => absurd h hname)
    (isPathText_text hpath)
  unfold readAfter
  rw [if_neg hfile, if_pos hknown, dropWhile_afterScheme hstands htext, hread, hknown, readPath_text hpath fun _ => hne]
  rfl

theorem readAfter_other {t : List Char} (hunknown : isWellKnown scheme = false) (hread : Host.parseAny t = .ok h)
    (hport : IsPort scheme port) (hnameless : h = .name [] → port = none) (hpath : ∀ s ∈ segments, IsSegment false s) :
    readAfter scheme (afterScheme (some h) port (.rooted segments)) = .ok (ofParts scheme (some h) port (.rooted segments)) := by
  have hstands := Host.stands_of_parseAny hread
  have hback : Host.readAs (isWellKnown scheme) h.text = .ok h := by
    rw [hunknown]
    exact Host.parseAny_text hread
  have hread := readHost_text hback (by rwa [hunknown]) (fun h => by rw [hunknown] at h; cases h) hport hnameless
    (isPathText_text hpath)
  unfold readAfter
  rw [if_neg (ne_file_of_isWellKnown hunknown), hunknown, if_neg Bool.false_ne_true]
  show readHost scheme (h.text ++ (portText port ++ (Path.rooted segments).text)) = _
  rw [hread, hunknown, readPath_text hpath nofun]
  rfl

theorem readAfter_rooted (hunknown : isWellKnown scheme = false) (hpath : ∀ s ∈ segments, IsSegment false s)
    (hne : segments ≠ []) : readAfter scheme (afterScheme none none (.rooted segments)) =
      .ok (ofParts scheme none none (.rooted segments)) := by
  obtain ⟨r, htext, hr⟩ := apart_append hpath hne
  have hsplit := (isPathText_apart hpath).splitPath
  have hback := readPath_apart hpath
  rw [htext] at hsplit hback
  unfold readAfter
  rw [if_neg (ne_file_of_isWellKnown hunknown), hunknown, if_neg Bool.false_ne_true, afterScheme, htext]
  -- the path was set apart if need be, so it starts with one slash and not with two
  split
  · next heq =>
    cases heq
    exact absurd rfl hr
  · rw [hsplit]
    dsimp only
    rw [hback]
    rfl
  · next hslash => exact absurd rfl (hslash r)

theorem readAfter_bare {t : List Char} (hunknown : isWellKnown scheme = false) (htext : IsBare t) :
    readAfter scheme t = .ok (ofParts scheme none none (.bare t)) := by
  unfold readAfter
  rw [if_neg (ne_file_of_isWellKnown hunknown), hunknown, if_neg Bool.false_ne_true]
  split
  · exact absurd rfl htext.head
  · exact absurd rfl htext.head
  · rw [splitPath_of_forall htext.goesOn]
    dsimp only
    rw [percentEncode_of_isPlain htext.plain]
    rfl

/-- What stands behind a scheme is read back. -/
theorem readAfter_text (hparts : Settled scheme host port path) (hhost : IsHostReadBack scheme host)
    (hdrive : IsDriveless scheme host path) :
    readAfter scheme (afterScheme host port path) = .ok (ofParts scheme host port path) := by
  cases hparts with
  | file hscheme hfile hpath =>
    subst hscheme
    have hdrive := (hdrive rfl).imp Option.some.inj fun hdrive => hdrive _ rfl
    exact readFile_afterScheme hfile hpath (hhost _ rfl rfl) hdrive
  | wellKnown hknown hfile hread hport hpath hne =>
    obtain ⟨t, hread⟩ := hread
    exact readAfter_wellKnown hknown hfile (hhost _ rfl hknown (Host.ne_nameless_of_parse hread)) hport hpath hne
  | other hunknown hread hport hnameless hpath =>
    obtain ⟨t, hread⟩ := hread
    exact readAfter_other hunknown hread hport hnameless hpath
  | rooted hunknown hpath hne => exact readAfter_rooted hunknown hpath hne
  | bare hunknown htext => exact readAfter_bare hunknown htext

/-- A host that is not read back makes the whole no URL. -/
theorem readAfter_text_of_error (hparts : Settled scheme (some h) port path) (hknown : isWellKnown scheme = true)
    (hname : h ≠ .name []) {e : Fault} (herror : Host.parse h.text = .error e) :
    readAfter scheme (afterScheme (some h) port path) = .error e := by
  cases hparts with
  | @file _ segments hscheme hfile hpath =>
    subst hscheme
    obtain ⟨t, hfrom⟩ := (hfile.resolve_left hname).1
    obtain ⟨r, -, -, hback⟩ := exists_afterScheme_eq h hpath
    have hstart : fileHost (afterScheme (some h) none (.rooted segments)) = .error e := by
      rw [hback, fileHost_append hfrom, herror]
      rfl
    show readFile (afterScheme (some h) none (.rooted segments)) = _
    unfold readFile
    rw [hstart]
    rfl
  | wellKnown _ hfile hfrom hport hpath hne =>
    obtain ⟨t, hfrom⟩ := hfrom
    have hstands := Host.stands_of_parse hfrom
    have htext := Host.text_ne_nil_of_parse hfrom
    have herror : Host.readAs (isWellKnown scheme) h.text = .error e := by rwa [hknown]
    unfold readAfter
    rw [if_neg hfile, if_pos hknown, dropWhile_afterScheme hstands htext]
    exact readHost_text_of_error herror (by rwa [hknown]) htext (isPathText_text hpath)
  | other hunknown =>
    rw [hunknown] at hknown
    cases hknown

/-- A drive that stands first behind a host puts the host aside. -/
theorem readFile_of_isDrive (hfile : IsFileHost h) (hname : h ≠ .name []) (hread : Host.parse h.text = .ok h)
    (hpath : IsFilePath segments) (hdrive : segments.head?.any isDrive = true) :
    ∃ path, readFile (afterScheme (some h) none (.rooted segments)) = .ok (plain "file" (some (.name [])) path) := by
  obtain ⟨r, hr, hplain, hback⟩ := exists_afterScheme_eq h hpath
  refine ⟨(fileAt h r).2, ?_⟩
  rw [hback, readFile_append hfile hname hread hplain, fileAt_of_isDrive hpath hdrive hr]

end MediaBackup.Url
