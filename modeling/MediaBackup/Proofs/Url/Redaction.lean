import Mathlib.Data.List.DropRight
import MediaBackup.Config.Setup
import MediaBackup.Proofs.Url.Rereading
import MediaBackup.Upload.Settings

/-
  What is left of a URL in a log.

  Taking parts out of a URL never fails where there is something to take out, so what is left are scheme, host, port and
  path (`IsRead.redacted_eq`), and endpoints that agree on these look the same in a log (`Endpoint.Alike`).  What is left
  is a URL again, and stripping it again changes nothing just if its host is read back and stays
  (`redactText_redactText_eq_iff`).
-/

namespace MediaBackup.Url

variable {scheme : String} {host : Option Host} {port : Option Nat} {path : Path} {u : Url} {h : Host} {c : Char}
  {segments : List (List Char)} {s : String}

/-! ## What is left -/

theorem Path.atEnd_atEnd (p : Path) : p.atEnd.atEnd = p.atEnd := by
  cases p with
  | rooted => rfl
  | bare s => exact congrArg Path.bare (List.rdropWhile_idempotent _ s)

/-- Parts of a user are there to be taken out just where a URL has a place for them. -/
theorem withoutUsername?_eq_none_iff : u.withoutUsername? = none ↔ u.takesUser = false := by
  unfold withoutUsername?
  split <;> simp_all

theorem withoutPassword?_eq_none_iff : u.withoutPassword? = none ↔ u.takesUser = false := by
  unfold withoutPassword?
  split <;> simp_all

theorem withoutUsername_getD (hu : u.takesUser = false → u.username = []) :
    u.withoutUsername?.getD u = { u with username := [] } := by
  unfold withoutUsername?
  split
  · rfl
  · next htakes =>
    rw [← hu (Bool.eq_false_iff.mpr htakes)]
    rfl

theorem withoutPassword_getD (hu : u.takesUser = false → u.password = []) :
    u.withoutPassword?.getD u = { u with password := [] } := by
  unfold withoutPassword?
  split
  · rfl
  · next htakes =>
    rw [← hu (Bool.eq_false_iff.mpr htakes)]
    rfl

theorem withoutQuery_withoutFragment (u : Url) :
    u.withoutQuery.withoutFragment = { u with query := none, fragment := none, path := u.path.atEnd } := by
  obtain ⟨scheme, username, password, host, port, path, query, fragment⟩ := u
  cases fragment with
  | some f => rfl
  | none =>
    show Url.mk scheme username password host port path.atEnd.atEnd none none = _
    rw [Path.atEnd_atEnd]

/-- Of a URL that was read, scheme, host, port and path are left. -/
theorem IsRead.redacted_eq (hu : IsRead u) : u.redacted = ofParts u.scheme u.host u.port u.path.atEnd := by
  have hpassword : ({ u with username := [] } : Url).takesUser = false → u.password = [] := fun h => (hu.user h).2
  unfold redacted
  dsimp only
  rw [withoutUsername_getD fun h => (hu.user h).1, withoutPassword_getD hpassword, withoutQuery_withoutFragment]
  rfl

/-- What is logged of a URL. -/
theorem redactText_eq (hread : parse s = .ok u) : redactText s = (ofParts u.scheme u.host u.port u.path.atEnd).text := by
  rw [redactText, hread]
  exact congrArg Url.text (isRead_of_parse hread).redacted_eq

theorem redactText_of_error {e : Fault} (hread : parse s = .error e) : redactText s = unreadable := by
  rw [redactText, hread]

/-! ## What is left is read back -/

theorem IsBare.rdropWhile {t : List Char} (ht : IsBare t) (p : Char → Bool) : IsBare (t.rdropWhile p) := by
  have hfront : t.rdropWhile p <+: t := List.rdropWhile_prefix p t
  refine ⟨ht.plain.sublist hfront.sublist, fun hslash => ?_, fun c hc => ht.goesOn c (hfront.subset hc)⟩
  obtain ⟨r, hr⟩ := hfront
  cases hstart : t.rdropWhile p with
  | nil =>
    rw [hstart] at hslash
    cases hslash
  | cons c q =>
    rw [hstart] at hslash hr
    exact ht.head (hr ▸ hslash)

theorem Settled.atEnd (hparts : Settled scheme host port path) : Settled scheme host port path.atEnd := by
  cases hparts with
  | bare hunknown htext => exact .bare hunknown (htext.rdropWhile _)
  | file hscheme hhost hpath => exact .file hscheme hhost hpath
  | wellKnown hknown hfile hhost hport hpath hne => exact .wellKnown hknown hfile hhost hport hpath hne
  | other hunknown hhost hport hnameless hpath => exact .other hunknown hhost hport hnameless hpath
  | rooted hunknown hpath hne => exact .rooted hunknown hpath hne

theorem digitText_visible {p : Nat} (hc : c ∈ Nat.toDigits 10 p) : 0x20 < c.toNat :=
  Nat.lt_of_lt_of_le (by decide) (Char.isDigit_iff_toNat.mp (Address.isDigit_of_mem_toDigits hc)).1

theorem portText_visible (hc : c ∈ portText port) : 0x20 < c.toNat := by
  cases port with
  | none => cases hc
  | some p =>
    rcases List.mem_cons.mp hc with rfl | hc
    · decide
    · exact digitText_visible hc

theorem IsFileHost.visible (hhost : IsFileHost h) : ∀ c ∈ h.text, 0x20 < c.toNat := by
  rcases hhost with rfl | ⟨⟨t, hread⟩, -⟩
  · exact nofun
  · exact fun c hc => ((Host.stands_of_parse hread).char c hc).visible

/-- What stands behind a host or a slash is visible. -/
theorem visible_afterScheme (hparts : Settled scheme host port (.rooted segments)) :
    ∀ c ∈ afterScheme host port (.rooted segments), 0x20 < c.toNat := by
  have hhost {wellKnown : Bool} {h : Host} {port : Option Nat} (hh : ∀ c ∈ h.text, 0x20 < c.toNat)
      (hpath : ∀ s ∈ segments, IsSegment wellKnown s) :
      ∀ c ∈ afterScheme (some h) port (.rooted segments), 0x20 < c.toNat := by
    intro c hc
    rw [afterScheme, List.mem_cons, List.mem_cons, List.mem_append, List.mem_append] at hc
    rcases hc with rfl | rfl | hc | hc | hc
    · decide
    · decide
    · exact hh c hc
    · exact portText_visible hc
    · exact ((isPathText_text hpath).char c hc).1
  cases hparts with
  | file _ hfile hpath => exact hhost hfile.visible hpath.settled
  | wellKnown _ _ hread _ hpath _ =>
    obtain ⟨t, hread⟩ := hread
    exact hhost (fun c hc => ((Host.stands_of_parse hread).char c hc).visible) hpath
  | other _ hread _ _ hpath =>
    obtain ⟨t, hread⟩ := hread
    exact hhost (fun c hc => ((Host.stands_of_parseAny hread).char c hc).visible) hpath
  | rooted _ hpath _ => exact fun c hc => ((isPathText_apart hpath).char c hc).1

/-- A stripped URL in words is read from behind its scheme. -/
theorem parse_text (hscheme : IsScheme scheme) (hparts : Settled scheme host port path) :
    parse (ofParts scheme host port path.atEnd).text = readAfter scheme (afterScheme host port path.atEnd) := by
  rw [text_ofParts hparts.atEnd]
  cases hpath : path with
  | rooted segments =>
    rw [hpath] at hparts
    have hvisible := visible_afterScheme hparts
    exact parse_ofList hscheme (fun c hc => Nat.le_of_lt (hvisible c hc)) fun c hc => hvisible c (List.mem_of_getLast? hc)
  | bare t =>
    rw [hpath] at hparts
    cases hparts with
    | bare _ htext =>
    have hkept : ∀ c ∈ t.rdropWhile (· == ' '), 0x20 ≤ c.toNat := by
      intro c hc
      obtain ⟨hascii, hcontrol⟩ := (htext.rdropWhile _).plain c hc
      simp only [isControl, Bool.or_eq_false_iff, decide_eq_false_iff_not, Nat.not_lt] at hcontrol
      exact hcontrol.1
    refine parse_ofList hscheme hkept fun c hc => ?_
    have hne := List.ne_nil_of_mem (List.mem_of_getLast? hc)
    have hlast : ¬ ((t.rdropWhile (· == ' ')).getLast hne == ' ') = true := List.rdropWhile_last_not _ _ hne
    have hc' : (t.rdropWhile (· == ' ')).getLast hne = c := Option.some.inj ((List.getLast?_eq_getLast_of_ne_nil hne).symm.trans hc)
    rw [hc', beq_iff_eq] at hlast
    refine Nat.lt_of_le_of_ne (hkept c (List.mem_of_getLast? hc)) fun heq => hlast ?_
    exact Char.toNat_inj.mp heq.symm

/-! ## Again -/

/-- What is read back stays as it is when it is stripped once more. -/
theorem redactText_redactText_of_legible (hread : parse s = .ok u) (hhost : IsHostReadBack u.scheme u.host)
    (hdrive : IsDriveless u.scheme u.host u.path) : redactText (redactText s) = redactText s := by
  have hu := isRead_of_parse hread
  have hdrive : IsDriveless u.scheme u.host u.path.atEnd := by
    cases hpath : u.path with
    | rooted segments =>
      rw [hpath] at hdrive
      exact hdrive
    | bare t => exact fun _ => .inr fun segments heq => by cases heq
  have hback := (parse_text hu.scheme hu.parts).trans (readAfter_text hu.parts.atEnd hhost hdrive)
  rw [redactText_eq hread, redactText_eq hback]
  exact congrArg (fun path => (ofParts u.scheme u.host u.port path).text) (Path.atEnd_atEnd u.path)

theorem redactText_unreadable : redactText unreadable = unreadable := redactText_of_error (e := .relative) (by decide +kernel)

theorem toList_ofParts (hparts : Settled scheme host port path) :
    (ofParts scheme host port path).text.toList = scheme.toList ++ ':' :: afterScheme host port path := by
  rw [text_ofParts hparts, String.toList_ofList]

/-- No URL looks like what stands for a text that is none. -/
theorem text_ne_unreadable (hscheme : IsScheme scheme) (hparts : Settled scheme host port path) :
    (ofParts scheme host port path).text ≠ unreadable := by
  intro heq
  have hlist := congrArg String.toList heq
  obtain ⟨c, r, hc⟩ := List.exists_cons_of_ne_nil hscheme.ne_nil
  rw [toList_ofParts hparts, hc] at hlist
  have halpha := hscheme.first c (by rw [hc]; rfl)
  rw [(List.cons.inj hlist).1] at halpha
  cases halpha

/-- A host that is not read back is lost. -/
theorem redactText_redactText_ne_of_host (hread : parse s = .ok u) (hknown : isWellKnown u.scheme = true)
    (hh : u.host = some h) (hname : h ≠ .name []) {e : Fault} (herror : Host.parse h.text = .error e) :
    redactText (redactText s) ≠ redactText s := by
  have hu := isRead_of_parse hread
  have hparts := hu.parts.atEnd
  rw [hh] at hparts
  have hlost := readAfter_text_of_error hparts hknown hname herror
  rw [← hh] at hlost
  rw [redactText_eq hread, redactText_of_error ((parse_text hu.scheme hu.parts).trans hlost)]
  exact (text_ne_unreadable hu.scheme hu.parts.atEnd).symm

/-- A file without a host looks different from one that has one. -/
theorem text_ne_of_host {port' : Option Nat} {path' : Path} (hparts : Settled "file" (some h) port path)
    (hparts' : Settled "file" (some (.name [])) port' path') (hstands : Stands true h.text) (hne : h.text ≠ []) :
    (ofParts "file" (some (.name [])) port' path').text ≠ (ofParts "file" (some h) port path).text := by
  intro heq
  have hlist := congrArg String.toList heq
  rw [toList_ofParts hparts, toList_ofParts hparts'] at hlist
  obtain ⟨c, cs, hc⟩ := List.exists_cons_of_ne_nil hne
  have hgoes := (hstands.char c (hc ▸ .head _)).goesOn
  cases hparts with
  | wellKnown _ hfile => exact hfile rfl
  | other hunknown => cases hunknown
  | file =>
    cases hparts' with
    | wellKnown _ hfile => exact hfile rfl
    | other hunknown => cases hunknown
    | file _ _ hpath =>
      obtain ⟨r, htext, -⟩ := fileSegments_text hpath
      have hstem := (List.append_cancel_left hlist : ':' :: '/' :: '/' :: ([] ++ ([] ++ (Path.rooted _).text)) =
        ':' :: '/' :: '/' :: (h.text ++ ([] ++ (Path.rooted _).text)))
      rw [htext, hc] at hstem
      simp only [List.nil_append, List.cons_append, List.cons.injEq, true_and] at hstem
      rw [← hstem.1] at hgoes
      cases hgoes

/-- A drive behind the host of a file puts the host aside. -/
theorem redactText_redactText_ne_of_drive (hread : parse s = .ok u) (hscheme : u.scheme = "file")
    (hh : u.host = some h) (hname : h ≠ .name []) (hhost : Host.parse h.text = .ok h)
    (hpath : u.path = .rooted segments) (hdrive : segments.head?.any isDrive = true) :
    redactText (redactText s) ≠ redactText s := by
  have hu := isRead_of_parse hread
  have hparts := hu.parts
  have htext := parse_text hu.scheme hparts
  rw [redactText_eq hread]
  rw [hscheme, hh, hpath] at hparts htext ⊢
  generalize u.port = port at *
  -- read again, the URL has a path, but no host
  have haside : ∃ path, parse (ofParts "file" (some h) port (Path.rooted segments).atEnd).text =
      .ok (plain "file" (some (.name [])) path) := by
    cases hparts with
    | wellKnown _ hfile => exact absurd rfl hfile
    | other hunknown => cases hunknown
    | file _ hfile hsegments =>
      obtain ⟨path, hread⟩ := readFile_of_isDrive hfile hname hhost hsegments hdrive
      exact ⟨path, htext.trans hread⟩
  obtain ⟨path, haside⟩ := haside
  rw [redactText_eq haside]
  exact text_ne_of_host hparts.atEnd (isRead_of_parse haside).parts.atEnd (Host.stands_of_parse hhost)
    (Host.text_ne_nil_of_parse hhost)

/-! ## What is read back -/

/-- What is left of the URL is read back: its host has no code that is too long to be read, and no drive stands behind the
    host of a file. -/
structure IsReadBack (u : Url) : Prop where
  host : isWellKnown u.scheme = true → ∀ h ∈ u.host, h.IsLegible
  drive : IsDriveless u.scheme u.host u.path

/-- The host of a well-known scheme was read as one. -/
theorem Settled.exists_parse (hparts : Settled scheme (some h) port path) (hknown : isWellKnown scheme = true)
    (hname : h ≠ .name []) : ∃ t, Host.parse t = .ok h := by
  cases hparts with
  | file _ hfile => exact (hfile.resolve_left hname).1
  | wellKnown _ _ hread => exact hread
  | other hunknown =>
    rw [hunknown] at hknown
    cases hknown

theorem isLegible_nil : (Host.name []).IsLegible := by
  intro d hd l hl htag
  cases hd
  rw [List.mem_singleton.mp (hl : l ∈ [[]])] at htag
  cases List.prefix_nil.mp htag

theorem redactText_redactText_eq_iff (hread : parse s = .ok u) :
    redactText (redactText s) = redactText s ↔ IsReadBack u := by
  have hparts := (isRead_of_parse hread).parts
  constructor
  · intro hsame
    -- a host with a code that is too long makes the second text no URL
    have hhost : isWellKnown u.scheme = true → ∀ h ∈ u.host, h.IsLegible := by
      intro hknown h hh
      by_contra hlegible
      have hname : h ≠ .name [] := fun hname => hlegible (hname ▸ isLegible_nil)
      rw [hh] at hparts
      obtain ⟨t, hfrom⟩ := hparts.exists_parse hknown hname
      exact redactText_redactText_ne_of_host hread hknown hh hname (Host.parse_text_of_not_isLegible hfrom hlegible) hsame
    refine ⟨hhost, fun hfile => or_iff_not_imp_left.mpr fun hname segments hpath => ?_⟩
    by_contra hdrive
    -- files always have a host, be it one without a name
    obtain ⟨h, hh⟩ : ∃ h, u.host = some h := by
      generalize u.scheme = scheme, u.host = host, u.port = port, u.path = path at hparts hfile ⊢
      cases hparts with
      | file => exact ⟨_, rfl⟩
      | wellKnown => exact ⟨_, rfl⟩
      | other => exact ⟨_, rfl⟩
      | rooted hunknown => exact absurd hfile (ne_file_of_isWellKnown hunknown)
      | bare hunknown => exact absurd hfile (ne_file_of_isWellKnown hunknown)
    have hknown : isWellKnown u.scheme = true := hfile ▸ rfl
    have hname : h ≠ .name [] := fun heq => hname (hh.trans (congrArg some heq))
    rw [hh] at hparts
    obtain ⟨t, hfrom⟩ := hparts.exists_parse hknown hname
    exact redactText_redactText_ne_of_drive hread hfile hh hname (Host.parse_text hfrom (hhost hknown h hh)) hpath
      (Bool.eq_true_of_not_eq_false hdrive) hsame
  · intro hback
    refine redactText_redactText_of_legible hread (fun h hh hknown hname => ?_) hback.drive
    rw [hh] at hparts
    obtain ⟨t, hfrom⟩ := hparts.exists_parse hknown hname
    exact Host.parse_text hfrom (hback.host hknown h hh)

end MediaBackup.Url

/-! ## Endpoints -/

namespace MediaBackup

/-- A token is hidden whatever it is. -/
theorem Endpoint.shownToken_eq (token : Option String) :
    shownToken token = Text.quotedOption (token.map fun _ => Log.hidden) := by
  have hsecret : Log.isSecret "auth_token" = true := by decide +kernel
  cases token with
  | none => rfl
  | some token => exact congrArg (fun value => Text.quotedOption (some value)) (if_pos hsecret)

/-- Endpoints that may differ in secrets: in what their URLs have besides scheme, host, port and path, and in their
    tokens. -/
structure Endpoint.Alike (e e' : Endpoint) : Prop where
  url : ∃ u u', Url.parse e.url = .ok u ∧ Url.parse e'.url = .ok u' ∧
    u.scheme = u'.scheme ∧ u.host = u'.host ∧ u.port = u'.port ∧ u.path = u'.path
  token : e.authToken.isSome = e'.authToken.isSome
  field : e.formField = e'.formField

namespace Endpoint.Alike

variable {e e' : Endpoint}

theorem redactText_eq (h : e.Alike e') : Url.redactText e.url = Url.redactText e'.url := by
  obtain ⟨u, u', hu, hu', hscheme, hhost, hport, hpath⟩ := h.url
  rw [Url.redactText_eq hu, Url.redactText_eq hu', hscheme, hhost, hport, hpath]

theorem map_token (h : e.Alike e') : (e.authToken.map fun _ => Log.hidden) = e'.authToken.map fun _ => Log.hidden := by
  have htoken := h.token
  generalize e.authToken = token, e'.authToken = token' at htoken ⊢
  cases token <;> cases token' <;> first | rfl | cases htoken

theorem shown_eq (h : e.Alike e') : e.shown = e'.shown := by
  unfold Endpoint.shown
  rw [shownToken_eq, shownToken_eq, h.redactText_eq, h.map_token, h.field]

theorem uploads_shown_eq (h : e.Alike e') (settings : Settings) :
    (UploadSettings.ofEndpoint e settings).shown = (UploadSettings.ofEndpoint e' settings).shown := by
  unfold UploadSettings.shown UploadSettings.ofEndpoint
  dsimp only
  rw [h.redactText_eq, h.map_token, h.field]

theorem setup_shown_eq (h : e.Alike e') (setup : Setup) :
    ({ setup with endpoint := e } : Setup).shown = ({ setup with endpoint := e' } : Setup).shown := by
  unfold Setup.shown
  dsimp only
  rw [h.shown_eq]

end Endpoint.Alike

/-! ## Samples -/

/-- The host of the samples. -/
def sampleHost : Url.Host := .name "backup.example.com".toList

theorem parse_sampleHost : Url.Host.parse sampleHost.text = .ok sampleHost :=
  have hlabels : ∀ l ∈ ["backup".toList, "example".toList, "com".toList], Url.Domain.IsUncoded l := by
    intro l hl
    simp only [List.mem_cons, List.not_mem_nil, or_false] at hl
    rcases hl with rfl | rfl | rfl <;> exact ⟨Url.forall_mem_of_all (by decide), by decide⟩
  Url.Host.parse_of_isUncoded (List.cons_ne_nil _ _) hlabels (by decide) (by decide)

/-- A URL with the host of the samples. -/
theorem parse_at_sampleHost {s : String} {text rest : List Char} {user : Option (List Char)}
    (hscheme : Url.scheme? (Url.cleaned s.toList) = some ("https", text))
    (huser : Url.splitUser true (text.dropWhile (Url.isSlash true)) = (user, sampleHost.text ++ '/' :: rest))
    (hempty : user ≠ some []) : Url.parse s =
      .ok (Url.withRest { Url.plain "https" (some sampleHost) (Url.readPath true (Url.splitPath ('/' :: rest)).1) with
        username := Url.percentEncode Url.inUserInfo ((user.getD []).takeWhile (· != ':'))
        password := Url.percentEncode Url.inUserInfo (((user.getD []).dropWhile (· != ':')).drop 1) }
        (Url.splitPath ('/' :: rest)).2) := by
  have hends : Url.EndsHere true ('/' :: rest) := by
    rintro c ⟨⟩
    exact .inr rfl
  unfold Url.parse
  rw [hscheme]
  dsimp only
  rw [Url.readAfter_eq (by decide +kernel) (by decide) huser hempty parse_sampleHost hends rfl]
  rfl

/-- An endpoint whose URL has a user and a query. -/
def sampleEndpoint : Endpoint := ⟨"https://user:pw@backup.example.com/upload?token=abc", some "first", some "file"⟩

theorem parse_sampleEndpoint : Url.parse sampleEndpoint.url = .ok ⟨"https", "user".toList, "pw".toList, some sampleHost, none,
    .rooted ["upload".toList], some "token=abc".toList, none⟩ := by
  have hscheme : Url.scheme? (Url.cleaned sampleEndpoint.url.toList) =
      some ("https", "//user:pw@backup.example.com/upload?token=abc".toList) := by decide +kernel
  have huser : Url.splitUser true ("//user:pw@backup.example.com/upload?token=abc".toList.dropWhile (Url.isSlash true)) =
      (some "user:pw".toList, sampleHost.text ++ '/' :: "upload?token=abc".toList) := by decide +kernel
  rw [parse_at_sampleHost hscheme huser (by decide +kernel)]
  decide +kernel

/-- An endpoint that differs from the sample in secrets. -/
def sampleTwin : Endpoint := ⟨"https://backup.example.com/upload#part", some "second", some "file"⟩

theorem parse_sampleTwin : Url.parse sampleTwin.url =
    .ok ⟨"https", [], [], some sampleHost, none, .rooted ["upload".toList], none, some "part".toList⟩ := by
  have hscheme : Url.scheme? (Url.cleaned sampleTwin.url.toList) =
      some ("https", "//backup.example.com/upload#part".toList) := by decide +kernel
  have huser : Url.splitUser true ("//backup.example.com/upload#part".toList.dropWhile (Url.isSlash true)) =
      (none, sampleHost.text ++ '/' :: "upload#part".toList) := by decide +kernel
  rw [parse_at_sampleHost hscheme huser nofun]
  decide +kernel

/-- A host of files. -/
def sampleFileHost : Url.Host := .name "host".toList

theorem parse_sampleFileHost : Url.Host.parse sampleFileHost.text = .ok sampleFileHost :=
  Url.Host.parse_of_isUncoded (List.cons_ne_nil "host".toList [])
    (List.forall_mem_singleton.mpr ⟨Url.forall_mem_of_all (by decide), by decide⟩) (by decide) (by decide)

theorem parse_sampleFile {s : String} {r : List Char} (hr : ∀ c ∈ r, c ≠ '?' ∧ c ≠ '#')
    (hscheme : Url.scheme? (Url.cleaned s.toList) =
      some ("file", '/' :: '/' :: (sampleFileHost.text ++ '/' :: r))) :
    Url.parse s = .ok (Url.plain "file" (some (Url.fileAt sampleFileHost r).1) (Url.fileAt sampleFileHost r).2) := by
  unfold Url.parse
  rw [hscheme]
  dsimp only
  rw [Url.readAfter, if_pos rfl]
  exact Url.readFile_append (.inr ⟨⟨_, parse_sampleFileHost⟩, by decide⟩) (by decide) parse_sampleFileHost hr

/-! ## What is logged -/

end MediaBackup
