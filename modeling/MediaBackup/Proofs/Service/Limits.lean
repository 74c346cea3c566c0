import MediaBackup.Proofs.Job.Delay
import MediaBackup.Service.Bootstrap

/-
  Where settings that were checked still break down.

  The settings for permits, channels and timers are only checked not to be zero.  This keeps the lower limits: there is
  a permit, a channel has a slot, a timer has a period.  The upper limits are checked nowhere.  So a launch breaks down
  in place of a fault, an upload breaks down in its work, and the loop breaks down before its first waking, each just if
  a setting of its own is above its limit (`breaks_just_above`).
-/

namespace MediaBackup

/-! ## The check -/

namespace Settings

variable {s : Settings}

theorem check_eq_ok_iff : s.check = .ok () ↔ s.maxConcurrentUploads ≠ 0 ∧ (s.chunkSize ≠ 0 ∧ s.bufferedChunks ≠ 0) ∧
    (∀ span ∈ s.spans, span.2 ≠ 0) ∧ s.uploadRetry.check = .ok () ∧ s.housekeepingRetry.check = .ok () := by
  unfold check
  by_cases huploads : s.maxConcurrentUploads = 0
  · rw [if_pos huploads]
    exact ⟨nofun, fun h => absurd huploads h.1⟩
  rw [if_neg huploads]
  by_cases hchunks : s.chunkSize = 0 ∨ s.bufferedChunks = 0
  · rw [if_pos hchunks]
    exact ⟨nofun, fun h => absurd hchunks (not_or.mpr h.2.1)⟩
  rw [if_neg hchunks]
  cases hspan : s.spans.find? (·.2 = 0) with
  | some span =>
    have hzero : span.2 = 0 := by simpa using List.find?_some hspan
    exact ⟨nofun, fun h => absurd hzero (h.2.2.1 span (List.mem_of_find?_eq_some hspan))⟩
  | none =>
    have hspans : ∀ span ∈ s.spans, span.2 ≠ 0 := by simpa using hspan
    cases hupload : s.uploadRetry.check with
    | error _ => exact ⟨nofun, fun h => absurd h.2.2.2.1 nofun⟩
    | ok _ => exact ⟨fun h => ⟨huploads, not_or.mp hchunks, hspans, rfl, h⟩, fun h => h.2.2.2.2⟩

/-- The spans of a timer are some time. -/
theorem span_pos (h : s.check = .ok ()) {span : String × Nat} (hspan : span ∈ s.spans) : 0 < span.2 :=
  Nat.pos_of_ne_zero ((check_eq_ok_iff.mp h).2.2.1 span hspan)

end Settings

/-! ## Permits, channels and timers -/

/-- There is a permit, and there may be too many. -/
theorem Backup.breakdown?_ofSettings (e : Endpoint) {s : Settings} (h : s.check = .ok ()) :
    (Backup.ofSettings e s).breakdown? =
      if Upload.mostSlots < s.maxConcurrentUploads then some Upload.tooManySlots else none := by
  have huploads : 1 ≤ s.maxConcurrentUploads := Nat.pos_of_ne_zero (Settings.check_eq_ok_iff.mp h).1
  show (if Upload.mostSlots < max s.maxConcurrentUploads 1 then _ else _) = _
  rw [Nat.max_eq_left huploads]

/-- A channel has a slot, and it may have too many. -/
theorem Upload.breakdown?_ofEndpoint (e : Endpoint) {s : Settings} (h : s.check = .ok ()) :
    breakdown? (.ofEndpoint e s) =
      if mostSlots < s.bufferedChunks then some tooManySlots
      else if mostBytes < s.chunkSize then some "capacity overflow"
      else none := if_neg (Settings.check_eq_ok_iff.mp h).2.1.2

/-- An upload whose channel breaks down asks the world for nothing more. -/
theorem Upload.send_eq_crash {u : UploadSettings} {words : String} (h : breakdown? u = some words) (id : String)
    (c : Content) : send u id c = Engine.crash (some words) := by
  unfold send
  rw [h]
  rfl

namespace Service

/-- What is said of a timer that the clock does not reach. -/
def beyondClock : String := "overflow when adding duration to instant"

/-- The clock of a process does not reach the end of a wait from now on. -/
def IsBeyondClock (now wait : Duration) : Prop := Timer.clockEnd * 1000000000 ≤ now.nanos + wait.nanos

instance (now wait : Duration) : Decidable (IsBeyondClock now wait) := inferInstanceAs (Decidable (_ ≤ _))

theorem IsBeyondClock.mono {now short long : Duration} (h : IsBeyondClock now short) (hle : short.nanos ≤ long.nanos) :
    IsBeyondClock now long :=
  Nat.le_trans h (Nat.add_le_add_left hle _)

theorem nanos_ofSecs_pos {n : Nat} (h : 0 < n) : 0 < (Duration.ofSecs n).nanos :=
  Nat.lt_min.mpr ⟨Nat.mul_pos h (by decide), by decide +kernel⟩

/-- A timer with a period breaks down just if the clock does not reach its first going off. -/
theorem Timer.breakdown?_eq (now : Duration) {t : Timer} (h : 0 < t.period.nanos) :
    t.breakdown? now = if IsBeyondClock now t.delay then some beyondClock else none := by
  unfold breakdown?
  rw [if_neg h.ne']
  rfl

/-- The timers have periods. -/
theorem Timer.period_pos {s : Settings} (h : s.check = .ok ()) : ∀ t ∈ Timer.all s, 0 < t.period.nanos := by
  have hspan (span : String × Nat) (hspan : span ∈ s.spans) := nanos_ofSecs_pos (Settings.span_pos h hspan)
  simp only [Settings.spans, List.forall_mem_cons] at hspan
  simp only [Timer.all, List.forall_mem_cons]
  exact ⟨hspan.2.1, hspan.2.2.1, hspan.2.2.2.1, nofun⟩

theorem findSome?_ite {α β : Type} {l : List α} {f : α → Option β} {p : α → Prop} [DecidablePred p] {b : β}
    (h : ∀ a ∈ l, f a = if p a then some b else none) :
    l.findSome? f = if ∃ a ∈ l, p a then some b else none := by
  induction l with
  | nil => rfl
  | cons a l ih =>
    rw [List.findSome?_cons, h a (.head _), ih fun a ha => h a (.tail _ ha)]
    by_cases ha : p a
    · simp [ha]
    · simp [ha]

/-- The timers break down just if the clock does not reach the end of both intervals. -/
theorem breakdown?_eq (v : Service) (now : Duration) (h : v.settings.check = .ok ()) :
    v.breakdown? now =
      if IsBeyondClock now (.ofSecs v.settings.scanInterval) ∨ IsBeyondClock now (.ofSecs v.settings.dispatchInterval) then
        some beyondClock
      else none := by
  refine (findSome?_ite fun t ht => Timer.breakdown?_eq now (Timer.period_pos h t ht)).trans (if_congr ?_ rfl rfl)
  simp only [Timer.all, List.exists_mem_cons_iff, List.not_mem_nil, false_and, exists_false, or_false]
  exact or_iff_right_of_imp fun hdue => .inl (hdue.mono (Nat.zero_le _))

/-! ## The service -/

/-- Where the check finds a zero, opening fails with that fault. -/
theorem bootstrap_eq_of_check {setup : Setup} {s : Settings} {fault : SettingFault} (hsetup : setup.check = .ok ())
    (hs : s.check = .error fault) (top : Files.Node) : bootstrap setup s top = .error (.sync (.config fault)) := by
  unfold bootstrap
  rw [hsetup, hs]
  rfl

/-- A launch does what opening does, unless there may be too many permits. -/
theorem launch_eq (setup : Setup) {s : Settings} (h : s.check = .ok ()) (top : Files.Node) :
    launch setup s top = (do
      let opened ← (bootstrap setup s top).mapError .failed
      if Upload.mostSlots < s.maxConcurrentUploads then .error (.crashed Upload.tooManySlots)
      else .ok (opened, ⟨.ofSettings setup.endpoint s, s⟩)) := by
  unfold launch
  simp only [Backup.breakdown?_ofSettings setup.endpoint h]
  cases bootstrap setup s top with
  | error _ => rfl
  | ok opened =>
    by_cases hpermits : Upload.mostSlots < s.maxConcurrentUploads
    · simp only [if_pos hpermits]
      rfl
    · simp only [if_neg hpermits]
      rfl

/-- Settings that were checked break down above the upper limits and nowhere else, whatever the set-up, the files, the
    upload, the hosts and the time: the launch if there are too many permits, the upload if a channel has too many slots
    or a chunk too many bytes, the loop if the clock does not reach the end of an interval. -/
theorem breaks_just_above {s : Settings} (h : s.check = .ok ()) :
    (∀ (setup : Setup) (top : Files.Node), launch setup s top = (do
      let opened ← (bootstrap setup s top).mapError .failed
      if Upload.mostSlots < s.maxConcurrentUploads then .error (.crashed Upload.tooManySlots)
      else .ok (opened, ⟨.ofSettings setup.endpoint s, s⟩))) ∧
    (∀ (e : Endpoint) (id : String) (c : Content),
      Upload.breakdown? (.ofEndpoint e s) =
        (if Upload.mostSlots < s.bufferedChunks then some Upload.tooManySlots
        else if Upload.mostBytes < s.chunkSize then some "capacity overflow"
        else none) ∧
      ∀ words, Upload.breakdown? (.ofEndpoint e s) = some words →
        Upload.send (.ofEndpoint e s) id c = Engine.crash (some words)) ∧
    ∀ (b : Backup) (σ : Type) (how : Crew.Conduct σ) (now : Duration) (wakes : List Wake) (state : σ),
      run ⟨b, s⟩ how now wakes state =
        if IsBeyondClock now (.ofSecs s.scanInterval) ∨ IsBeyondClock now (.ofSecs s.dispatchInterval) then
          (.error (.crashed (some beyondClock)), state)
        else loop ⟨b, s⟩ how wakes state := by
  refine ⟨fun setup top => launch_eq setup h top, fun e id c => ⟨Upload.breakdown?_ofEndpoint e h, fun words hwords =>
    Upload.send_eq_crash hwords id c⟩, fun b σ how now wakes state => ?_⟩
  unfold run
  rw [breakdown?_eq ⟨b, s⟩ now h]
  by_cases hbeyond : IsBeyondClock now (.ofSecs s.scanInterval) ∨ IsBeyondClock now (.ofSecs s.dispatchInterval)
  · rw [if_pos hbeyond, if_pos hbeyond]
  · rw [if_neg hbeyond, if_neg hbeyond]

/-! ## Settings at the limits -/

/-- A set-up that opens a fresh file. -/
def sampleSetup : Setup := ⟨"hold.db?vfs=unix", .ofUrl "http://[::1]/", true, false⟩

theorem bootstrap_sample {s : Settings} (h : s.check = .ok ()) : (bootstrap sampleSetup s .empty).isOk = true := by
  unfold bootstrap
  rw [h]
  decide +kernel

theorem check_standard : Settings.standard.check = .ok () :=
  Settings.check_eq_ok_iff.mpr ⟨by decide, by decide, by decide,
    RetryPolicy.check_eq_ok_iff.mpr ⟨by decide, by decide, by decide +kernel, by decide +kernel⟩,
    RetryPolicy.check_eq_ok_iff.mpr ⟨by decide, by decide, by decide +kernel, by decide +kernel⟩⟩

/-- The standard settings are below the limits: a service is launched with them, and its channels are opened. -/
theorem breaks_just_above_standard :
    Settings.standard.check = .ok () ∧ (launch sampleSetup .standard .empty).isOk = true ∧
      Upload.breakdown? (.ofEndpoint sampleSetup.endpoint .standard) = none := by
  refine ⟨check_standard, ?_, ((breaks_just_above check_standard).2.1 _ "" ⟨"", "", none, [], fun _ => 0, none⟩).1⟩
  rw [(breaks_just_above check_standard).1]
  have hopened := bootstrap_sample check_standard
  cases hboot : bootstrap sampleSetup .standard .empty with
  | error e => rw [hboot] at hopened; exact absurd hopened Bool.false_ne_true
  | ok opened => rfl

/-- Settings above every upper limit, each of them a 64-bit number. -/
def endless : Settings :=
  { Settings.standard with maxConcurrentUploads := 2 ^ 61, bufferedChunks := 2 ^ 61, scanInterval := 2 ^ 63 }

/-- They pass the check, and yet the launch, an upload and the loop break down with them. -/
theorem endless_breaks :
    endless.check = .ok () ∧
    launch sampleSetup endless .empty = .error (.crashed Upload.tooManySlots) ∧
    Upload.breakdown? (.ofEndpoint sampleSetup.endpoint endless) = some Upload.tooManySlots ∧
    Service.breakdown? ⟨.ofSettings sampleSetup.endpoint endless, endless⟩ ⟨0⟩ = some beyondClock := by
  have hpolicies := (Settings.check_eq_ok_iff.mp check_standard).2.2.2
  have hcheck : endless.check = .ok () :=
    Settings.check_eq_ok_iff.mpr ⟨by decide, by decide, by decide, hpolicies⟩
  refine ⟨hcheck, ?_, ?_, ?_⟩
  · rw [launch_eq _ hcheck]
    have hopened := bootstrap_sample hcheck
    cases hboot : bootstrap sampleSetup endless .empty with
    | error e => rw [hboot] at hopened; exact absurd hopened Bool.false_ne_true
    | ok opened => rfl
  · rw [Upload.breakdown?_ofEndpoint _ hcheck]
    decide +kernel
  · rw [breakdown?_eq _ _ hcheck]
    decide +kernel

end Service
end MediaBackup
