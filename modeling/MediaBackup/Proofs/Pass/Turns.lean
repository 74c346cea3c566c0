import MediaBackup.Proofs.Pass.Deeds

/-
  The turns of the jobs in a pass.

  Every job that was listed has one turn.  In its turn it is tried, or it is DEFERRED: what the last look at the
  network answered did not meet its demands.  What the main line knows between two turns is `Turned`, and the loop
  through the jobs keeps it (`loop`).  So the main line keeps to its gate, and the report that it ends with counts the
  jobs that were deferred (`run_keeps`).
-/

namespace MediaBackup

namespace Gating

open Script

variable {past past' : List Deed} {turned deferred jobs : List Job} {i j : Job} {p : Job → Prop}
  {seen : Option NetworkInfo} {progress : Pass.Progress}

/-! ## Turns -/

/-- The turn of the job came while what the last look had answered did not meet its demands.  Till then only jobs ahead
    of it were tried, and since then only jobs behind it. -/
def Failed (turned : List Job) (past : List Deed) (j : Job) : Prop :=
  ∃ ahead behind later earlier x, turned = ahead ++ j :: behind ∧ past = later ++ earlier ∧
    listed earlier = listed past ∧ sight earlier = some x ∧ ¬j.constraints.MetBy x ∧
    (∀ i, Tried earlier i → i ∈ ahead) ∧ ∀ i, Tried later i → i ∈ behind

/-- What the main line knows between two turns: which jobs had theirs, which of them were deferred, and which jobs are
    left. -/
structure Turned (past : List Deed) (turned deferred jobs : List Job) : Prop where
  listed : listed past = turned ++ jobs
  tried : ∀ i, Tried past i → i ∈ turned
  nodup : deferred.Nodup
  mem : ∀ i, i ∈ deferred ↔ i ∈ turned ∧ ¬Tried past i
  failed : ∀ i ∈ deferred, Failed turned past i

/-- Those that had their turns after it are behind it. -/
theorem Failed.extend {more : List Job} (h : Failed turned past i) (hext : Extends p past past')
    (hp : ∀ i, p i → i ∈ more) : Failed (turned ++ more) past' i := by
  obtain ⟨ahead, behind, later, earlier, x, rfl, rfl, hlisted, hsight, hmet, hahead, hbehind⟩ := h
  obtain ⟨⟨latest, rfl, hlatest⟩, hsame, -⟩ := hext
  refine ⟨ahead, behind ++ more, latest ++ later, earlier, x, List.append_assoc .., (List.append_assoc ..).symm,
    hlisted.trans hsame.symm, hsight, hmet, hahead, fun k ⟨d, hd, hclaims⟩ => ?_⟩
  rcases List.mem_append.mp hd with hd | hd
  · exact List.mem_append_right _ (hp k (hlatest d hd k hclaims))
  · exact List.mem_append_left _ (hbehind k ⟨d, hd, hclaims⟩)

namespace Turned

/-- Before the first turn. -/
theorem start (hlisted : Gating.listed past = jobs) (hnone : ∀ i, ¬Tried past i) : Turned past [] [] jobs where
  listed := hlisted
  tried i hi := absurd hi (hnone i)
  nodup := .nil
  mem _ := ⟨fun hi => absurd hi List.not_mem_nil, fun hi => absurd hi.1 List.not_mem_nil⟩
  failed _ hi := nomatch hi

/-- Within a turn. -/
theorem extend (h : Turned past turned deferred jobs) (hext : Extends (fun _ => False) past past') :
    Turned past' turned deferred jobs where
  listed := hext.listed.trans h.listed
  tried i hi := h.tried i ((hext.tried_or hi).resolve_right id)
  nodup := h.nodup
  mem i := (h.mem i).trans (and_congr_right fun _ =>
    not_congr ⟨hext.tried, fun hi => (hext.tried_or hi).resolve_right id⟩)
  failed i hi := List.append_nil turned ▸ (h.failed i hi).extend hext fun _ hp => hp.elim

/-- A job whose turn is to come had none before. -/
theorem not_mem (h : Turned past turned deferred (j :: jobs)) (hnodup : (Gating.listed past).Nodup) : j ∉ turned := by
  rw [h.listed] at hnodup
  exact fun hj => (List.nodup_append.mp hnodup).2.2 j hj j (.head _) rfl

/-- The turn of a job that was tried. -/
theorem claim (h : Turned past turned deferred (j :: jobs)) (hnodup : (Gating.listed past).Nodup)
    (hext : Extends (· = j) past past') (hj : Tried past' j) : Turned past' (turned ++ [j]) deferred jobs where
  listed := (hext.listed.trans h.listed).trans (List.append_cons ..)
  tried i hi := by
    rcases hext.tried_or hi with hi | rfl
    · exact List.mem_append_left _ (h.tried i hi)
    · exact List.mem_append_right _ (.head _)
  nodup := h.nodup
  mem i := by
    -- the job itself had no turn before, so it is none of the deferred
    constructor
    · intro hi
      obtain ⟨hin, hnot⟩ := (h.mem i).mp hi
      refine ⟨List.mem_append_left _ hin, fun htried => ?_⟩
      rcases hext.tried_or htried with htried | rfl
      · exact hnot htried
      · exact h.not_mem hnodup hin
    · rintro ⟨hin, hnot⟩
      refine (h.mem i).mpr ⟨?_, fun htried => hnot (hext.tried htried)⟩
      rcases List.mem_append.mp hin with hin | hin
      · exact hin
      · exact absurd (List.mem_singleton.mp hin ▸ hj) hnot
  failed i hi := (h.failed i hi).extend hext fun _ hp => List.mem_singleton.mpr hp

/-- The turn of a job whose demands were not met. -/
theorem defer (h : Turned past turned deferred (j :: jobs)) (hnodup : (Gating.listed past).Nodup)
    {x : Call.network.Answer} (hsight : sight past = some x) (hmet : ¬j.constraints.MetBy x) :
    Turned past (turned ++ [j]) (j :: deferred) jobs where
  listed := h.listed.trans (List.append_cons ..)
  tried i hi := List.mem_append_left _ (h.tried i hi)
  nodup := List.nodup_cons.mpr ⟨fun hj => h.not_mem hnodup ((h.mem j).mp hj).1, h.nodup⟩
  mem i := by
    rw [List.mem_cons, h.mem, List.mem_append, List.mem_singleton]
    constructor
    · rintro (rfl | ⟨hin, hnot⟩)
      · exact ⟨.inr rfl, fun htried => h.not_mem hnodup (h.tried i htried)⟩
      · exact ⟨.inl hin, hnot⟩
    · rintro ⟨hin | rfl, hnot⟩
      · exact .inr ⟨hin, hnot⟩
      · exact .inl rfl
  failed i hi := by
    rcases List.mem_cons.mp hi with rfl | hi
    · exact ⟨turned, [], [], past, x, rfl, rfl, rfl, hsight, hmet, h.tried, fun k ⟨d, hd, _⟩ => nomatch hd⟩
    · exact (h.failed i hi).extend (p := fun _ => False) (Extends.refl past) fun _ hp => hp.elim

end Turned

/-- A report counts the jobs that were deferred. -/
def Counts (past : List Deed) (count : Nat) : Prop :=
  ∃ deferred, Turned past (listed past) deferred [] ∧ deferred.length = count

theorem Counts.extend {count : Nat} (h : Counts past count) (hext : Extends (fun _ => False) past past') :
    Counts past' count := by
  obtain ⟨deferred, hturned, hlength⟩ := h
  exact ⟨deferred, hext.listed.symm ▸ hturned.extend hext, hlength⟩

/-! ## The loop through the jobs -/

/-- What the main line knows where `jobs` have still to have their turns. -/
structure At (jobs : List Job) (seen : Option NetworkInfo) (progress : Pass.Progress) (past : List Deed) : Prop where
  listing : Listing past
  sight : ∃ x, sight past = some x ∧ seen = Pass.taken x
  turned : ∃ turned deferred, Turned past turned deferred jobs ∧ deferred.length = progress.report.deferred

namespace At

/-- A job whose turn it is waits in the queue. -/
theorem queued (h : At (j :: jobs) seen progress past) : j ∈ listed past ∧ j.state = .queued := by
  obtain ⟨turned, deferred, hturned, -⟩ := h.turned
  have hj : j ∈ listed past := hturned.listed ▸ List.mem_append_right _ (.head _)
  exact ⟨hj, h.listing.queued j hj⟩

/-- It is let where its demands are met. -/
theorem isLet (h : At (j :: jobs) seen progress past) (hmet : j.constraints.satisfiedBy seen = true) :
    IsLet past j := by
  obtain ⟨x, hsight, rfl⟩ := h.sight
  exact ⟨h.queued.1, h.queued.2, x, hsight, Constraints.satisfiedBy_taken_iff.mp hmet⟩

theorem listing_extend (h : Listing past) (hext : Extends p past past') : Listing past' :=
  ⟨hext.listed ▸ h.nodup, hext.listed ▸ h.queued⟩

/-- Within a turn. -/
theorem extend (h : At jobs seen progress past) (hidle : Idle past past') : At jobs seen progress past' := by
  obtain ⟨hlisting, ⟨x, hsight, hseen⟩, turned, deferred, hturned, hlength⟩ := h
  exact ⟨listing_extend hlisting hidle.toExtends, ⟨x, hidle.sight.trans hsight, hseen⟩, turned, deferred,
    hturned.extend hidle.toExtends, hlength⟩

/-- What is counted besides the deferred jobs does not matter. -/
theorem recount {progress' : Pass.Progress} (h : At jobs seen progress past)
    (hcount : progress'.report.deferred = progress.report.deferred) : At jobs seen progress' past :=
  ⟨h.listing, h.sight, hcount ▸ h.turned⟩

/-- After the turn of a job that was tried. -/
theorem claim (h : At (j :: jobs) seen progress past) (hquiet : Quiet (· = j) past past') (hj : Tried past' j) :
    At jobs seen progress past' := by
  obtain ⟨hlisting, ⟨x, hsight, hseen⟩, turned, deferred, hturned, hlength⟩ := h
  exact ⟨listing_extend hlisting hquiet.toExtends, ⟨x, hquiet.sight.trans hsight, hseen⟩, _, deferred,
    hturned.claim hlisting.nodup hquiet.toExtends hj, hlength⟩

/-- After the turn of a job whose demands were not met. -/
theorem defer (h : At (j :: jobs) seen progress past) (hmet : j.constraints.satisfiedBy seen = false) :
    At jobs seen progress.deferred past := by
  obtain ⟨hlisting, ⟨x, hsight, rfl⟩, turned, deferred, hturned, hlength⟩ := h
  have hnot : ¬j.constraints.MetBy x := fun hmet' =>
    Bool.false_ne_true (hmet.symm.trans (Constraints.satisfiedBy_taken_iff.mpr hmet'))
  exact ⟨hlisting, ⟨x, hsight, rfl⟩, _, _, hturned.defer hlisting.nodup hsight hnot, congrArg (· + 1) hlength⟩

/-- A look at the network. -/
theorem meets_look (hlisting : Listing past)
    (hturned : ∃ turned deferred, Turned past turned deferred jobs ∧ deferred.length = progress.report.deferred) :
    Meets gate.engine (fun seen => At jobs seen progress) (fun _ _ => True) Pass.look past := by
  obtain ⟨turned, deferred, hturned, hlength⟩ := hturned
  have hlooked : ∀ (x : Call.network.Answer) past', gate.engine.answers past .network x past' →
      At jobs (Pass.taken x) progress past' := by
    rintro x _ ⟨s, t, -, -, rfl⟩
    have hext : Extends (fun _ => False) past (⟨.engine .network, x, s, t⟩ :: past) := .cons trivial fun _ hj => hj
    exact ⟨listing_extend hlisting hext, ⟨x, rfl, rfl⟩, turned, deferred, hturned.extend hext, hlength⟩
  exact Pass.meets_look trivial (fun past' => hlooked none past') (fun info past' => hlooked (some (.ok info)) past')
    fun e past' => hlooked (some (.error e)) past'

end At

/-- What the main line knows where it holds a permit for the next job. -/
def Holding (j : Job) (jobs : List Job) (seen : Option NetworkInfo) (progress : Pass.Progress) (past : List Deed) :
    Prop :=
  j.key.isUpload = true ∧ At (j :: jobs) seen progress past

/-- A permit is taken for an upload.  After a wait the network is looked at again. -/
theorem meets_takePermit {j : Job} (hj : j.key.isUpload = true) (h : At (j :: jobs) seen progress past) :
    Meets gate (fun waited past' =>
      if waited then Meets gate.engine (fun seen => Holding j jobs seen progress) (fun _ _ => True) Pass.look past'
      else Holding j jobs seen progress past') (fun _ _ => True) Pass.takePermit past := by
  refine Pass.meets_takePermit trivial ?_ ?_
  · rintro _ ⟨s, t, -, -, rfl⟩
    exact ⟨hj, h.extend (.cons trivial trivial fun _ hj => hj)⟩
  · rintro _ ⟨s, t, -, -, rfl⟩
    refine ⟨trivial, ?_⟩
    rintro _ ⟨s', t', -, -, rfl⟩
    have hasked : At (j :: jobs) seen progress (⟨.tryPermit, false, s, t⟩ :: past) :=
      h.extend (.cons trivial trivial fun _ hi => hi)
    have hwaited : Extends (fun _ => False) (⟨.tryPermit, false, s, t⟩ :: past)
      (⟨.waitPermit, (), s', t'⟩ :: ⟨.tryPermit, false, s, t⟩ :: past) := .cons trivial fun _ hj => hj
    obtain ⟨turned, deferred, hturned, hlength⟩ := hasked.turned
    rw [if_pos rfl]
    exact Meets.mono (fun _ _ hlooked => ⟨hj, hlooked⟩) (fun _ _ _ => trivial)
      (At.meets_look (At.listing_extend hasked.listing hwaited) ⟨turned, deferred, hturned.extend hwaited, hlength⟩)

/-- A permit is returned. -/
theorem At.meets_returnPermit {good : Unit → List Deed → Prop} {bad : Stop → List Deed → Prop}
    (h : At jobs seen progress past) (hgood : ∀ past', At jobs seen progress past' → good () past') :
    Meets gate good bad (Pass.call .returnPermit) past := by
  refine Pass.meets_call.mpr ⟨trivial, ?_⟩
  rintro _ _ ⟨s, t, -, -, rfl⟩
  exact hgood _ (h.extend (.cons trivial trivial fun _ hj => hj))

/-- How the loop ends: if no error ended it, every job had its turn. -/
def Left (progress : Pass.Progress) (past : List Deed) : Prop :=
  progress.fatal = none → Counts past progress.report.deferred

theorem Left.failed (e : SyncError) : Left (progress.failed e) past :=
  fun hfatal => absurd hfatal (Option.some_ne_none _)

theorem At.left (h : At [] seen progress past) : Left progress past := by
  intro _
  obtain ⟨turned, deferred, hturned, hlength⟩ := h.turned
  have hall : listed past = turned := hturned.listed.trans (List.append_nil turned)
  exact ⟨deferred, hall.symm ▸ hturned, hlength⟩

/-- The turns of the loop. -/
theorem loop (b : Backup) : Pass.Loop gate b At Holding Left (fun _ _ => True) where
  ended h := h.left
  deferred h hmet := h.defer hmet
  housekeeping {j jobs seen progress past} h hmet hj := by
    refine Meets.mono ?_ (fun _ _ _ => trivial) (meets_tryClaim (h.isLet hmet))
    rintro r past₁ ⟨hquiet, htried, hwon⟩
    have hat := h.claim hquiet htried
    cases r with
    | lost => exact hat.recount rfl
    | fatal e => exact Left.failed e
    | won c =>
      obtain ⟨hrunning, hkey⟩ := hwon c rfl
      have hscan : c.key = .scan → Scanned past₁ := fun hscan => ⟨j, hkey ▸ hscan, htried⟩
      refine Meets.mono ?_ ?_ (preserves_work (b := b) hrunning hscan past₁ (.refl past₁))
      · intro state past₂ hidle
        refine (hat.extend hidle).recount ?_
        cases state <;> rfl
      · rintro (e | words) past₂ -
        · exact Left.failed e
        · trivial
  permit h _ hj := meets_takePermit hj h
  returned h hmet := h.2.meets_returnPermit fun _ hat => hat.defer hmet
  upload {j jobs seen progress past} h hmet := by
    obtain ⟨hj, h⟩ := h
    refine Meets.mono ?_ (fun _ _ _ => trivial) (meets_tryClaim (h.isLet hmet))
    rintro r past₁ ⟨hquiet, htried, hwon⟩
    have hat := h.claim hquiet htried
    cases r with
    | lost => exact hat.meets_returnPermit fun _ hat => hat.recount rfl
    | fatal e => exact hat.meets_returnPermit fun _ _ => Left.failed e
    | won c =>
      obtain ⟨hrunning, hkey⟩ := hwon c rfl
      refine Pass.meets_call.mpr ⟨⟨hrunning, hkey ▸ hj, j, hkey.symm, htried⟩, ?_⟩
      rintro _ _ ⟨s, t, -, -, rfl⟩
      have hidle : Idle past₁ (⟨.start c, (), s, t⟩ :: past₁) := .cons trivial trivial fun _ hi => hi
      exact (hat.extend hidle).recount rfl

/-! ## The whole main line -/

/-- Joining the uploads tries nothing, and counts no job as deferred. -/
theorem meets_joinUploads {left : Nat} (h : Left progress past) :
    Meets gate Left (fun _ _ => True) (Pass.joinUploads left progress) past := by
  refine @Pass.meets_joinUploads _ gate _ past (fun _ => Left) (fun {left progress past} h => ⟨trivial, ?_⟩) left
    progress h
  rintro r _ ⟨s, t, -, -, rfl⟩ hfatal
  have hnone : progress.fatal = none := by
    match r with
    | .ok state => exact hfatal
    | .error (.failed e) => exact absurd hfatal (Option.some_ne_none _)
    | .error (.crashed words) => exact hfatal
  have hsame : (progress.joined r).report.deferred = progress.report.deferred := by
    match r with
    | .ok state => cases state <;> rfl
    | .error (.failed e) => rfl
    | .error (.crashed words) => rfl
  rw [hsame]
  exact (h hnone).extend (.cons trivial fun _ hj => hj)

/-- Promoting tries nothing. -/
theorem meets_promote (h : ∀ i, ¬Tried past i) :
    Meets gate.engine (fun _ past' => ∀ i, ¬Tried past' i) (fun _ _ => True) Queue.promote past := by
  unfold Queue.promote
  rw [meets_bind, Engine.meets_now]
  refine ⟨trivial, fun now past₁ h₁ => Engine.meets_jobs.mpr ⟨trivial, ?_, fun _ _ _ => trivial⟩⟩
  rintro _ _ ⟨s, t, -, -, rfl⟩ i ⟨d, hd, hclaims⟩
  rcases List.mem_cons.mp hd with rfl | hd
  · exact hclaims
  · exact h i (((gate_silent.now _ _ _ h₁).2.tried_or ⟨d, hd, hclaims⟩).resolve_right id)

/-- How the main line of a pass ends: if it made a report, this counts the jobs that were deferred. -/
def Ends (r : Except Stop PassReport) (past : List Deed) : Prop :=
  ∀ report, r = .ok report → Counts past report.deferred

/-- The main line of a pass keeps to its gate. -/
theorem run_keeps (b : Backup) : (ExceptT.run (Pass.run b)).Keeps gate Ends [] := by
  suffices hmeets : Meets gate (fun report past => Counts past report.deferred) (fun _ _ => True) (Pass.run b) [] by
    refine Keeps.mono ?_ hmeets
    rintro (e | report) past hend _ heq
    · exact nomatch heq
    · exact Except.ok.inj heq ▸ hend
  refine Pass.meets_run Left Left ?_ (fun progress past h => meets_joinUploads h) fun progress past h => ?_
  · refine Meets.mono (fun promoted past₁ hnone => ?_) (fun _ _ _ => trivial)
      (meets_promote fun i ⟨d, hd, _⟩ => nomatch hd)
    refine Meets.mono ?_ (fun _ _ _ => trivial) (meets_due hnone)
    rintro due past₂ ⟨hlisted, hlisting, hnone⟩
    have hstart : Turned past₂ [] [] due.jobs := .start hlisted hnone
    refine ⟨fun hempty => ⟨[], ?_, rfl⟩, fun _ => ?_⟩
    · rw [hlisted, hempty] 
      exact hempty ▸ hstart
    · exact Meets.mono (fun seen past₃ hat => (loop b).meets_runJobs hat) (fun _ _ _ => trivial)
        (At.meets_look hlisting ⟨[], [], hstart, rfl⟩)
  · exact ⟨h, fun _ _ => trivial⟩

end Gating

end MediaBackup
