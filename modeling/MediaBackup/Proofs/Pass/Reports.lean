import MediaBackup.Proofs.Pass.Convoy
import MediaBackup.Proofs.Pass.Faults
import MediaBackup.Proofs.Queue.Dispatching

/-
  What a pass reports where nobody else writes to the table and the database does not fail.

  The main line goes through the jobs that it listed, and each turn counts one of them (`Adds`).  A claim is lost only
  once: a scan puts a fresh dispatch in the place of one that waits, and if that one was tried before, its turn comes
  with a copy of another row (`Excused`).  So the report adds up, whatever the network and the host answer; and as no
  job is under way at the end, every job that was claimed is settled (`comes_to_end`).
-/

namespace MediaBackup

/-- A pass over the table after it listed what is due: it queued the jobs whose wait was over at the one time, and
    listed at the other. -/
def Chronicle.opened (t : JobTable) (promoting listing : Instant) : Chronicle :=
  let queued := (JobStatement.promote promoting).run t
  let due := (JobStatement.listDue listing).run queued.2
  (((Chronicle.mk t []).write .now promoting t).write (.jobs (.promote promoting)) (.ok queued.1) queued.2
    |>.write .now listing queued.2).write (.jobs (.listDue listing)) (.ok due.1) queued.2

/-- The jobs that it listed. -/
def JobTable.dueJobs (t : JobTable) (promoting listing : Instant) : List Job :=
  Gating.validJobs ((JobStatement.listDue listing).run ((JobStatement.promote promoting).run t).2).1

/-- The cell holds a number. -/
def Cell.isNumber (c : Cell) : Bool := c.scaled?.isSome

/-- A text sorts after every time, so a job whose wait is over has a number for its next run. -/
theorem JobRow.isPromotable_eq (r : JobRow) (now : Instant) :
    r.isPromotable now = (r.state == JobState.retrying.name && r.nextRunAt.isNumber && r.nextRunAt.le now.cell) := by
  unfold JobRow.isPromotable
  cases r.nextRunAt with
  | text s =>
    rw [show (Cell.text s).le now.cell = false from rfl, Bool.and_false, Bool.and_false]
  | _ => exact congrArg (· && _) (Bool.and_true _).symm

/-- What the report on a pass over the table says of it, where these are its entries. -/
structure Reported (t : JobTable) (promoting listing : Instant) (past : List Entry) (report : PassReport) : Prop where
  opened : (Chronicle.opened t promoting listing).past <:+ past
  promoted : report.promoted = t.countP fun r =>
    r.state == JobState.retrying.name && r.nextRunAt.isNumber && r.nextRunAt.le promoting.cell
  due : (t.dueJobs promoting listing).length = report.deferred + report.skipped + report.started
  started : report.started = report.succeeded + report.retrying + report.abandoned
  skipped : report.skipped ≤ 1
  /-- Only a due dispatch that was tried before is skipped, in the place of which a scan of the pass put a fresh one. -/
  replaced : report.skipped ≠ 0 →
    ∃ j ∈ t.dueJobs promoting listing, j.key = .dispatch ∧ 1 ≤ j.attempt ∧ Replaced past j

/-- It says so of all that comes later too. -/
theorem Reported.mono {t : JobTable} {promoting listing : Instant} {past past' : List Entry} {report : PassReport}
    (h : Reported t promoting listing past report) (hpast : past <:+ past') :
    Reported t promoting listing past' report := by
  refine ⟨h.opened.trans hpast, h.promoted, h.due, h.started, h.skipped, fun hskipped => ?_⟩
  obtain ⟨j, hj, hkey, hattempt, hreplaced⟩ := h.replaced hskipped
  obtain ⟨more, rfl⟩ := hpast
  exact ⟨j, hj, hkey, hattempt, hreplaced.append more⟩

namespace Reports

open Script

/-! ## Accounts -/

/-- The report adds up where so many of the due jobs are still to come, and so many uploads are to be joined. -/
structure Adds (due : List Job) (left joins : Nat) (p : Pass.Progress) : Prop where
  fatal : p.fatal = none
  due : due.length = p.report.deferred + p.report.skipped + p.report.started + left
  started : p.report.started = p.report.succeeded + p.report.retrying + p.report.abandoned + joins

/-- At most one job was skipped, a due dispatch that was tried before and that a scan replaced; and no dispatch is
    still to come then. -/
def Excused (due jobs : List Job) (past : List Entry) (skipped : Nat) : Prop :=
  skipped = 0 ∨ skipped = 1 ∧ (∀ i ∈ jobs, i.key ≠ .dispatch) ∧
    ∃ j ∈ due, j.key = .dispatch ∧ j.attempt ≠ 0 ∧ Replaced past j

section Accounts

variable {due jobs : List Job} {left joins : Nat} {p : Pass.Progress} {state : JobState} {past past' : List Entry}

/-- A job that was worked at counts in one of three ways. -/
theorem recorded_counts (hresult : state.IsResult) (p : Pass.Progress) :
    (p.recorded state).report.succeeded + (p.recorded state).report.retrying + (p.recorded state).report.abandoned =
      p.report.succeeded + p.report.retrying + p.report.abandoned + 1 ∧
    (p.recorded state).report.deferred = p.report.deferred ∧ (p.recorded state).report.skipped = p.report.skipped ∧
    (p.recorded state).report.started = p.report.started ∧ (p.recorded state).report.promoted = p.report.promoted := by
  rcases hresult with rfl | rfl | rfl
  all_goals
    refine ⟨?_, rfl, rfl, rfl, rfl⟩
    simp only [Pass.Progress.recorded, PassReport.record]
    omega

theorem Adds.deferred (h : Adds due (left + 1) joins p) : Adds due left joins p.deferred := by
  obtain ⟨hfatal, hdue, hstarted⟩ := h
  refine ⟨hfatal, ?_, hstarted⟩
  simp only [Pass.Progress.deferred]
  omega

theorem Adds.skipped (h : Adds due (left + 1) joins p) : Adds due left joins p.skipped := by
  obtain ⟨hfatal, hdue, hstarted⟩ := h
  refine ⟨hfatal, ?_, hstarted⟩
  simp only [Pass.Progress.skipped]
  omega

theorem Adds.uploading (h : Adds due (left + 1) joins p) : Adds due left (joins + 1) p.uploading := by
  obtain ⟨hfatal, hdue, hstarted⟩ := h
  refine ⟨hfatal, ?_, ?_⟩
  · simp only [Pass.Progress.uploading, Pass.Progress.started]
    omega
  · simp only [Pass.Progress.uploading, Pass.Progress.started]
    omega

theorem Adds.joined (h : Adds due left (joins + 1) p) (hresult : state.IsResult) :
    Adds due left joins (p.recorded state) := by
  obtain ⟨hfatal, hdue, hstarted⟩ := h
  obtain ⟨hsum, hdeferred, hskipped, hsame, -⟩ := recorded_counts hresult p
  exact ⟨hfatal, by omega, by omega⟩

/-- What was worked at in the main line. -/
theorem Adds.recorded (h : Adds due (left + 1) joins p) (hresult : state.IsResult) :
    Adds due left joins (p.started.recorded state) := by
  -- in the report it counts as an upload that is joined at once
  obtain ⟨hfatal, hdue, hstarted⟩ := h.uploading.joined hresult
  exact ⟨hfatal, hdue, hstarted⟩

theorem Excused.mono {jobs' : List Job} {skipped : Nat} (h : Excused due jobs past skipped)
    (hjobs : ∀ i ∈ jobs', i ∈ jobs) (hpast : past <:+ past') : Excused due jobs' past' skipped := by
  refine h.imp_right fun ⟨hone, hnot, j, hj, hkey, hattempt, hreplaced⟩ => ?_
  obtain ⟨more, rfl⟩ := hpast
  exact ⟨hone, fun i hi => hnot i (hjobs i hi), j, hj, hkey, hattempt, hreplaced.append more⟩

end Accounts

/-! ## The loop -/

/-- No job is under way but those of the uploads, and the jobs still to come wait.  A convoy has only uploads left. -/
def Waits (b : Backup) (jobs : List Job) (joins : Nat) : Lookout → Prop
  | .alone w => joins = 0 ∧ ∃ waiting, Roster b waiting [] w ∧ ∀ j ∈ jobs, j ∈ waiting
  | .convoy _ todo hand => hand = none ∧ ∀ j ∈ jobs, j ∈ todo ∧ j.key.isUpload = true

/-- Where a pass stands that listed these jobs as due: which are still to come, and how many uploads are to be
    joined. -/
structure Tally (b : Backup) (opened : Chronicle) (due : List Job) (promoted : Nat) (jobs : List Job) (joins : Nat)
    (p : Pass.Progress) (m : Lookout) : Prop where
  suffix : jobs <:+ due
  adds : Adds due jobs.length joins p
  promoted : p.report.promoted = promoted
  excused : Excused due jobs m.known p.report.skipped
  known : opened.past <:+ m.known
  waits : Waits b jobs joins m

/-- What is known of jobs that were listed as due. -/
structure Listing (due : List Job) : Prop where
  queued : ∀ j ∈ due, j.state = .queued
  nodup : (due.map Job.key).Nodup
  /-- Housekeeping comes first. -/
  order : due.Pairwise fun i j => i.key.isUpload = true → j.key.isUpload = true

section Loop

variable {b : Backup} {opened w : Chronicle} {due jobs : List Job} {promoted joins : Nat} {p : Pass.Progress}
  {m : Lookout} {j : Job} {α : Type}

/-- What a program meets alone it meets in the main line. -/
theorem meets_alone {q : Engine α} {good : α → Chronicle → Prop}
    (h : Meets Chronicle.alone good (fun _ _ => False) q w) :
    Meets (Convoy.mainLine b).engine (fun a m => ∃ v, m = .alone v ∧ good a v) (fun _ _ => False) q (.alone w) := by
  refine Keeps.weaken (w := Chronicle.alone) (fun v m => m = .alone v) (fun _ _ _ hm _ => hm ▸ trivial) ?_ ?_ rfl h
  · rintro v _ c x m rfl - ⟨v', hx, rfl⟩
    exact ⟨v', hx, rfl⟩
  · rintro (e | a) v m rfl hend
    · exact hend.elim
    · exact ⟨v, rfl, hend⟩

/-- The jobs after one have other keys. -/
theorem Listing.ne_key (h : Listing due) (hsuffix : j :: jobs <:+ due) : ∀ i ∈ jobs, i.key ≠ j.key := by
  intro i hi heq
  have hnodup : ((j :: jobs).map Job.key).Nodup := h.nodup.sublist (hsuffix.sublist.map _)
  exact (List.nodup_cons.mp hnodup).1 (heq ▸ List.mem_map_of_mem hi)

/-- After an upload there are only uploads. -/
theorem Listing.uploads (h : Listing due) (hsuffix : j :: jobs <:+ due) (hj : j.key.isUpload = true) :
    ∀ i ∈ jobs, i.key.isUpload = true :=
  fun i hi => (List.pairwise_cons.mp (h.order.sublist hsuffix.sublist)).1 i hi hj

/-- A job is deferred. -/
theorem Tally.deferred (h : Tally b opened due promoted (j :: jobs) joins p m) :
    Tally b opened due promoted jobs joins p.deferred m where
  suffix := (List.suffix_cons j jobs).trans h.suffix
  adds := h.adds.deferred
  promoted := h.promoted
  excused := h.excused.mono (fun _ hi => .tail _ hi) (List.suffix_refl _)
  known := h.known
  waits := by
    have hwaits := h.waits
    cases m with
    | alone w =>
      obtain ⟨hjoins, waiting, hroster, hin⟩ := hwaits
      exact ⟨hjoins, waiting, hroster, fun i hi => hin i (.tail _ hi)⟩
    | convoy before todo hand => exact ⟨hwaits.1, fun i hi => hwaits.2 i (.tail _ hi)⟩

/-- The network is looked at. -/
theorem Tally.quietly {v : Chronicle} (h : Tally b opened due promoted jobs joins p (.alone w)) (hv : w.Quietly v) :
    Tally b opened due promoted jobs joins p (.alone v) := by
  obtain ⟨hjoins, waiting, hroster, hin⟩ := h.waits
  exact ⟨h.suffix, h.adds, h.promoted, h.excused.mono (fun _ hi => hi) hv.past_suffix, h.known.trans hv.past_suffix,
    hjoins, waiting, hroster.quietly hv, hin⟩

/-- The main line is alone while housekeeping is to come. -/
theorem Tally.exists_alone (h : Tally b opened due promoted (j :: jobs) joins p m) (hj : j.key.isUpload = false) :
    ∃ w waiting, m = .alone w ∧ joins = 0 ∧ Roster b waiting [] w ∧ ∀ i ∈ j :: jobs, i ∈ waiting := by
  have hwaits := h.waits
  cases m with
  | alone w =>
    obtain ⟨hjoins, waiting, hroster, hin⟩ := hwaits
    exact ⟨w, waiting, rfl, hjoins, hroster, hin⟩
  | convoy before todo hand => exact nomatch hj.symm.trans (hwaits.2 j (.head _)).2

/-- A turn of housekeeping. -/
theorem meets_housekeeping (hdue : Listing due) (h : Tally b opened due promoted (j :: jobs) p.uploads p m)
    (hj : j.key.isUpload = false) :
    Meets (Convoy.mainLine b) (fun r n => match r with
      | .won c => Meets (Convoy.mainLine b).engine
        (fun state u => Tally b opened due promoted jobs p.uploads (p.started.recorded state) u) (fun _ _ => False)
        (b.work c) n
      | .lost => Tally b opened due promoted jobs p.uploads p.skipped n
      | .fatal _ => False) (fun _ _ => False) (Pass.tryClaim j) m := by
  obtain ⟨w, waiting, rfl, hjoins, hroster, hin⟩ := h.exists_alone hj
  have hsuffix : jobs <:+ due := (List.suffix_cons j jobs).trans h.suffix
  refine Pass.meets_tryClaim (meets_alone (Chronicle.meets_claim hroster (hin j (.head _)))) ?_ ?_
    (fun _ _ hfalse _ => hfalse.elim) (fun _ _ hfalse _ => hfalse.elim) fun _ _ hfalse => hfalse
  · rintro c _ ⟨v, rfl, hpast, hclaimed⟩
    refine Meets.mono ?_ (fun _ _ hfalse => hfalse) (meets_alone (Chronicle.meets_work hclaimed))
    rintro state _ ⟨u, rfl, hresult, hpast', hrests⟩
    refine ⟨hsuffix, h.adds.recorded hresult, ?_, ?_, (h.known.trans hpast).trans hpast', hjoins, _, hrests,
      fun i hi => ?_⟩
    · exact (recorded_counts hresult p.started).2.2.2.2.trans h.promoted
    · rw [(recorded_counts hresult p.started).2.2.1]
      exact h.excused.mono (fun _ hi => .tail _ hi) (hpast.trans hpast')
    · exact List.mem_filter.mpr ⟨hin i (.tail _ hi), decide_eq_true (hdue.ne_key h.suffix i hi)⟩
  · rintro _ ⟨v, rfl, hpast, hrests, hkey, hattempt, hreplaced⟩
    refine ⟨hsuffix, h.adds.skipped, h.promoted, ?_, h.known.trans hpast, hjoins, waiting, hrests,
      fun i hi => hin i (.tail _ hi)⟩
    -- it is the only dispatch, so none was skipped before
    rcases h.excused with hnone | ⟨-, hnot, -⟩
    · exact .inr ⟨congrArg (· + 1) hnone, fun i hi => hkey ▸ hdue.ne_key h.suffix i hi, j, h.suffix.mem (.head _), hkey,
        hattempt, hreplaced⟩
    · exact absurd hkey (hnot j (.head _))

/-- With its first permit the main line leads a convoy. -/
theorem Tally.permit (hdue : Listing due) (h : Tally b opened due promoted (j :: jobs) joins p m)
    (hj : j.key.isUpload = true) :
    Convoy.May b m .tryPermit ∧ ∀ x n, Convoy.Answers m .tryPermit x n →
      Tally b opened due promoted (j :: jobs) joins p n ∧ ∃ before todo, n = .convoy before todo none := by
  have hwaits := h.waits
  cases m with
  | alone w =>
    obtain ⟨hjoins, waiting, hroster, hin⟩ := hwaits
    refine ⟨⟨waiting, hroster⟩, ?_⟩
    rintro x _ rfl
    have huploads : ∀ i ∈ j :: jobs, i.key.isUpload = true :=
      List.forall_mem_cons.mpr ⟨hj, hdue.uploads h.suffix hj⟩
    exact ⟨⟨h.suffix, h.adds, h.promoted, h.excused, h.known, rfl,
      fun i hi => ⟨hroster.waiting.symm ▸ hin i hi, huploads i hi⟩⟩, _, _, rfl⟩
  | convoy before todo hand =>
    obtain ⟨rfl, hin⟩ := hwaits
    refine ⟨trivial, ?_⟩
    rintro x _ rfl
    exact ⟨h, _, _, rfl⟩

/-- A convoy stays as it is while the clock is looked at and listeners are told. -/
theorem mainLine_silent (b : Backup) :
    (Convoy.mainLine b).engine.Silent fun m n => ∀ before todo hand, m = .convoy before todo hand → n = m where
  trans m n k h h' before todo hand heq := by
    have hsame := h before todo hand heq
    exact (h' before todo hand (hsame.trans heq)).trans hsame
  mayNow m := by cases m <;> trivial
  now m x n h := by
    cases m with
    | alone w => exact ⟨h.choose_spec.1.isDated, fun _ _ _ heq => nomatch heq⟩
    | convoy before todo hand => exact ⟨h.1, fun _ _ _ _ => h.2⟩
  mayEmit m e := by cases m <;> trivial
  emit m e n h := by
    rintro before todo hand rfl
    exact h.2

/-- A claim in a convoy is won. -/
theorem meets_claim_upload {before : List Entry} {todo : List Job} (hj : j ∈ todo) (hupload : j.key.isUpload = true)
    (hqueued : j.state = .queued) :
    Meets (Convoy.mainLine b).engine
      (fun o n => ∃ c, o = some c ∧ c.key = j.key ∧ n = .convoy before (todo.filter (·.key ≠ j.key)) (some c))
      (fun _ _ => False) (Queue.claim j) (.convoy before todo none) := by
  refine Queue.meets_claim_clocked (mainLine_silent b) (fun hnot => absurd hqueued hnot) ?_
  rintro - now _ ⟨-, rfl⟩
  refine ⟨⟨rfl, j, hj, hupload, now, rfl⟩, ?_, fun _ ⟨hfalse, _⟩ => (nomatch hfalse),
    fun _ _ ⟨hfault, _⟩ => nomatch hfault⟩
  rintro _ ⟨-, rfl⟩ n hn
  exact ⟨_, rfl, rfl, hn _ _ _ rfl⟩

/-- The turns of the loop. -/
theorem loop (b : Backup) (opened : Chronicle) (promoted : Nat) (hdue : Listing due) :
    Pass.Loop (Convoy.mainLine b) b (fun jobs _ p m => Tally b opened due promoted jobs p.uploads p m)
      (fun j jobs _ p m => Tally b opened due promoted (j :: jobs) p.uploads p m ∧
        ∃ before todo, m = .convoy before todo none)
      (fun p m => Tally b opened due promoted [] p.uploads p m) (fun _ _ => False) where
  ended h := h
  deferred h _ := h.deferred
  housekeeping {j jobs seen p m} h _ hj := by
    refine Meets.mono (fun r n hr => ?_) (fun _ _ hfalse => hfalse)
      (meets_housekeeping hdue h hj)
    cases r with
    | won c => exact Meets.mono (fun _ _ h => h) (fun _ _ hfalse => hfalse.elim) hr
    | lost => exact hr
    | fatal e => exact hr.elim
  permit {j jobs seen p m} h _ hj := by
    obtain ⟨hmay, htaken⟩ := h.permit hdue hj
    refine Pass.meets_takePermit hmay (fun n hn => htaken true n hn) fun n hn => ?_
    obtain ⟨hn, before, todo, rfl⟩ := htaken false n hn
    refine ⟨trivial, ?_⟩
    rintro _ rfl
    refine Pass.meets_look trivial ?_ ?_ ?_
    · rintro _ ⟨-, rfl⟩
      exact ⟨hn, _, _, rfl⟩
    · rintro _ _ ⟨-, rfl⟩
      exact ⟨hn, _, _, rfl⟩
    · rintro _ _ ⟨-, rfl⟩
      exact ⟨hn, _, _, rfl⟩
  returned {j jobs seen p m} h _ := by
    obtain ⟨h, before, todo, rfl⟩ := h
    refine Pass.meets_call.mpr ⟨trivial, ?_⟩
    rintro _ _ rfl
    exact h.deferred
  upload {j jobs seen p m} h _ := by
    obtain ⟨h, before, todo, rfl⟩ := h
    obtain ⟨hj, hupload⟩ := h.waits.2 j (.head _)
    have hqueued := hdue.queued j (h.suffix.mem (.head _))
    refine Pass.meets_tryClaim (meets_claim_upload hj hupload hqueued) ?_ ?_ (fun _ _ hfalse _ => hfalse.elim)
      (fun _ _ hfalse _ => hfalse.elim) fun _ _ hfalse => hfalse
    · rintro c _ ⟨_, ⟨⟩, hkey, rfl⟩
      refine Pass.meets_call.mpr ⟨⟨rfl, hkey ▸ hupload⟩, ?_⟩
      rintro _ _ rfl
      refine ⟨(List.suffix_cons j jobs).trans h.suffix, h.adds.uploading, h.promoted,
        h.excused.mono (fun _ hi => .tail _ hi) (List.suffix_refl _), h.known, rfl, fun i hi => ?_⟩
      obtain ⟨hin, hisUpload⟩ := h.waits.2 i (.tail _ hi)
      exact ⟨List.mem_filter.mpr ⟨hin, decide_eq_true (hdue.ne_key h.suffix i hi)⟩, hisUpload⟩
    · rintro _ ⟨_, hnone, -⟩
      exact nomatch hnone

end Loop

/-! ## The main line -/

section MainLine

variable {b : Backup} {t : JobTable} {opened w : Chronicle} {due : List Job} {promoted : Nat}
  {promoting listing : Instant} {p : Pass.Progress} {m : Lookout}

/-- The jobs of a pass as it goes through them. -/
abbrev agenda (t : JobTable) (promoting listing : Instant) : List Job :=
  (DueJobs.arrange ⟨t.dueJobs promoting listing, 0⟩).jobs

theorem listing_agenda (h : t.Keyed) (promoting listing : Instant) : Listing (agenda t promoting listing) := by
  have hkeyed := JobTable.keyed_run h (.promote promoting)
  have hperm : (agenda t promoting listing).Perm (t.dueJobs promoting listing) := Gating.arrange_perm _
  refine ⟨fun j hj => ?_, ?_, Workers.pairwise_arrange _⟩
  · exact (Gating.says_of_listDue hkeyed (Gating.mem_validJobs.mp (hperm.mem_iff.mp hj))).1
  · exact (hperm.map Job.key).nodup_iff.mpr (Gating.nodup_keys_of_listDue hkeyed listing)

/-- Uploads are joined one after another. -/
theorem meets_joinUploads (h : Tally b opened due promoted [] p.uploads p m) :
    Meets (Convoy.mainLine b) (Tally b opened due promoted [] 0) (fun _ _ => False) (Pass.joinUploads p.uploads p)
      m := by
  refine @Pass.meets_joinUploads _ (Convoy.mainLine b) _ m (Tally b opened due promoted []) ?_ p.uploads p h
  intro left p m h
  have hwaits := h.waits
  cases m with
  | alone w => exact absurd hwaits.1 (Nat.succ_ne_zero left)
  | convoy before todo hand =>
    refine ⟨trivial, ?_⟩
    rintro _ _ ⟨⟨state, rfl, hresult⟩, rfl⟩
    obtain ⟨-, -, hskipped, -, hpromoted⟩ := recorded_counts hresult p
    refine ⟨h.suffix, h.adds.joined hresult, hpromoted.trans h.promoted, ?_, h.known, hwaits⟩
    exact hskipped.symm ▸ h.excused

/-- When all jobs had their turns and all uploads were joined, the report is complete. -/
theorem Tally.reported (h : Tally b (.opened t promoting listing) (agenda t promoting listing)
    ((JobStatement.promote promoting).run t).1 [] 0 p m) : Reported t promoting listing m.known p.report where
  opened := h.known
  promoted := h.promoted.trans (congrArg (t.countP ·) (funext fun r => r.isPromotable_eq promoting))
  due := (Gating.arrange_perm ⟨t.dueJobs promoting listing, 0⟩).length_eq.symm.trans h.adds.due
  started := h.adds.started
  skipped := by rcases h.excused with hnone | ⟨hone, -⟩ <;> omega
  replaced hskipped := by
    obtain ⟨-, -, j, hj, hkey, hattempt, hreplaced⟩ := h.excused.resolve_left hskipped
    exact ⟨j, (Gating.arrange_perm _).mem_iff.mp hj, hkey, Nat.pos_of_ne_zero hattempt, hreplaced⟩

/-- The progress of a pass that has listed what is due. -/
abbrev opening (promoted quarantined : Nat) : Pass.Progress :=
  ⟨{ (default : PassReport) with promoted := promoted, quarantined := quarantined }, 0, none⟩

/-- Before the first turn all due jobs are still to come. -/
theorem Tally.begun {d : DueJobs} (hjobs : d.jobs = agenda t promoting listing)
    (hroster : Roster b (t.dueJobs promoting listing) [] w)
    (hpast : (Chronicle.opened t promoting listing).past <:+ w.past) :
    Tally b (.opened t promoting listing) (agenda t promoting listing) ((JobStatement.promote promoting).run t).1 d.jobs
      0 (opening ((JobStatement.promote promoting).run t).1 d.quarantined) (.alone w) where
  suffix := hjobs ▸ List.suffix_refl _
  adds := ⟨rfl, hjobs ▸ (Nat.zero_add _).symm, rfl⟩
  promoted := rfl
  excused := .inl rfl
  known := hpast
  waits := by
    have hperm : d.jobs.Perm (t.dueJobs promoting listing) := hjobs ▸ Gating.arrange_perm _
    exact ⟨rfl, _, hroster, fun _ hj => hperm.mem_iff.mp hj⟩

/-- The main line looks at the network, and goes through the jobs with what it saw. -/
theorem meets_look_runJobs (hdue : Listing due) {jobs : List Job}
    (h : Tally b opened due promoted jobs p.uploads p (.alone w)) :
    Meets (Convoy.mainLine b).engine (fun seen m => Meets (Convoy.mainLine b)
      (fun p m => Tally b opened due promoted [] p.uploads p m) (fun _ _ => False) (Pass.runJobs b jobs seen p) m)
      (fun _ _ => False) Pass.look (.alone w) := by
  have hturns : ∀ {c x v} (seen : Option NetworkInfo), Chronicle.Unfailing w c x v → (∀ st, c ≠ .jobs st) →
      Meets (Convoy.mainLine b) (fun p m => Tally b opened due promoted [] p.uploads p m) (fun _ _ => False)
        (Pass.runJobs b jobs seen p) (.alone v) :=
    fun seen hx hc => (loop b opened promoted hdue).meets_runJobs (h.quietly (hx.quietly hc))
  refine Pass.meets_look trivial ?_ ?_ ?_
  · rintro _ ⟨v, hx, rfl⟩
    exact hturns _ hx fun _ => Call.noConfusion
  · rintro info _ ⟨v, hx, rfl⟩
    exact hturns _ hx fun _ => Call.noConfusion
  · rintro e _ ⟨v, hx, rfl⟩
    exact hturns _ hx fun _ => Call.noConfusion

/-- The main line of a pass ends with a report, and no job is in its hand. -/
theorem run_keeps (b : Backup) (h : t.Keyed) :
    (ExceptT.run (Pass.run b)).Keeps (Convoy.mainLine b) (fun r m => ∃ report promoting listing, r = .ok report ∧
      Reported t promoting listing m.known report ∧ Waits b [] 0 m) (.alone ⟨t, []⟩) := by
  suffices hmeets : Meets (Convoy.mainLine b) (fun report m => ∃ promoting listing,
      Reported t promoting listing m.known report ∧ Waits b [] 0 m) (fun _ _ => False) (Pass.run b) (.alone ⟨t, []⟩) by
    refine Keeps.mono (fun r m hend => ?_) hmeets
    cases r with
    | ok report =>
      obtain ⟨promoting, listing, hreported⟩ := hend
      exact ⟨report, promoting, listing, rfl, hreported⟩
    | error e => exact hend.elim
  refine Pass.meets_run
    (fun p m => ∃ promoting listing, Tally b (.opened t promoting listing) (agenda t promoting listing)
      ((JobStatement.promote promoting).run t).1 [] p.uploads p m)
    (fun p m => ∃ promoting listing, Tally b (.opened t promoting listing) (agenda t promoting listing)
      ((JobStatement.promote promoting).run t).1 [] 0 p m) ?_ ?_ ?_
  · refine Meets.mono ?_ (fun _ _ hfalse => hfalse) (meets_alone (Chronicle.meets_promote ⟨t, []⟩))
    rintro promoted _ ⟨_, rfl, promoting, rfl, rfl⟩
    refine Meets.mono ?_ (fun _ _ hfalse => hfalse)
      (meets_alone (Chronicle.meets_due (b := b) (JobTable.keyed_run h (.promote promoting)) ?_))
    · rintro due _ ⟨w, rfl, listing, hjobs, hroster, hpast⟩
      have hstart := Tally.begun (t := t) hjobs hroster hpast
      refine ⟨fun hnone => ?_, fun _ => ?_⟩
      · rw [hnone] at hstart
        exact ⟨promoting, listing, hstart.reported, hstart.waits⟩
      · refine Meets.mono (fun seen m hseen => ?_) (fun _ _ hfalse => hfalse)
          (meets_look_runJobs (p := opening _ _) (listing_agenda h promoting listing) hstart)
        exact Meets.mono (fun _ _ htally => ⟨promoting, listing, htally⟩) (fun _ _ hfalse => hfalse) hseen
    · exact List.forall_mem_cons.mpr ⟨rfl, List.forall_mem_cons.mpr ⟨rfl, fun _ hd => nomatch hd⟩⟩
  · rintro p m ⟨promoting, listing, htally⟩
    exact Meets.mono (fun _ _ h => ⟨promoting, listing, h⟩) (fun _ _ hfalse => hfalse) (meets_joinUploads htally)
  · rintro p m ⟨promoting, listing, htally⟩
    refine ⟨fun _ => ⟨promoting, listing, htally.reported, htally.waits⟩, fun e he => ?_⟩
    exact nomatch he.symm.trans htally.adds.fatal

end MainLine

/-! ## The whole pass -/

/-- The pass is at its end: it reports, no upload is left, and no job is under way. -/
structure Ended (b : Backup) (t : JobTable) (report : PassReport) (c : Crew (Except Stop PassReport)) (w : Chronicle) :
    Prop where
  main : c.main = .done (.ok report)
  uploads : c.uploads = []
  reported : ∃ promoting listing, Reported t promoting listing w.past report
  standing : Standing b w
  idle : underway w.past = []

/-- Where nothing fails a pass comes to its end. -/
theorem comes_to_end {b : Backup} {t : JobTable} (hpermits : 0 < b.permits) (h : t.Keyed) :
    Comes (Crew.Turn b Chronicle.Unfailing) (fun a => ∃ report, Ended b t report a.1 a.2)
      (Recovery.fresh b, ⟨t, []⟩) := by
  have hholds : (Convoy.guide b).Holds (fun r m => ∃ report promoting listing, r = .ok report ∧
      Reported t promoting listing m.known report ∧ Waits b [] 0 m) (Recovery.fresh b) ⟨t, []⟩ :=
    ⟨.alone ⟨t, []⟩, [], run_keeps b h, rfl, fun _ hu => (nomatch hu), rfl, rfl, rfl⟩
  refine (Guide.comes_to_end hpermits Chronicle.exists_unfailing hholds).mono ?_
  rintro ⟨c, w⟩ ⟨⟨r, hr⟩, hnone, m, row, hmain, hrow, -, hinv⟩
  rw [hr] at hmain
  obtain ⟨report, promoting, listing, rfl, hreported, hwaits⟩ := hmain
  obtain rfl : row = [] := List.map_eq_nil_iff.mp (hrow.symm.trans hnone)
  refine ⟨report, ?_⟩
  cases m with
  | alone u =>
    obtain ⟨rfl, -, -⟩ := hinv
    obtain ⟨-, waiting, hroster, -⟩ := hwaits
    exact ⟨hr, hnone, ⟨promoting, listing, hreported⟩, hroster.standing, hroster.underway⟩
  | convoy before todo hand =>
    obtain ⟨rfl, -⟩ := hwaits
    have habreast : Convoy.Abreast b w before todo none [] c.ended := hinv
    exact ⟨hr, hnone, ⟨promoting, listing, hreported.mono habreast.before⟩, habreast.standing,
      habreast.underway.nil_eq.symm⟩

/-- **The report adds up.**  Whatever the network and the host answer, where nobody else writes to the table and the
    database does not fail, a pass ends with a report that counts what was promoted, and every due job once. -/
theorem report_adds_up {b : Backup} {t : JobTable} (hpermits : 0 < b.permits) (h : t.Keyed) :
    Comes (Crew.Turn b Chronicle.Unfailing) (fun a => ∃ report promoting listing,
      a.1.main = .done (.ok report) ∧ a.1.uploads = [] ∧ Reported t promoting listing a.2.past report)
      (Recovery.fresh b, ⟨t, []⟩) := by
  refine (comes_to_end hpermits h).mono fun a ⟨report, hended⟩ => ?_
  obtain ⟨promoting, listing, hreported⟩ := hended.reported
  exact ⟨report, promoting, listing, hended.main, hended.uploads, hreported⟩

/-- The row of a dispatch that was tried before. -/
def triedDispatch : JobRow := .ofJob { Job.fresh .dispatch .epoch with attempt := 1 }

/-- The row of a scan that waits for another attempt. -/
def waitingScan : JobRow := .ofJob { Job.fresh .scan .epoch with state := .retrying, attempt := 1 }

theorem keyed_dispatch_scan : JobTable.Keyed [triedDispatch, waitingScan] := List.pairwise_pair.mpr (by decide)

/-- The pass over both: the scan may replace the dispatch before its turn comes. -/
theorem report_adds_up_dispatch_scan : 0 < Dispatching.photos.permits ∧ JobTable.Keyed [triedDispatch, waitingScan] ∧
    Comes (Crew.Turn Dispatching.photos Chronicle.Unfailing) (fun a => ∃ report promoting listing,
      a.1.main = .done (.ok report) ∧ a.1.uploads = [] ∧
      Reported [triedDispatch, waitingScan] promoting listing a.2.past report)
      (Recovery.fresh Dispatching.photos, ⟨[triedDispatch, waitingScan], []⟩) :=
  ⟨by decide, keyed_dispatch_scan, report_adds_up (by decide) keyed_dispatch_scan⟩

end Reports

end MediaBackup
