import MediaBackup.Proofs.Pass.Standing
import MediaBackup.Proofs.Queue.Rounds

/-
  The work at a scan or dispatch, as the main line of a pass does it alone.

  It is followed by the chronicle itself.  While it goes on no job is claimed or completed (`Working`), and each of its
  calls keeps the jobs standing: of the statements that it runs only requests write, and a request writes the row of a
  key under which nothing waits or runs, but for the dispatch that a scan requests.  The outcome that it comes to is
  then written, which settles the job (`meets_work`).
-/

namespace MediaBackup

namespace Chronicle

open Script

variable {w v : Chronicle} {bad : Stop → Chronicle → Prop}

/-! ## Programs that are run alone -/

/-- The protocol of a program that is run alone where nothing fails. -/
abbrev alone : Protocol Call Call.Answer Chronicle := Protocol.alone Unfailing

theorem meets_now {good : Instant → Chronicle → Prop} :
    Meets alone good bad Engine.now w ↔ ∀ t : Instant, t.IsDate → good t (w.write .now t w.jobs) := by
  rw [Engine.meets_now]
  constructor
  · exact fun ⟨_, h⟩ t hdate => h t _ ⟨rfl, _, ⟨hdate, rfl⟩, rfl⟩
  · refine fun h => ⟨trivial, ?_⟩
    rintro t _ ⟨-, _, ⟨hdate, rfl⟩, rfl⟩
    exact h t hdate

theorem meets_jobs {st : JobStatement} {good : st.Answer → Chronicle → Prop} :
    Meets alone good bad (Engine.jobs st) w ↔
      good (st.run w.jobs).1 (w.write (.jobs st) (.ok (st.run w.jobs).1) (st.run w.jobs).2) := by
  rw [Engine.meets_jobs]
  constructor
  · exact fun ⟨_, h, _⟩ => h _ _ ⟨rfl, _, ⟨rfl, rfl⟩, rfl⟩
  · refine fun h => ⟨trivial, ?_, ?_⟩
    · rintro _ _ ⟨-, _, ⟨rfl, rfl⟩, rfl⟩
      exact h
    · rintro fault _ ⟨hnone, -⟩
      exact nomatch hnone

theorem meets_emit {e : SyncEvent} {good : Unit → Chronicle → Prop} :
    Meets alone good bad (Engine.emit e) w ↔ good () (w.write (.emit (.sync e)) () w.jobs) := by
  rw [Engine.meets_emit]
  constructor
  · exact fun ⟨_, h⟩ => h () _ ⟨rfl, _, rfl, rfl⟩
  · refine fun h => ⟨trivial, ?_⟩
    rintro _ _ ⟨-, _, rfl, rfl⟩
    exact h

theorem Quietly.trans {u : Chronicle} (h : w.Quietly v) (h' : v.Quietly u) : w.Quietly u := by
  obtain ⟨hjobs, more, hmore, hquiet⟩ := h
  obtain ⟨hjobs', more', hmore', hquiet'⟩ := h'
  refine ⟨hjobs'.trans hjobs, more' ++ more, by rw [hmore', hmore, List.append_assoc], fun d hd => ?_⟩
  exact (List.mem_append.mp hd).elim (hquiet' d) (hquiet d)

theorem Quietly.past_suffix (h : w.Quietly v) : w.past <:+ v.past := by
  obtain ⟨-, more, hmore, -⟩ := h
  exact ⟨more, hmore.symm⟩

theorem Quietly.write {c : Call} {x : c.Answer} (h : (⟨c, x, w.jobs, w.jobs⟩ : Entry).turn = .nothing) :
    w.Quietly (w.write c x w.jobs) :=
  ⟨rfl, [_], rfl, fun d hd => by rwa [List.mem_singleton.mp hd]⟩

/-- Only statements on the table of jobs are a matter of jobs. -/
theorem turn_of_ne_jobs {c : Call} (hc : ∀ st, c ≠ .jobs st) (x : c.Answer) (t u : JobTable) :
    (⟨c, x, t, u⟩ : Entry).turn = .nothing := by
  cases c with
  | jobs st => exact absurd rfl (hc st)
  | _ => rfl

/-- And only they write to it. -/
theorem Unfailing.eq_write {c : Call} {x : c.Answer} (h : Unfailing w c x v) (hc : ∀ st, c ≠ .jobs st) :
    v = w.write c x w.jobs := by
  obtain ⟨-, after, hanswers, rfl⟩ := h
  rw [hanswers.table_eq.resolve_right fun ⟨st, heq, _⟩ => hc st heq]

theorem Unfailing.quietly {c : Call} {x : c.Answer} (h : Unfailing w c x v) (hc : ∀ st, c ≠ .jobs st) : w.Quietly v :=
  h.eq_write hc ▸ .write (turn_of_ne_jobs hc x w.jobs w.jobs)

/-- A statement on the table is run, and gives its answer. -/
theorem Unfailing.of_jobs {st : JobStatement} {x : Except StoreFault st.Answer} (h : Unfailing w (.jobs st) x v) :
    x = .ok (st.run w.jobs).1 ∧ v = w.write (.jobs st) x (st.run w.jobs).2 := by
  obtain ⟨hnone, after, hanswers, rfl⟩ := h
  cases x with
  | error fault => exact nomatch hnone
  | ok y =>
    obtain ⟨rfl, rfl⟩ := hanswers
    exact ⟨rfl, rfl⟩

theorem alone_silent : alone.Silent Quietly where
  trans _ _ _ := Quietly.trans
  mayNow _ := trivial
  now w x v h := by
    refine ⟨?_, h.quietly fun _ heq => nomatch heq⟩
    obtain ⟨-, _, ⟨hdate, -⟩, -⟩ := h
    exact hdate
  mayEmit _ _ := trivial
  emit _ _ _ h := h.quietly fun _ heq => nomatch heq

/-! ## The steps of a request -/

/-- The program is alone with its table. -/
theorem solitary : Solitary Unfailing Chronicle.jobs where
  now := by
    rintro w _ t ⟨-, _, ⟨hdate, rfl⟩, rfl⟩
    exact ⟨hdate, rfl⟩
  emit := by
    rintro w _ e x ⟨-, _, rfl, rfl⟩
    rfl
  run h := by
    obtain ⟨hx, rfl⟩ := h.of_jobs
    exact ⟨Except.ok.inj hx, rfl⟩

theorem not_fails (w : Chronicle) (st : JobStatement) (fault : StoreFault) (v : Chronicle)
    (h : Unfailing w (.jobs st) (.error fault) v) : False := nomatch h.1

section Steps

variable {key : String} {now : Instant}

theorem eq_of_finds {found : Option Decoded} (h : Finds Unfailing key w now found v) :
    v = (w.write .now now w.jobs).write (.jobs (.find key)) (.ok found) w.jobs := by
  obtain ⟨-, t, hnow, hfind⟩ := h
  obtain rfl := hnow.eq_write fun _ => Call.noConfusion
  exact hfind.of_jobs.2

theorem eq_of_givesUp {reason : RowFault} (h : GivesUp Unfailing key reason w now v) :
    v = ((w.write .now now w.jobs).write (.jobs (.quarantine key reason.message now)) (.ok ())
      ((JobStatement.quarantine key reason.message now).run w.jobs).2).write
        (.emit (.sync (.ledgerCorrupted key reason.message))) ()
        ((JobStatement.quarantine key reason.message now).run w.jobs).2 := by
  obtain ⟨-, t, u, hnow, hgiven, htold⟩ := h
  obtain rfl := hnow.eq_write fun _ => Call.noConfusion
  obtain rfl := hgiven.of_jobs.2
  exact htold.eq_write fun _ => Call.noConfusion

theorem eq_of_replaces {fresh existing : Job} (h : Replaces Unfailing fresh existing w v) :
    v = (w.write (.jobs (.replaceIf fresh existing)) (.ok true)
      ((JobStatement.replaceIf fresh existing).run w.jobs).2).write
        (.emit (.sync (.jobStateChanged fresh.key.text existing.state.name JobState.queued.name 0))) ()
        ((JobStatement.replaceIf fresh existing).run w.jobs).2 := by
  obtain ⟨u, hreplaced, htold⟩ := h
  obtain rfl := hreplaced.of_jobs.2
  exact htold.eq_write fun _ => Call.noConfusion

end Steps

end Chronicle

/-! ## While a job is worked at -/

/-- The jobs stand, and since the given past none was claimed or completed. -/
structure Working (b : Backup) (base : List Entry) (w : Chronicle) : Prop where
  standing : Standing b w
  since : ∃ told, w.past = told ++ base ∧ ∀ d ∈ told, d.turn = .nothing

namespace Working

open Script Chronicle

variable {b : Backup} {base : List Entry} {w v : Chronicle} {c : Job} {after : JobTable}

theorem start (h : Standing b w) : Working b w.past w := ⟨h, [], rfl, fun _ hd => nomatch hd⟩

/-- A job was claimed before the work began. -/
theorem sublist_of_grants (h : Working b base w) {told later earlier : List Entry} {d : Entry} {c : Job}
    (hpast : w.past = told ++ base) (hsplit : w.past = later ++ d :: earlier) (hgrants : d.Grants c) :
    told.Sublist later := by
  obtain ⟨more, hmore, hquiet⟩ := h.since
  obtain rfl : more = told := List.append_cancel_right (hmore.symm.trans hpast)
  have hnot : d ∉ more := fun hd => Entry.not_grants (hquiet d hd) c hgrants
  obtain ⟨rest, rfl, -⟩ := split_append hnot (hmore.symm.trans hsplit)
  exact List.sublist_append_left more rest

theorem waiting (h : Working b base w) : MediaBackup.waiting w.past = MediaBackup.waiting base := by
  obtain ⟨-, told, hpast, hquiet⟩ := h
  rw [hpast, waiting_append hquiet]

theorem underway (h : Working b base w) : MediaBackup.underway w.past = MediaBackup.underway base := by
  obtain ⟨-, told, hpast, hquiet⟩ := h
  rw [hpast, underway_append hquiet]

theorem write {call : Call} {x : call.Answer} (h : Working b base w) (hstanding : Standing b (w.write call x after))
    (hturn : (⟨call, x, w.jobs, after⟩ : Entry).turn = .nothing) : Working b base (w.write call x after) := by
  obtain ⟨-, told, hpast, hquiet⟩ := h
  refine ⟨hstanding, ⟨call, x, w.jobs, after⟩ :: told, congrArg _ hpast, fun d hd => ?_⟩
  rcases List.mem_cons.mp hd with rfl | hd
  · exact hturn
  · exact hquiet d hd

theorem quiet {call : Call} {x : call.Answer} (h : Working b base w)
    (hturn : (⟨call, x, w.jobs, w.jobs⟩ : Entry).turn = .nothing) : Working b base (w.write call x w.jobs) :=
  h.write (h.standing.quiet hturn) hturn

theorem quietly (h : Working b base w) (hv : w.Quietly v) : Working b base v := by
  obtain ⟨told, hpast, hquiet⟩ := h.since
  refine ⟨h.standing.quietly hv, ?_⟩
  obtain ⟨-, more, hmore, hquiet'⟩ := hv
  refine ⟨more ++ told, by rw [hmore, hpast, List.append_assoc], fun d hd => ?_⟩
  exact (List.mem_append.mp hd).elim (hquiet' d) (hquiet d)

/-- Minor calls go on with the work, and the table of items does not fail. -/
theorem answerable (b : Backup) (base : List Entry) :
    Engine.Answerable alone (Working b base) fun _ _ => False where
  call c hc w hw := by
    refine Engine.meets_call.mpr ⟨trivial, fun x v hx => hw.quietly (hx.quietly ?_)⟩
    rintro st rfl
    exact hc
  date w x v _ h := (alone_silent.now w x v h).1
  fault := by
    rintro st fault w v - ⟨hnone, -⟩
    exact nomatch hnone

/-! ## Requests -/

/-- A request looks at the clock and at its row. -/
theorem found {key : String} {now : Instant} {row : Option Decoded} (h : Working b base w)
    (hfinds : Finds Unfailing key w now row v) : Working b base v := by
  obtain rfl := eq_of_finds hfinds
  exact Working.quiet (h.quiet rfl) rfl

/-- A fresh row under a key that had none. -/
theorem insert (h : Working b base w) {job : Job} (hnone : w.jobs.row? job.key.text = none)
    (hqueued : job.state = .queued) (y : Bool) : Working b base
      (w.write (.jobs (.insertIfAbsent job)) (.ok y) ((JobStatement.insertIfAbsent job).run w.jobs).2) := by
  refine h.write (h.standing.rewrite rfl rfl (fun j hj hkey => ?_) (fun i hi hkey => ?_)
    fun row hrow hrunning => ?_) rfl
  · obtain ⟨row, _, hrow, -⟩ := (h.standing.waits j hj).exists_job
    exact nomatch (hkey ▸ hrow).symm.trans hnone
  · obtain ⟨-, row, hrow, -⟩ := h.standing.runs i hi
    exact nomatch (hkey ▸ hrow).symm.trans hnone
  · obtain rfl := Option.some.inj ((JobTable.sets_insertIfAbsent h.standing.keyed hnone).own.symm.trans hrow)
    exact absurd (JobState.name_injective hrunning) (hqueued ▸ JobState.noConfusion)

/-- A row is given up whose key is that of no job. -/
theorem giveUp (h : Working b base w) {key words : String} {now : Instant}
    (hwaits : ∀ j ∈ MediaBackup.waiting base, j.key.text ≠ key)
    (hruns : ∀ i ∈ MediaBackup.underway base, i.key.text ≠ key) (y : Unit) :
    Working b base
      (w.write (.jobs (.quarantine key words now)) (.ok y) ((JobStatement.quarantine key words now).run w.jobs).2) := by
  have hnone : ∀ j ∈ MediaBackup.waiting w.past, j.key.text ≠ key := h.waiting ▸ hwaits
  refine h.write (h.standing.rewrite rfl rfl (fun j hj hkey => absurd hkey (hnone j hj)) (h.underway ▸ hruns)
    fun row hrow hrunning => ?_) rfl
  -- if there is a row, it was given up
  have heffect := JobTable.row?_run h.standing.keyed (.quarantine key words now) key
  rw [hrow] at heffect
  obtain ⟨given, hgiven, rfl⟩ := Option.map_eq_some_iff.mp heffect.symm
  rw [if_pos (beq_iff_eq.mpr (JobTable.key_of_row? hgiven))] at hrunning
  exact absurd hrunning (by decide : "abandoned" ≠ JobState.running.name)

/-- A fresh row takes the place of one that gives way.  If a job waits under the key, it is a dispatch that a scan
    replaces. -/
theorem replace (h : Working b base w) {r : JobRequest} {now : Instant} {row : JobRow} {existing : Job}
    (hdate : now.IsDate) (hrow : w.jobs.row? r.key.text = some row) (hsaid : row.Says existing)
    (hreplaceable : existing.isReplaceable = true) (hruns : ∀ i ∈ MediaBackup.underway base, i.key.text ≠ r.key.text)
    (hscan : r.key.isUpload = false → r = .dispatch ∧ ∃ c ∈ MediaBackup.underway base, c.key = .scan) :
    Working b base (w.write (.jobs (.replaceIf (.fresh r now) existing)) (.ok true)
      ((JobStatement.replaceIf (.fresh r now) existing).run w.jobs).2) := by
  have hkey : existing.key = r.key := JobKey.text_injective (hsaid.key.symm.trans (JobTable.key_of_row? hrow))
  have hset : w.jobs.Sets (Job.fresh r now).key (.ofJob (.fresh r now))
      ((JobStatement.replaceIf (.fresh r now) existing).run w.jobs).2 :=
    JobTable.sets_replaceIf h.standing.keyed hkey hrow hsaid.isObserved
  refine h.write (h.standing.rewrite rfl rfl (fun j hj hj' => ?_) (h.underway ▸ hruns) fun r' hr' hrunning => ?_) rfl
  · obtain ⟨hqueued, row', hrow', hwaits⟩ := h.standing.waits j hj
    have hjkey : j.key = r.key := JobKey.text_injective hj'
    obtain rfl := Option.some.inj ((hjkey ▸ hrow').symm.trans hrow)
    have hdispatch : j.key.isUpload = false → j.key = .dispatch ∧ r = .dispatch ∧
        ∃ c ∈ MediaBackup.underway w.past, c.key = .scan := by
      intro hupload
      obtain ⟨rfl, hc⟩ := hscan (hjkey ▸ hupload)
      exact ⟨hjkey, rfl, h.underway ▸ hc⟩
    rcases hwaits with hwaits | ⟨hkey', hreplaced, -⟩
    · -- the row is that of the job, so the job is the one that gives way
      obtain rfl : existing = j := Decoded.valid.inj
        ((JobRow.decode_eq_valid_iff.mpr hsaid).symm.trans (JobRow.decode_eq_valid_iff.mpr hwaits))
      have hnot : existing.key.isUpload = false := by
        unfold Job.isReplaceable at hreplaceable
        rw [hqueued] at hreplaceable
        exact (Bool.not_eq_true' _).mp hreplaceable
      obtain ⟨hkey', rfl, hc⟩ := hdispatch hnot
      refine ⟨hqueued, _, hjkey ▸ hset.own, .inr ⟨hkey', ⟨[], now, _, _, w.past, rfl, hc⟩, now, hdate, rfl⟩⟩
    · obtain ⟨-, rfl, -⟩ := hdispatch (hkey' ▸ rfl)
      exact ⟨hqueued, _, hjkey ▸ hset.own, .inr ⟨hkey', hreplaced.append [_], now, hdate, rfl⟩⟩
  · obtain rfl := Option.some.inj (hset.own.symm.trans hr')
    exact absurd hrunning (by decide : JobState.queued.name ≠ JobState.running.name)

/-- A request that is made in the work at a job goes on with it. -/
theorem upholds_enqueueWithin (hbase : MediaBackup.underway base = [c]) {r : JobRequest} (hr : c.key.Requests r)
    (rounds : Nat) :
    Engine.Upholds alone (Working b base) (fun _ _ => False) (Queue.enqueueWithin r rounds) := by
  have hruns : ∀ i ∈ MediaBackup.underway base, i.key.text ≠ r.key.text := by
    intro i hi heq
    rw [hbase, List.mem_singleton] at hi
    exact hr.ne_key (hi ▸ JobKey.text_injective heq)
  have hscan : r.key.isUpload = false → r = .dispatch ∧ ∃ c ∈ MediaBackup.underway base, c.key = .scan :=
    fun hnot => (hr.of_housekeeping hnot).imp_right fun hk => ⟨c, hbase ▸ .head _, hk⟩
  induction rounds with
  | zero => exact Engine.upholds_fail rfl
  | succ rounds ih =>
    intro w hw
    refine Queue.meets_round solitary hw.standing.keyed (fun w st fault v h => (not_fails w st fault v h).elim) rounds
      ?_ ?_ ?_ ?_
    · intro now u v hfinds hnone hadds
      obtain rfl := hadds.of_jobs.2
      exact (hw.found hfinds).insert ((solitary.jobs_of_finds hfinds).1 ▸ hnone) rfl true
    · exact fun now u row j hfinds _ _ _ _ => hw.found hfinds
    · intro now u v row j hfinds hrow hj _ hgives hreplaces
      obtain rfl := eq_of_replaces hreplaces
      have hrow' : u.jobs.row? r.key.text = some row := (solitary.jobs_of_finds hfinds).1 ▸ hrow
      exact ((hw.found hfinds).replace hfinds.1 hrow' hj hgives hruns hscan).quiet rfl
    · intro now u later v row reason hfinds hrow hdecode hgiven
      obtain rfl := eq_of_givesUp hgiven
      have hfound : Working b base u := hw.found hfinds
      have hrow' : u.jobs.row? r.key.text = some row := (solitary.jobs_of_finds hfinds).1 ▸ hrow
      have hnone := hfound.waiting ▸ hfound.standing.ne_of_corrupt hrow' hdecode
      have hclocked : Working b base (u.write .now later u.jobs) := hfound.quiet rfl
      exact ih _ ((hclocked.giveUp hnone hruns ()).quiet rfl)

end Working

/-! ## One job after another -/

/-- The jobs stand; those of the one list wait, and those of the other are under way. -/
structure Roster (b : Backup) (jobs ups : List Job) (w : Chronicle) : Prop where
  standing : Standing b w
  waiting : waiting w.past = jobs
  underway : underway w.past = ups

theorem Roster.quietly {b : Backup} {jobs ups : List Job} {w v : Chronicle} (h : Roster b jobs ups w)
    (hv : w.Quietly v) : Roster b jobs ups v := by
  obtain ⟨hstanding, rfl, rfl⟩ := h
  refine ⟨hstanding.quietly hv, ?_, ?_⟩
  · obtain ⟨-, more, hmore, hquiet⟩ := hv
    rw [hmore, waiting_append hquiet]
  · obtain ⟨-, more, hmore, hquiet⟩ := hv
    rw [hmore, underway_append hquiet]

namespace Chronicle

open Script

variable {b : Backup} {jobs : List Job} {w : Chronicle} {c j : Job}

/-! ## What a pass begins with -/

/-- The jobs whose wait is over are queued. -/
theorem meets_promote (w : Chronicle) :
    Meets alone (fun n v => ∃ now : Instant,
      n = ((JobStatement.promote now).run w.jobs).1 ∧ v = (w.write .now now w.jobs).write (.jobs (.promote now))
        (.ok ((JobStatement.promote now).run w.jobs).1) ((JobStatement.promote now).run w.jobs).2)
      (fun _ _ => False) Queue.promote w := by
  unfold Queue.promote
  rw [meets_bind, meets_now]
  exact fun now _ => meets_jobs.mpr ⟨now, rfl, rfl⟩

/-- Sifting gives up the rows that hold no job. -/
theorem meets_sift {base : List Entry} {rows : List Decoded} (d : DueJobs) (h : Working b base w)
    (hidle : underway base = [])
    (hcorrupt : ∀ key reason, .corrupt key reason ∈ rows → ∀ j ∈ waiting base, j.key.text ≠ key) :
    Meets alone (fun d' v => d'.jobs = d.jobs ++ Gating.validJobs rows ∧ Working b base v) (fun _ _ => False)
      (Queue.sift rows d) w := by
  induction rows generalizing d w with
  | nil => exact ⟨(List.append_nil _).symm, h⟩
  | cons row rows ih =>
    have hrest : ∀ key reason, .corrupt key reason ∈ rows → ∀ j ∈ waiting base, j.key.text ≠ key :=
      fun key reason hmem => hcorrupt key reason (.tail _ hmem)
    cases row with
    | valid j =>
      refine Meets.mono (fun d' v hd => ?_) (fun _ _ he => he) (ih { d with jobs := d.jobs ++ [j] } h hrest)
      exact ⟨hd.1.trans (List.append_assoc ..), hd.2⟩
    | corrupt key reason =>
      unfold Queue.sift Queue.quarantine
      rw [meets_bind, meets_bind, meets_now]
      intro now _
      refine meets_bind.mpr (meets_jobs.mpr (meets_emit.mpr ?_))
      have hclocked : Working b base (w.write .now now w.jobs) := h.quiet rfl
      have hruns : ∀ i ∈ underway base, i.key.text ≠ key := fun i hi => absurd (hidle ▸ hi) List.not_mem_nil
      exact ih { d with quarantined := d.quarantined + 1 }
        ((hclocked.giveUp (hcorrupt key reason (.head _)) hruns ()).quiet rfl) hrest

/-- The jobs that are due wait, and housekeeping comes first. -/
theorem meets_due (hkeyed : w.jobs.Keyed) (hpast : ∀ d ∈ w.past, d.turn = .nothing) :
    Meets alone (fun d v => ∃ now : Instant,
      d.jobs = (DueJobs.arrange ⟨Gating.validJobs ((JobStatement.listDue now).run w.jobs).1, 0⟩).jobs ∧
      Roster b (Gating.validJobs ((JobStatement.listDue now).run w.jobs).1) [] v ∧
      ((w.write .now now w.jobs).write (.jobs (.listDue now)) (.ok ((JobStatement.listDue now).run w.jobs).1)
        w.jobs).past <:+ v.past)
      (fun _ _ => False) Queue.due w := by
  unfold Queue.due
  rw [meets_bind, meets_now]
  intro now _
  refine meets_bind.mpr (meets_jobs.mpr (meets_map.mpr ?_))
  have hclocked : ∀ d ∈ (w.write .now now w.jobs).past, d.turn = .nothing := List.forall_mem_cons.mpr ⟨rfl, hpast⟩
  have hidle := underway_of_nothing hclocked
  have hnone : Standing b (w.write .now now w.jobs) := .of_nothing hkeyed hclocked
  have hlisted := hnone.list hidle (fun d hd => Entry.not_grants (hclocked d hd)) now
  refine Meets.mono (fun d v hd => ?_) (fun _ _ he => he) (meets_sift ⟨[], 0⟩ (.start hlisted) hidle ?_)
  · obtain ⟨hjobs, hworking⟩ := hd
    obtain ⟨told, htold, -⟩ := hworking.since
    refine ⟨now, ?_, ⟨hworking.standing, hworking.waiting, hworking.underway.trans hidle⟩, told, htold.symm⟩
    show d.jobs.filter _ ++ d.jobs.filter _ = _
    rw [hjobs]
    rfl
  · exact fun key reason hmem j hj => Gating.ne_of_listDue hkeyed (Gating.mem_validJobs.mp hj) hmem

/-! ## Claims and work -/

/-- A claim of a job that waits is granted, unless a scan replaced it and it was tried before. -/
theorem meets_claim (h : Roster b jobs [] w) (hj : j ∈ jobs) :
    Meets alone (fun o v => w.past <:+ v.past ∧ match o with
      | some c => Roster b (jobs.filter (·.key ≠ j.key)) [c] v
      | none => Roster b jobs [] v ∧ j.key = .dispatch ∧ j.attempt ≠ 0 ∧ Replaced v.past j) (fun _ _ => False)
      (Queue.claim j) w := by
  have hwaits := h.standing.waits j (h.waiting.symm ▸ hj)
  refine Queue.meets_claim_clocked alone_silent (fun hnot => absurd hwaits.1 hnot) ?_
  rintro - now _ ⟨-, _, ⟨-, rfl⟩, rfl⟩
  have hnow : w.Quietly (w.write .now now w.jobs) := .write rfl
  have hclocked := h.quietly hnow
  have hanswer := JobTable.answer_updateIf h.standing.keyed j (j.claimChange now)
  refine ⟨trivial, ?_, ?_, fun fault _ ⟨hnone, _⟩ => nomatch hnone⟩
  · rintro _ ⟨-, _, ⟨htrue, rfl⟩, rfl⟩ u hu
    rcases hwaits.current_or with ⟨row, hrow, hcurrent⟩ | ⟨⟨row, hrow, hnot⟩, -⟩
    · have hclaimed := hclocked.standing.claim (hclocked.waiting.symm ▸ hj) hrow hcurrent now
      refine ⟨(hnow.past_suffix.trans (List.suffix_cons _ _)).trans hu.past_suffix, ?_⟩
      refine Roster.quietly ⟨hclaimed, ?_, ?_⟩ hu
      · exact (waiting_grants Entry.turn_claim).trans (congrArg _ hclocked.waiting)
      · exact (underway_grants Entry.turn_claim).trans (congrArg _ hclocked.underway)
    · rw [hrow, Option.any_some, hnot] at hanswer
      exact nomatch htrue.trans hanswer
  · rintro _ ⟨-, _, ⟨hfalse, rfl⟩, rfl⟩
    rcases hwaits.current_or with ⟨row, hrow, hcurrent⟩ | ⟨⟨row, hrow, hnot⟩, hkey, hattempt, hreplaced⟩
    · rw [hrow, Option.any_some, hcurrent] at hanswer
      exact nomatch hfalse.trans hanswer
    · have hsame : (JobStatement.updateIf j (j.claimChange now)).run w.jobs = (false, w.jobs) := by
        refine JobTable.run_updateIf_of_not_isCurrent h.standing.keyed (fun r hr => ?_) _
        exact Option.some.inj (hrow.symm.trans hr) ▸ hnot
      have hquiet : w.Quietly ((w.write .now now w.jobs).write (.jobs (.updateIf j (j.claimChange now))) (.ok false)
          ((JobStatement.updateIf j (j.claimChange now)).run w.jobs).2) := by
        rw [hsame]
        exact hnow.trans (.write rfl)
      obtain ⟨more, hmore⟩ := hquiet.past_suffix
      exact ⟨hquiet.past_suffix, h.quietly hquiet, hkey, hattempt, hmore ▸ hreplaced.append more⟩

/-- What the work at the one job under way comes to, and by which entries. -/
theorem meets_outcome (h : Roster b jobs [c] w) :
    Meets alone (fun o v => Working b w.past v ∧ ∃ told, v.past = told ++ w.past ∧ (b.outcome c).LedTo told o)
      (fun _ _ => False) (b.outcome c) w := by
  have hupholds : Meets alone (fun _ v => Working b w.past v) (fun _ _ => False) (b.outcome c) w :=
    Meets.mono (fun _ _ h => h) (fun _ _ h => h.2) ((Working.answerable b w.past).meets_outcome (.start h.standing)
      fun r hr => Working.upholds_enqueueWithin h.underway hr _)
  refine Engine.meets_ledTo ?_ hupholds rfl
  rintro v told call x _ hpast - hx
  obtain ⟨-, after, -, rfl⟩ := id hx
  exact ⟨⟨call, x, v.jobs, after⟩ :: told, ⟨hx.isDated, _, _, rfl⟩, congrArg _ hpast⟩

/-- The work at the one job under way ends with its completion. -/
theorem meets_work (h : Roster b jobs [c] w) :
    Meets alone (fun state v => state.IsResult ∧ w.past <:+ v.past ∧ Roster b jobs [] v) (fun _ _ => False) (b.work c)
      w := by
  have hrunning : c.state = .running := (h.standing.runs c (h.underway.symm ▸ .head _)).1
  refine Engine.meets_work (meets_outcome h) ?_
  rintro o v ⟨hworking, told, hpast, hled⟩
  refine Queue.meets_complete_clocked alone_silent (fun hnot => absurd hrunning hnot) ?_
  rintro - now _ ⟨-, _, ⟨-, rfl⟩, rfl⟩ verdict hverdict
  have hresult : verdict.state.IsResult := hverdict ▸ (Verdict.gives_of (b.retry.policy c.key) c now o).isResult
  have hclocked : Working b w.past (v.write .now now v.jobs) := hworking.quiet rfl
  have hin : c ∈ underway (v.write .now now v.jobs).past := by
    rw [hclocked.underway, h.underway]
    exact .head _
  obtain ⟨-, row, hrow, hcurrent⟩ := hclocked.standing.runs c hin
  have hanswer := JobTable.answer_updateIf hclocked.standing.keyed c (verdict.change c now)
  rw [hrow, Option.any_some, hcurrent] at hanswer
  refine ⟨trivial, ?_, ?_, fun fault _ ⟨hnone, _⟩ => nomatch hnone⟩
  · rintro _ ⟨-, _, ⟨-, rfl⟩, rfl⟩ u hu
    have hsince : ∀ later d earlier, (v.write .now now v.jobs).past = later ++ d :: earlier → d.Grants c →
        (⟨.now, now, v.jobs, v.jobs⟩ :: told : List Entry).Sublist later :=
      fun later d earlier hsplit hgrants => hclocked.sublist_of_grants (congrArg _ hpast) hsplit hgrants
    have hturn : (⟨.jobs (.updateIf c (verdict.change c now)), .ok true, v.jobs,
        ((JobStatement.updateIf c (verdict.change c now)).run v.jobs).2⟩ : Entry).turn = .closes c :=
      Entry.turn_complete hresult.ne_running
    refine ⟨hresult, ?_, Roster.quietly ⟨hclocked.standing.settle hin hverdict hled hsince, ?_, ?_⟩ hu⟩
    · refine List.IsSuffix.trans ⟨told, hpast.symm⟩ ?_
      exact ((List.suffix_cons _ _).trans (List.suffix_cons _ _)).trans hu.past_suffix
    · exact (waiting_closes hturn).trans (hclocked.waiting.trans h.waiting)
    · refine (underway_closes hturn).trans ?_
      rw [hclocked.underway, h.underway]
      exact List.erase_cons_head c []
  · rintro _ ⟨-, _, ⟨hfalse, -⟩, -⟩
    exact nomatch hfalse.trans hanswer

end Chronicle

end MediaBackup
