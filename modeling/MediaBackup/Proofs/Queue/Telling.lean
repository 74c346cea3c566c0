import MediaBackup.Proofs.Queue.Healing
import MediaBackup.Proofs.Workers.Lifecycle
import MediaBackup.Proofs.Workers.Sane

/-
  What a writer of the queue did, what it told, and what it returned.

  A request, a claim and a completion each write to the table, tell listeners, and return a value that they make up from
  the copy that they were given.  The three belong together.  Whoever returns that it wrote wrote one row, where it
  stood, and told the one change of state that this row went through (`Rewrites`); whoever returns that it wrote nothing
  left the table and told nothing (`Leaves`).

  Each of them is run alone here, on a table that workers left (`Workers.Run`), and a copy is any that one of them read
  or that a claim returned, at any time.  So the columns of the row of its key may have moved on.  An update compares the
  state and the count of attempts, and these are what is told; the other columns are told from what was written.
-/

namespace MediaBackup

/-- What listeners were told at a call. -/
def Entry.event? : Entry → Option Event
  | ⟨.emit e, _, _, _⟩ => some e
  | _ => none

/-- What listeners were told, in order. -/
def heard (told : List Entry) : List Event := (told.filterMap Entry.event?).reverse

/-- What is told of a job that took the place of another one: that it was given up, if it was, and the change of
    state. -/
def Job.news (i j : Job) : List Event :=
  j.abandonReason.toList.map (fun reason => .sync (.jobAbandoned j.key.text reason.name j.lastError)) ++
    [.sync (.jobStateChanged j.key.text i.state.name j.state.name j.attempt)]

/-- One row was written, where it stood, and listeners were told of it. -/
structure Rewrites (told : List Entry) (t u : JobTable) (i j : Job) : Prop where
  rows : ∃ left old new right, t = left ++ old :: right ∧ u = left ++ new :: right ∧ old.Says i ∧ new.Says j
  key : i.key = j.key
  events : heard told = i.news j
  /-- Of a job that is given up, and of no other, a reason is told. -/
  reason_iff : j.abandonReason.isSome = true ↔ j.state = .abandoned

/-- Nothing was written and nothing told. -/
structure Leaves (told : List Entry) (t u : JobTable) : Prop where
  rows : u = t
  events : heard told = []

/-- Where no two rows have one key, a write to the row of a key writes one row, where it stands. -/
theorem JobTable.exists_split_mapWhere {t : JobTable} (hk : t.Keyed) {key : String} {row : JobRow}
    (hrow : t.row? key = some row) {p : JobRow → Bool} (hp : p row = true) (honly : ∀ r, p r = true → r.key = key)
    (f : JobRow → JobRow) :
    ∃ left right, t = left ++ row :: right ∧ t.mapWhere p f = left ++ f row :: right := by
  obtain ⟨left, right, rfl⟩ := List.append_of_mem (JobTable.mem_of_row? hrow)
  refine ⟨left, right, rfl, ?_⟩
  have hnodup : (row.key :: (left ++ right).map JobRow.key).Nodup := by
    have hk : ((left ++ row :: right).map JobRow.key).Nodup := hk
    rw [List.map_append, List.map_cons, List.perm_middle.nodup_iff, ← List.map_append] at hk
    exact hk
  have hother : ∀ r ∈ left ++ right, (if p r then f r else r) = r := by
    intro r hr
    refine if_neg fun hpr => (List.nodup_cons.mp hnodup).1 ?_
    rw [honly row hp, ← honly r hpr]
    exact List.mem_map_of_mem hr
  have hleft : left.map (fun r => if p r then f r else r) = left :=
    (List.map_congr_left fun r hr => hother r (List.mem_append_left _ hr)).trans (List.map_id' left)
  have hright : right.map (fun r => if p r then f r else r) = right :=
    (List.map_congr_left fun r hr => hother r (List.mem_append_right _ hr)).trans (List.map_id' right)
  unfold JobTable.mapWhere
  rw [List.map_append, List.map_cons, hleft, hright, if_pos hp]

namespace Chronicle

open Script

variable {w : Chronicle} {told : List Entry}

/-- However the program is answered, it ends, and its result, its entries and the table satisfy `post`. -/
def Ends {α : Type} (p : Engine α) (w : Chronicle) (post : Except Stop α → List Entry → JobTable → Prop) : Prop :=
  Comes (Script.Goes Unfailing) (fun a => ∃ result told, a.1 = .done result ∧ a.2.past = told ++ w.past ∧
    post result told a.2.jobs) (p.run, w)

theorem Ends.mono {α : Type} {p : Engine α} {post post' : Except Stop α → List Entry → JobTable → Prop}
    (h : Ends p w post) (hpost : ∀ result told u, post result told u → post' result told u) : Ends p w post' := by
  refine Comes.mono h ?_
  rintro a ⟨result, told, hdone, hpast, hend⟩
  exact ⟨result, told, hdone, hpast, hpost _ _ _ hend⟩

theorem ends_of_meets {α : Type} {p : Engine α} {post : Except Stop α → List Entry → JobTable → Prop}
    (h : Meets alone (fun a v => ∃ told, v.past = told ++ w.past ∧ post (.ok a) told v.jobs)
      (fun e v => ∃ told, v.past = told ++ w.past ∧ post (.error e) told v.jobs) p w) : Ends p w post := by
  refine (Script.comes_of_keeps exists_unfailing h).mono ?_
  rintro ⟨q, v⟩ ⟨result, rfl, hend⟩
  cases result with
  | ok a =>
    obtain ⟨told, hpast, hpost⟩ := hend
    exact ⟨_, told, rfl, hpast, hpost⟩
  | error e =>
    obtain ⟨told, hpast, hpost⟩ := hend
    exact ⟨_, told, rfl, hpast, hpost⟩

/-! ## An update -/

/-- The row of a copy was written where it stood, as it had state and count of the copy. -/
structure Updated (c : Job) (change : Change) (row : JobRow) (t u : JobTable) : Prop where
  current : row.isCurrent c = true
  before : t.row? c.key.text = some row
  after : u.row? c.key.text = some (row.apply change)
  split : ∃ left right, t = left ++ row :: right ∧ u = left ++ row.apply change :: right

/-- An update writes the row of its copy if state and count are still those of the copy; else it writes nothing. -/
theorem run_updateIf {t : JobTable} (hk : t.Keyed) (c : Job) (change : Change) :
    (∃ row u, (JobStatement.updateIf c change).run t = (true, u) ∧ Updated c change row t u) ∨
      (JobStatement.updateIf c change).run t = (false, t) ∧
        ∀ row, t.row? c.key.text = some row → row.isCurrent c = false := by
  by_cases hcurrent : ∃ row, t.row? c.key.text = some row ∧ row.isCurrent c = true
  · obtain ⟨row, hrow, hcurrent⟩ := hcurrent
    have hanswer : ((JobStatement.updateIf c change).run t).1 = true := by
      rw [JobTable.answer_updateIf hk, hrow]
      exact hcurrent
    have hsplit := JobTable.exists_split_mapWhere hk hrow hcurrent (fun r hr => JobRow.key_of_isCurrent hr)
      (·.apply change)
    have hafter := (JobTable.sets_updateIf hk hrow hcurrent change).own
    exact .inl ⟨row, _, Prod.ext hanswer rfl, hcurrent, hrow, hafter, hsplit⟩
  · have hnone : ∀ row, t.row? c.key.text = some row → row.isCurrent c = false :=
      fun row hrow => eq_false_of_ne_true fun h => hcurrent ⟨row, hrow, h⟩
    exact .inr ⟨JobTable.run_updateIf_of_not_isCurrent hk hnone change, hnone⟩

/-- The job of the row had key, state and count of the copy. -/
theorem Updated.eq_of_says {c i : Job} {change : Change} {row : JobRow} {t u : JobTable} (h : Updated c change row t u)
    (hi : row.Says i) : i.key = c.key ∧ i.state = c.state ∧ i.attempt = c.attempt :=
  ⟨JobKey.text_injective (hi.key.symm.trans (JobRow.key_of_isCurrent h.current)), Workers.eq_of_isCurrent hi h.current⟩

/-- So what is told of the copy is what there is to tell of the job. -/
theorem Updated.rewrites {c i : Job} {change : Change} {row : JobRow} {t u : JobTable} (h : Updated c change row t u)
    (hi : row.Says i) (hc : change.IsProper)
    (hreason : change.abandonReason.isSome = true ↔ change.state = .abandoned)
    (hheard : heard told = c.news { c with
      state := change.state, attempt := change.attempt, lastError := change.lastError
      abandonReason := change.abandonReason }) :
    Rewrites told t u i (i.changed change) := by
  obtain ⟨left, right, ht, hu⟩ := h.split
  obtain ⟨hkey, hstate, -⟩ := h.eq_of_says hi
  refine ⟨⟨left, row, _, right, ht, hu, hi, hi.apply hc⟩, rfl, ?_, hreason⟩
  rw [hheard]
  unfold Job.news
  rw [← hstate, ← hkey]
  rfl

/-! ## Requests -/

/-- What a request did and told, by its outcome.  A fresh job takes the place even of one that is the same to the
    millisecond. -/
def RequestTells (r : JobRequest) (t : JobTable) (told : List Entry) (u : JobTable) : Enqueued → Prop
  | .inserted => ∃ now, u = t ++ [.ofJob (.fresh r now)] ∧ heard told = []
  | .replaced => ∃ i now, Rewrites told t u i (JobRow.stored (.fresh r now))
  | .dropped => Leaves told t u

theorem enqueue_tells {r : JobRequest} (hk : w.jobs.Keyed) (hall : Workers.AllCoherent w.jobs) (hr : r.key.IsProper) :
    Ends (Queue.enqueue r) w fun result told u => ∃ outcome, result = .ok outcome ∧
      RequestTells r w.jobs told u outcome := by
  refine ends_of_meets (Queue.meets_enqueue solitary hk hr (fun s st fault t h => (not_fails s st fault t h).elim)
    ?_ ?_ ?_ ?_)
  · intro now u v hfinds hnone hadds
    obtain rfl := eq_of_finds hfinds
    obtain rfl := hadds.of_jobs.2
    refine ⟨[_, _, _], rfl, _, rfl, now, ?_, rfl⟩
    have hfree : ¬ w.jobs.any (·.key == r.key.text) = true := by
      rw [JobTable.any_key_eq, hnone]
      exact Bool.false_ne_true
    exact congrArg Prod.snd (if_neg hfree)
  · intro now u row j hfinds _ _ _ _
    obtain rfl := eq_of_finds hfinds
    exact ⟨[_, _], rfl, _, rfl, rfl, rfl⟩
  · intro now u v row j hfinds hrow hj hkey _ hreplaces
    have hdate := hfinds.1
    obtain rfl := eq_of_finds hfinds
    obtain rfl := eq_of_replaces hreplaces
    have hobserved : row.isObserved { j with key := r.key } = true := hkey ▸ hj.isObserved
    obtain ⟨left, right, hsplit, hwritten⟩ := JobTable.exists_split_mapWhere hk hrow hobserved
      (fun q hq => JobRow.key_of_isObserved (j := { j with key := r.key }) hq) fun _ => .ofJob (.fresh r now)
    have hfresh := JobRow.ofJob_says (Job.fresh_isProper r hdate) hr
    exact ⟨[_, _, _, _], rfl, _, rfl, j, now, ⟨left, row, _, right, hsplit, hwritten, hj, hfresh⟩, hkey, rfl,
      ⟨nofun, nofun⟩⟩
  · -- every row holds a job
    intro _ _ _ _ _ _ _ row _ _ _ hrow hdecode _ _ _ _ _
    obtain ⟨i, hi, -⟩ := hall _ row hrow
    exact nomatch (JobRow.decode_eq_valid_iff.mpr hi).symm.trans hdecode

/-! ## Claims -/

/-- What a claim did and told, by its result: the job that it returns is the one of the row, as far as it was told. -/
def ClaimTells (c : Job) (t : JobTable) (told : List Entry) (u : JobTable) : Except Stop (Option Job) → Prop
  | .ok (some d) => ∃ i j, Rewrites told t u i j ∧ i.state ≠ j.state ∧
      d.key = c.key ∧ j.key = d.key ∧ j.state = d.state ∧ j.attempt = d.attempt
  | .ok none => Leaves told t u
  | .error e => (∃ reason, e = .failed (.transition reason)) ∧ Leaves told t u

theorem claim_tells {c : Job} (hk : w.jobs.Keyed) (hall : Workers.AllCoherent w.jobs) (hc : c.IsProper) :
    Ends (Queue.claim c) w fun result told u => ClaimTells c w.jobs told u result := by
  refine ends_of_meets ?_
  unfold Queue.claim
  rw [meets_bind, Engine.meets_ofExcept]
  refine ⟨fun _ hu => ?_, fun e he => ?_⟩
  case refine_2 =>
    obtain ⟨-, rfl⟩ := eq_error_of_checkBecomes he
    exact ⟨[], rfl, ⟨_, rfl⟩, rfl, rfl⟩
  have hqueued : c.state = .queued := eq_queued_of_canBecome_running (eq_ok_of_checkBecomes hu)
  rw [meets_bind, meets_now]
  intro now hdate
  dsimp only
  rw [meets_bind, meets_jobs]
  have hchange : (⟨.running, min (c.attempt + 1) Job.attemptMax, c.nextRunAt, c.lastError, none, now⟩ : Change) =
    c.claimChange now := rfl
  rw [hchange]
  rcases run_updateIf hk c (c.claimChange now) with ⟨row, u, hrun, hupdated⟩ | ⟨hrun, -⟩
  · have hrun : (JobStatement.updateIf c (c.claimChange now)).run (w.write .now now w.jobs).jobs = (true, u) := hrun
    rw [hrun, if_pos rfl, meets_bind]
    unfold Queue.announce
    rw [meets_emit]
    obtain ⟨i, hi, -⟩ := hall _ row hupdated.before
    obtain ⟨hkey, hstate, -⟩ := hupdated.eq_of_says hi
    refine ⟨[_, _, _], rfl, i, _, hupdated.rewrites hi (hc.claimChange hdate) ⟨nofun, nofun⟩ rfl, ?_, rfl, hkey, rfl,
      rfl⟩
    rw [hstate, hqueued]
    exact JobState.noConfusion
  · have hrun : (JobStatement.updateIf c (c.claimChange now)).run (w.write .now now w.jobs).jobs = (false, w.jobs) := hrun
    rw [hrun]
    exact ⟨[_, _], rfl, rfl, rfl⟩

/-! ## Completions -/

/-- The key has this row, and reading it gives the job that the row holds. -/
theorem get_ends {u : JobTable} {key : JobKey} {row : JobRow} {j : Job} (hrow : u.row? key.text = some row)
    (hj : row.Says j) (past : List Entry) :
    Ends (Queue.get key) ⟨u, past⟩ fun result _ v => result = .ok (some j) ∧ v = u := by
  refine ends_of_meets ?_
  unfold Queue.get
  rw [meets_bind, meets_jobs]
  have hfound : ((JobStatement.find key.text).run u).1 = some (.valid j) := by
    show (u.row? key.text).map JobRow.decode = _
    rw [hrow, Option.map_some, JobRow.decode_eq_valid_iff.mpr hj]
  rw [hfound]
  exact ⟨[_], rfl, rfl, rfl⟩

/-- What a completion did: it wrote what its copy and the instant that it read say, or nothing, if the copy is not one of
    a running job or its row is another one by now. -/
def Completes (rules : RetryRules) (c : Job) (o : Outcome) (t : JobTable) (result : Except Stop Job) (told : List Entry)
    (u : JobTable) : Prop :=
  (∃ now row, now.IsDate ∧ told.filterMap Entry.shown? = [now] ∧ c.state = .running ∧
    Updated c (Workers.completeChange rules c o now) row t u ∧
    result = .ok (c.completed (Workers.completeChange rules c o now)) ∧
    heard told = c.news (c.completed (Workers.completeChange rules c o now))) ∨
  (∃ reason, result = .error (.failed (.transition reason))) ∧ Leaves told t u ∧
    (c.state = .running → ∀ row, t.row? c.key.text = some row → row.isCurrent c = false)

theorem ends_complete {rules : RetryRules} {c : Job} {o : Outcome} (hk : w.jobs.Keyed) :
    Ends (Queue.complete rules c o) w (Completes rules c o w.jobs) := by
  refine ends_of_meets ?_
  unfold Queue.complete
  rw [meets_bind, meets_now]
  intro now hdate
  dsimp only
  have hgives := Verdict.gives_of (rules.policy c.key) c now o
  rw [meets_bind, Engine.meets_ofExcept]
  refine ⟨fun _ hu => ?_, fun e he => ?_⟩
  case refine_2 =>
    obtain ⟨hnot, rfl⟩ := eq_error_of_checkBecomes he
    refine ⟨[_], rfl, .inr ⟨⟨_, rfl⟩, ⟨rfl, rfl⟩, fun hrunning => ?_⟩⟩
    rw [hrunning, hgives.canBecome] at hnot
    exact nomatch hnot
  have hrunning : c.state = .running := hgives.eq_running (eq_ok_of_checkBecomes hu)
  generalize hv : Verdict.of (rules.policy c.key) c now o = v
  have hwrites : ∀ told u row, told.filterMap Entry.shown? = [now] → Updated c (v.change c now) row w.jobs u →
      heard told = c.news (c.completed (v.change c now)) →
      Completes rules c o w.jobs (.ok (c.completed (v.change c now))) told u := by
    have hchange : Workers.completeChange rules c o now = v.change c now := congrArg (·.change c now) hv
    rw [← hchange]
    exact fun told u row hshown hupdated hheard => .inl ⟨now, row, hdate, hshown, hrunning, hupdated, rfl, hheard⟩
  rw [meets_bind, meets_jobs]
  rcases run_updateIf hk c (v.change c now) with ⟨row, u, hrun, hupdated⟩ | ⟨hrun, hnone⟩
  · have hrun : (JobStatement.updateIf c (v.change c now)).run (w.write .now now w.jobs).jobs = (true, u) := hrun
    rw [hrun, if_pos rfl]
    obtain ⟨state, nextRunAt, lastError, abandonReason⟩ := v
    unfold Queue.announce
    cases abandonReason with
    | some reason =>
      dsimp only
      rw [meets_bind, meets_emit, meets_bind, meets_emit]
      exact ⟨[_, _, _, _], rfl, hwrites _ _ row rfl hupdated rfl⟩
    | none =>
      dsimp only
      rw [meets_bind, meets_emit]
      exact ⟨[_, _, _], rfl, hwrites _ _ row rfl hupdated rfl⟩
  · have hrun : (JobStatement.updateIf c (v.change c now)).run (w.write .now now w.jobs).jobs = (false, w.jobs) := hrun
    rw [hrun]
    exact ⟨[_, _], rfl, .inr ⟨⟨_, rfl⟩, ⟨rfl, rfl⟩, fun _ => hnone⟩⟩

/-- What a completion did and told, by its result: the job that it returns is the one that reading the key gives, if its
    copy was the job of the row. -/
def CompletionTells (c : Job) (t : JobTable) (told : List Entry) (u : JobTable) : Except Stop Job → Prop
  | .ok d => ∃ i j, Rewrites told t u i j ∧ i.state ≠ j.state ∧ i.key = c.key ∧
      (∀ past, Ends (Queue.get c.key) ⟨u, past⟩ fun result _ v => result = .ok (some j) ∧ v = u) ∧
      (JobRow.stored c = i → JobRow.stored d = j)
  | .error e => (∃ reason, e = .failed (.transition reason)) ∧ Leaves told t u

theorem Completes.tells {rules : RetryRules} {c : Job} {o : Outcome} {t u : JobTable} {result : Except Stop Job}
    (h : Completes rules c o t result told u) (hall : Workers.AllCoherent t) (hc : c.IsProper) :
    CompletionTells c t told u result := by
  rcases h with ⟨now, row, hdate, -, hrunning, hupdated, rfl, hheard⟩ | ⟨⟨reason, rfl⟩, hleaves, -⟩
  · obtain ⟨i, hi, hcoherent⟩ := hall _ row hupdated.before
    obtain ⟨hkey, hstate, hattempt⟩ := hupdated.eq_of_says hi
    have hproper := Verdict.change_isProper (rules.policy c.key) hc hdate o
    have hmoved : i.state ≠ (Workers.completeChange rules c o now).state := by
      rw [hstate, hrunning]
      exact (Verdict.gives_of (rules.policy c.key) c now o).isResult.ne_running.symm
    have hstarted : 0 < c.attempt := by
      rw [← hattempt]
      refine hcoherent.started ?_
      rw [hstate, hrunning]
      exact JobState.noConfusion
    have hreason := (Verdict.changed_isCoherent (i := i) (rules.policy c.key) now o hstarted).reason_iff
    refine ⟨i, _, hupdated.rewrites hi hproper hreason hheard, hmoved, hkey, get_ends hupdated.after (hi.apply hproper),
      ?_⟩
    rintro rfl
    rfl
  · exact ⟨⟨reason, rfl⟩, hleaves⟩

end Chronicle

/-! ## On a table that workers left -/

namespace Workers

open Chronicle

variable {rules : RetryRules} {past : List Act} {shop : Shop} {c : Job}

/-- The copy was read from the table, or a claim returned it, at any time. -/
def Obtained (past : List Act) (c : Job) : Prop := c ∈ seen past ∨ ∃ n j, .ended n (.claim j) (.ok (some c)) ∈ past

theorem Named.isProper : Policy.IsProper Named := fun _ _ _ _ h => h.1

/-- A copy that was obtained can be held by a row. -/
theorem Run.isProper_of_obtained (h : Run rules Named [] past shop) (hc : Obtained past c) : c.IsProper := by
  rcases hc with hseen | ⟨n, j, hended⟩
  · exact ((h.sane JobTable.isSound_nil Named.isProper).seen c hseen).1
  -- what a claim returned is what it wrote
  · have hacts := (h.conducted JobTable.keyed_nil).acts
    obtain ⟨later, earlier, rfl⟩ := List.append_of_mem hended
    have hconcludes : ClaimConcludes n j (own n earlier) (.ok (some c)) := hacts.of_split
    obtain ⟨now, hupdate, rfl⟩ := hconcludes
    obtain ⟨before, after, hown⟩ := hupdate.mem
    obtain ⟨later', older, rfl⟩ := List.append_of_mem (mem_of_mem_own hown)
    have hregular : Regular rules [] older n _ _ _ before after := hacts.of_append.2.of_split
    obtain ⟨_, hop⟩ := exists_may_of_begun hacts.of_append.2.of_append.2 hregular.begun
    have hj : j.IsProper := hop.1
    obtain ⟨_, _, _, now', hshown, hchange⟩ := hregular.mayDo
    rw [hchange]
    exact hj.claimed (hj.claimChange hshown.1)

/-- **What a writer of the queue tells is what it did.**  On a table that workers left, with keys that can be read back,
    and for any copy that was obtained, however old: requests, claims and completions that are run alone end.  What they
    return tells whether a row was written; if one was, it is the only one, and its change of state is what listeners
    were told. -/
theorem Run.tells_writes (h : Run rules Named [] past shop) (earlier : List Entry) :
    (∀ r : JobRequest, r.key.IsProper → Ends (Queue.enqueue r) ⟨shop.jobs, earlier⟩ fun result told u =>
      ∃ outcome, result = .ok outcome ∧ RequestTells r shop.jobs told u outcome) ∧
    ∀ c, Obtained past c →
      Ends (Queue.claim c) ⟨shop.jobs, earlier⟩ (fun result told u => ClaimTells c shop.jobs told u result) ∧
      ∀ o, Ends (Queue.complete rules c o) ⟨shop.jobs, earlier⟩ fun result told u =>
        CompletionTells c shop.jobs told u result := by
  have hconducted := h.conducted JobTable.keyed_nil
  have hall : AllCoherent shop.jobs := by
    rw [h.jobs_eq]
    exact (allCoherent_of_acts hconducted.acts).1
  refine ⟨fun r hr => enqueue_tells hconducted.keyed hall hr, fun c hc => ?_⟩
  have hproper := h.isProper_of_obtained hc
  exact ⟨claim_tells hconducted.keyed hall hproper,
    fun o => (ends_complete hconducted.keyed).mono fun _ _ _ hend => hend.tells hall hproper⟩

/-- The first attempt at an upload fails. -/
theorem Run.tells_writes_started_upload : ∃ past shop, Run .standard Named [] past shop ∧ Obtained past startedUpload ∧
    Ends (Queue.complete .standard startedUpload lostConnection) ⟨shop.jobs, []⟩ fun result told u =>
      CompletionTells startedUpload shop.jobs told u result := by
  obtain ⟨n, earlier, _, h⟩ := Run.exists_started
  have hobtained : Obtained (.ended n (.claim waitingUpload) (.ok (some startedUpload)) :: earlier) startedUpload :=
    .inr ⟨n, _, List.mem_cons_self⟩
  exact ⟨_, _, h, hobtained, ((h.tells_writes []).2 _ hobtained).2 lostConnection⟩

end Workers

end MediaBackup
