import MediaBackup.Proofs.Workers.Customs

/-
  Every operation of the queue keeps to its customs.
-/

namespace MediaBackup.Workers

open Script

variable {n : Nat} {op : Operation} {acts acts' : List Act}

/-! ## What a call finds -/

theorem customs_jobs_ok {s : JobStatement} {x : s.Answer}
    (h : (customs n op).answers acts (.jobs s) (.ok x) acts') :
    ∃ before : JobTable, before.IsSound ∧ x = (s.run before).1 ∧
      acts' = .called n op (.jobs s) (.ok x) before (s.run before).2 :: acts := by
  obtain ⟨before, after, hs, ⟨hx, rfl⟩, rfl⟩ := h
  exact ⟨before, hs, hx, rfl⟩

theorem customs_now {t : Instant} (h : (customs n op).answers acts .now t acts') :
    t.IsDate ∧ ∃ before after, acts' = .called n op .now t before after :: acts := by
  obtain ⟨before, after, _, ⟨ht, _⟩, rfl⟩ := h
  exact ⟨ht, before, after, rfl⟩

theorem customs_emit {e : Event} (h : (customs n op).answers acts (.emit e) () acts') :
    ∃ before after, acts' = .called n op (.emit e) () before after :: acts := by
  obtain ⟨before, after, _, _, rfl⟩ := h
  exact ⟨before, after, rfl⟩

/-! ## Claiming and completing -/

/-- Acts were added, none of which updated a row. -/
def Quietly (acts acts' : List Act) : Prop := ∃ more, acts' = more ++ acts ∧ ∀ a ∈ more, a.isUpdate = false

theorem quietly_cons {a : Act} (h : a.isUpdate = false) (acts : List Act) : Quietly acts (a :: acts) :=
  ⟨[a], rfl, fun _ hb => List.mem_singleton.1 hb ▸ h⟩

theorem customs_silent : (customs n op).Silent Quietly where
  trans := by
    rintro s _ _ ⟨more, rfl, hm⟩ ⟨more', rfl, hm'⟩
    refine ⟨more' ++ more, (List.append_assoc ..).symm, fun a ha => ?_⟩
    rcases List.mem_append.1 ha with ha | ha
    · exact hm' a ha
    · exact hm a ha
  mayNow _ := trivial
  now := by
    intro s x t h
    obtain ⟨hd, before, after, rfl⟩ := customs_now h
    exact ⟨hd, quietly_cons rfl s⟩
  mayEmit _ _ := trivial
  emit := by
    intro s e t h
    obtain ⟨before, after, rfl⟩ := customs_emit h
    exact quietly_cons rfl s

theorem Quietly.any_isUpdate (h : Quietly acts acts') : acts'.any Act.isUpdate = acts.any Act.isUpdate := by
  obtain ⟨more, rfl, hm⟩ := h
  have hmore : more.any Act.isUpdate = false :=
    List.any_eq_false.2 fun a ha => ne_true_of_eq_false (hm a ha)
  rw [List.any_append, hmore, Bool.false_or]

theorem granted?_eq_none {a : Act} (h : a.isUpdate = false) : a.granted? = none := by
  unfold Act.granted?
  split
  · exact nomatch h
  · rfl

theorem Quietly.charge (h : Quietly acts acts') (j : Job) :
    (Operation.claim j).charge acts' = (Operation.claim j).charge acts := by
  obtain ⟨more, rfl, hm⟩ := h
  have hmore : more.findSome? Act.granted? = none :=
    List.findSome?_eq_none_iff.2 fun a ha => granted?_eq_none (hm a ha)
  show ((more ++ acts).findSome? Act.granted?).map j.claimed = (acts.findSome? Act.granted?).map j.claimed
  rw [List.findSome?_append, hmore, Option.none_or]

theorem claim_keeps {j : Job} (hj : j.IsProper) :
    Meets (customs n (.claim j)) (fun o acts => (Operation.claim j).charge acts = o)
      (fun e acts => (Operation.claim j).charge acts = none ∧ e.IsError) (Queue.claim j)
      [.begun n (.claim j)] := by
  refine Queue.meets_claim customs_silent (fun _ => ⟨rfl, _, rfl⟩) ?_
  intro hq now acts hdate hacts
  have hnone : (Operation.claim j).charge acts = none := hacts.charge j
  have hupdate : acts.any Act.isUpdate = false := hacts.any_isUpdate
  refine ⟨⟨hj.claimChange hdate, rfl, hq, rfl, hupdate⟩, ?_, ?_, ?_⟩
  · intro u hu v hv
    obtain ⟨before, _, _, rfl⟩ := customs_jobs_ok hu
    exact hv.charge j
  · intro u hu
    obtain ⟨before, _, _, rfl⟩ := customs_jobs_ok hu
    exact hnone
  · rintro fault _ ⟨before, after, _, _, rfl⟩
    exact ⟨hnone, _, rfl⟩

theorem complete_keeps (rules : RetryRules) {c : Job} (hc : c.IsProper) (o : Outcome) :
    Meets (customs n (.complete c o)) (fun j acts => (Operation.complete c o).Ends n acts (.ok j))
      (fun e acts => (Operation.complete c o).Ends n acts (.error e)) (Queue.complete rules c o)
      [.begun n (.complete c o)] := by
  refine Queue.meets_complete customs_silent ?_ ?_
  · intro hr target acts _
    exact ⟨fun h => absurd h hr, fun _ h => Except.error.inj h ▸ ⟨_, rfl⟩, fun _ h => (nomatch h)⟩
  intro change acts _ _ hproper hgives hacts
  refine ⟨⟨hproper hc, rfl, hgives, hacts.any_isUpdate⟩, ?_, ?_, ?_⟩
  · intro u hu v hv
    obtain ⟨before, _, _, rfl⟩ := customs_jobs_ok hu
    exact ⟨fun _ => ⟨hv.any_isUpdate, fun ⟨_, _, he⟩ => (nomatch he)⟩, fun _ h => (nomatch h),
      fun _ h => Except.ok.inj h ▸ hgives⟩
  · intro u hu
    obtain ⟨before, _, _, rfl⟩ := customs_jobs_ok hu
    exact ⟨fun _ => ⟨rfl, fun _ => ⟨_, _, _, List.mem_cons_self⟩⟩, fun _ h => Except.error.inj h ▸ ⟨_, rfl⟩,
      fun _ h => (nomatch h)⟩
  · rintro fault _ ⟨before, after, _, _, rfl⟩
    exact ⟨fun _ => ⟨rfl, fun ⟨_, _, he⟩ => (nomatch he)⟩, fun _ h => Except.error.inj h ▸ ⟨_, rfl⟩,
      fun _ h => (nomatch h)⟩

/-! ## Putting a job into the queue -/

theorem quarantine_keeps (op : Operation) (key : String) (reason : RowFault)
    (hmay : ∀ acts now, op.MayRun acts (.quarantine key reason.message now)) {good : Unit → List Act → Prop}
    {bad : Stop → List Act → Prop} (hgood : ∀ acts, good () acts)
    (hbad : ∀ fault acts, bad (.failed (.database fault)) acts) :
    Meets (customs n op) good bad (Queue.quarantine key reason) acts := by
  unfold Queue.quarantine
  rw [meets_bind, Engine.meets_now]
  refine ⟨trivial, ?_⟩
  intro now _ hnow
  obtain ⟨hdate, _, _, rfl⟩ := customs_now hnow
  rw [meets_bind]
  refine Engine.meets_jobs.2 ⟨⟨hdate, hmay _ _⟩, ?_, fun fault _ _ => hbad fault _⟩
  intro _ _ _
  rw [Engine.meets_emit]
  exact ⟨trivial, fun _ _ _ => hgood _⟩

/-- Whether a job is replaceable is told by the columns that replacing compares. -/
theorem isReplaceable_eq_of_isObserved {row : JobRow} {i j : Job} {key : JobKey}
    (ho : row.isObserved { j with key := key } = true) (hi : row.Says i) (hkey : i.key = j.key) :
    i.isReplaceable = j.isReplaceable := by
  obtain ⟨_, hs, _, hr⟩ := JobRow.isObserved_iff.1 ho
  have hstate : i.state = j.state := JobState.name_injective (hi.state.symm.trans hs)
  have hreason : i.abandonReason = j.abandonReason :=
    AbandonReason.map_name_injective (hi.abandonReason.symm.trans hr)
  unfold Job.isReplaceable Job.isTombstone
  rw [hstate, hkey, hreason]

/-- The outcome of a request that lost its rounds so far, if its key is one. -/
theorem enqueueWithin_keeps (r : JobRequest) {k rounds : Nat} (hk : k + rounds = Queue.enqueueRounds)
    (hl : r.key.IsProper → LostRounds n r.key.text k acts) :
    Meets (customs n (.enqueue r)) (fun e acts => (Operation.enqueue r).Ends n acts (.ok e))
      (fun e acts => (Operation.enqueue r).Ends n acts (.error e)) (Queue.enqueueWithin r rounds) acts := by
  induction rounds generalizing k acts with
  | zero =>
    obtain rfl : k = Queue.enqueueRounds := hk
    exact fun hp => .inr ⟨rfl, hl hp⟩
  | succ rounds ih =>
    have hk' : k + 1 + rounds = Queue.enqueueRounds := by omega
    unfold Queue.enqueueWithin
    rw [meets_bind, Engine.meets_now]
    refine ⟨trivial, ?_⟩
    intro now _ hnow
    obtain ⟨hdate, _, _, rfl⟩ := customs_now hnow
    dsimp only
    rw [meets_bind, Engine.meets_jobs]
    refine ⟨⟨trivial, rfl⟩, ?_, fun fault _ _ _ => .inl ⟨fault, rfl⟩⟩
    intro x _ hx
    obtain ⟨t, ht, hrow, rfl⟩ := customs_jobs_ok hx
    replace hrow : x = (t.row? r.key.text).map JobRow.decode := hrow
    have hfresh : (Job.fresh r now).IsProper := Job.fresh_isProper r hdate
    cases x with
    | none =>
      have hnone : t.row? r.key.text = none := Option.map_eq_none_iff.1 hrow.symm
      dsimp only
      rw [meets_bind, Engine.meets_jobs]
      refine ⟨⟨hfresh, rfl, rfl⟩, ?_, fun fault _ _ _ => .inl ⟨fault, rfl⟩⟩
      intro x _ hx
      obtain ⟨u, hu, hins, rfl⟩ := customs_jobs_ok hx
      rw [JobTable.answer_insertIfAbsent] at hins
      have heffect := JobTable.row?_run hu.keyed (.insertIfAbsent (Job.fresh r now)) r.key.text
      cases x with
      | true =>
        intro _
        have hnone : u.row? r.key.text = none := Option.isNone_iff_eq_none.1 hins.symm
        refine ⟨now, u, _, List.mem_cons_self, hnone, ?_⟩
        rw [heffect, hnone]
        exact if_pos rfl
      | false =>
        refine ih hk' fun hp => .round (hl hp) ⟨rfl, rfl⟩ ⟨rfl, rfl⟩ rfl rfl ?_
        intro he
        rw [show (JobStatement.run (.find r.key.text) t).2 = t from rfl, hnone] at he
        rw [show (Job.fresh r now).key = r.key from rfl, ← he] at hins
        exact nomatch hins
    | some d =>
      obtain ⟨row, hr, hd⟩ := Option.map_eq_some_iff.1 hrow.symm
      cases d with
      | corrupt key reason =>
        obtain ⟨hkey, hparse⟩ := (ht.readable row (JobTable.mem_of_row? hr)).parse?_of_corrupt hd
        dsimp only
        rw [meets_bind]
        refine quarantine_keeps (.enqueue r) key reason (fun _ _ => hparse) (fun acts => ?_)
          fun fault _ _ => .inl ⟨fault, rfl⟩
        refine ih hk' fun hp => ?_
        rw [hkey, JobTable.key_of_row? hr, JobKey.parse?_text hp] at hparse
        exact nomatch hparse
      | valid j =>
        have hj : row.Says j := JobRow.decode_eq_valid_iff.1 hd
        have hkey : j.key = r.key := JobKey.text_injective (hj.key.symm.trans (JobTable.key_of_row? hr))
        dsimp only
        by_cases hg : j.isReplaceable = true
        · rw [hg, if_neg (by decide), meets_bind, Engine.meets_jobs]
          refine ⟨⟨hfresh, rfl, rfl, hg⟩, ?_, fun fault _ _ _ => .inl ⟨fault, rfl⟩⟩
          intro x _ hx
          obtain ⟨u, hu, hrep, rfl⟩ := customs_jobs_ok hx
          rw [JobTable.answer_replaceIf hu.keyed, show (Job.fresh r now).key = r.key from rfl] at hrep
          have heffect := JobTable.row?_run hu.keyed (.replaceIf (Job.fresh r now) j) r.key.text
          cases x with
          | true =>
            obtain ⟨row', hr', hobs⟩ := (Option.any_eq_true _ _).1 hrep.symm
            rw [if_pos rfl, meets_bind]
            unfold Queue.announce
            rw [Engine.meets_emit]
            refine ⟨trivial, ?_⟩
            intro _ _ he hp
            obtain ⟨_, _, rfl⟩ := customs_emit he
            refine ⟨now, j, u, _, List.mem_cons_of_mem _ List.mem_cons_self, ?_, ?_⟩
            · obtain ⟨j', hj', hkey'⟩ := hu.exists_job hp hr'
              refine ⟨row', j', hr', hj', givesWay_of_isReplaceable ?_ hj'.isStorable⟩
              exact (isReplaceable_eq_of_isObserved hobs hj' (hkey'.trans hkey.symm)).trans hg
            · rw [heffect, hr']
              exact congrArg some (if_pos hobs)
          | false =>
            refine ih hk' fun hp => .round (hl hp) ⟨rfl, rfl⟩ ⟨rfl, rfl⟩ rfl rfl ?_
            intro he
            rw [show (JobStatement.run (.find r.key.text) t).2 = t from rfl, hr] at he
            have hobs : row.isObserved { j with key := r.key } = true := by
              rw [← hkey]
              exact hj.isObserved
            rw [← he, Option.any_some, hobs] at hrep
            exact nomatch hrep
        · have hg' : j.isReplaceable = false := eq_false_of_ne_true hg
          rw [hg']
          exact fun _ => ⟨_, t, t, List.mem_cons_self, row, j, hr, hj, covers_of_not_isReplaceable hg'⟩

/-! ## The other operations -/

theorem sift_keeps {rows : List Decoded}
    (h : ∀ key reason, .corrupt key reason ∈ rows → JobKey.parse? key = none)
    (hv : ∀ j, .valid j ∈ rows → j.IsProper ∧ j.key.IsProper) {d : DueJobs}
    (hd : ∀ j ∈ d.jobs, j.IsProper ∧ j.key.IsProper) :
    Meets (customs n .due) (fun d _ => ∀ j ∈ d.jobs, j.IsProper ∧ j.key.IsProper)
      (fun e _ => e.IsOfDatabase)
      (Queue.sift rows d) acts := by
  induction rows generalizing d acts with
  | nil => exact hd
  | cons row rows ih =>
    have hrows : ∀ key reason, .corrupt key reason ∈ rows → JobKey.parse? key = none :=
      fun key reason hr => h key reason (List.mem_cons_of_mem _ hr)
    have hvalid : ∀ j, .valid j ∈ rows → j.IsProper ∧ j.key.IsProper :=
      fun j hj => hv j (List.mem_cons_of_mem _ hj)
    cases row with
    | valid i =>
      refine ih hrows hvalid fun j hj => ?_
      rcases List.mem_append.1 hj with hj | hj
      · exact hd j hj
      · exact hv j (List.mem_singleton.1 hj ▸ List.mem_cons_self)
    | corrupt key reason =>
      unfold Queue.sift
      rw [meets_bind]
      exact quarantine_keeps .due key reason (fun _ _ => h key reason List.mem_cons_self)
        (fun _ => ih hrows hvalid hd)
        fun fault _ => ⟨fault, rfl⟩

theorem arranged_arrange {d : DueJobs} (h : ∀ j ∈ d.jobs, j.IsProper ∧ j.key.IsProper) :
    Arranged d.arrange.jobs := by
  refine ⟨fun j hj => ?_, _, _, rfl, fun j hj => (List.mem_filter.1 hj).2, fun j hj => ?_⟩
  · rcases List.mem_append.1 hj with hj | hj
    · exact h j (List.mem_filter.1 hj).1
    · exact h j (List.mem_filter.1 hj).1
  · rw [isUpload_eq_not]
    exact (List.mem_filter.1 hj).2

theorem due_keeps :
    Meets (customs n .due) (fun d _ => Arranged d.jobs) (fun e _ => e.IsOfDatabase) Queue.due acts := by
  unfold Queue.due
  rw [meets_bind, Engine.meets_now]
  refine ⟨trivial, ?_⟩
  intro now _ _
  rw [meets_bind, Engine.meets_jobs]
  refine ⟨⟨trivial, trivial⟩, ?_, fun fault _ _ => ⟨fault, rfl⟩⟩
  intro rows _ hrows
  obtain ⟨t, ht, rfl, _⟩ := customs_jobs_ok hrows
  rw [meets_map]
  refine Meets.mono (fun d _ hd => arranged_arrange hd) (fun _ _ h => h)
    (sift_keeps ?_ ?_ fun j hj => absurd hj List.not_mem_nil)
  · intro key reason hc
    obtain ⟨row, hr, hd⟩ := List.mem_map.1 hc
    rw [List.mem_mergeSort] at hr
    exact ((ht.readable row (List.mem_filter.1 hr).1).parse?_of_corrupt hd).2
  · intro j hj
    obtain ⟨row, _, hd⟩ := List.mem_map.1 hj
    have hs := JobRow.decode_eq_valid_iff.1 hd
    exact ⟨hs.isProper_job, hs.isProper⟩

theorem get_keeps (key : JobKey) :
    Meets (customs n (.get key)) (fun _ _ => True) (fun _ _ => True) (Queue.get key) acts := by
  unfold Queue.get
  rw [meets_bind, Engine.meets_jobs]
  refine ⟨⟨trivial, rfl⟩, ?_, fun _ _ _ => trivial⟩
  intro row _ _
  cases row with
  | none => trivial
  | some d =>
    dsimp only
    rw [meets_map, Engine.meets_ofExcept]
    exact ⟨fun _ _ => trivial, fun _ _ => trivial⟩

theorem statement_keeps {s : JobStatement} (hs : s.IsProper) (hmay : op.MayRun acts s) :
    Meets (customs n op) (fun _ _ => True) (fun e _ => e.IsOfDatabase) (Engine.jobs s) acts := by
  rw [Engine.meets_jobs]
  exact ⟨⟨hs, hmay⟩, fun _ _ _ => trivial, fun fault _ _ => ⟨fault, rfl⟩⟩

theorem promote_keeps :
    Meets (customs n .promote) (fun _ _ => True) (fun e _ => e.IsOfDatabase) Queue.promote acts := by
  unfold Queue.promote
  rw [meets_bind, Engine.meets_now]
  exact ⟨trivial, fun now _ hnow => statement_keeps (s := .promote now) (customs_now hnow).1 trivial⟩

theorem recover_keeps :
    Meets (customs n .recover) (fun _ _ => True) (fun e _ => e.IsOfDatabase) Queue.recover acts := by
  unfold Queue.recover
  rw [meets_bind, Engine.meets_now]
  exact ⟨trivial, fun now _ hnow => statement_keeps (s := .resetRunning now) (customs_now hnow).1 trivial⟩

theorem prune_keeps (retention : Duration) :
    Meets (customs n (.prune retention)) (fun _ _ => True) (fun e _ => e.IsOfDatabase)
      (Queue.prune retention) acts := by
  unfold Queue.prune
  rw [meets_bind, Engine.meets_now]
  exact ⟨trivial,
    fun now _ _ => statement_keeps (s := .deleteTerminal (now.before retention)) trivial trivial⟩

/-- Every operation keeps to its customs, whatever others do to the table between its calls. -/
theorem Operation.keeps (rules : RetryRules) (h : op.IsProper) :
    (op.program rules).run.Keeps (customs n op) (fun r acts => op.Ends n acts r) [.begun n op] := by
  cases op with
  | enqueue r =>
    refine Keeps.mono ?_ (enqueueWithin_keeps r (Nat.zero_add _) fun _ => .none _)
    rintro (e | _) _ he <;> exact he
  | claim j =>
    refine Keeps.mono ?_ (claim_keeps h)
    rintro (e | _) _ he
    · exact ⟨he.1, fun _ h => Except.error.inj h ▸ he.2⟩
    · exact ⟨he, fun _ h => (nomatch h)⟩
  | complete c o =>
    refine Keeps.mono ?_ (complete_keeps rules h o)
    rintro (e | _) _ he <;> exact he
  | due =>
    refine Keeps.mono ?_ due_keeps
    rintro (e | d) _ he
    · exact ⟨fun _ h => Except.error.inj h ▸ he, fun _ h => (nomatch h)⟩
    · exact ⟨fun _ h => (nomatch h), fun _ h => Except.ok.inj h ▸ he⟩
  | promote =>
    refine Keeps.mono ?_ promote_keeps
    rintro (e | d) _ he
    · exact fun _ h => Except.error.inj h ▸ he
    · exact fun _ h => (nomatch h)
  | get key => exact Keeps.mono (fun _ _ _ => trivial) (get_keeps key)
  | recover => exact Keeps.mono (fun _ _ _ => trivial) recover_keeps
  | prune retention => exact Keeps.mono (fun _ _ _ => trivial) (prune_keeps retention)

/-! ## Operations in another setting -/

/-- What an operation meets where an onlooker stands still at its calls: any other protocol that lets it ask what
    its customs allow, and answers as sound tables do. -/
theorem Operation.meets_elsewhere (rules : RetryRules) (h : op.IsProper) {τ : Type}
    {w : Protocol Call Call.Answer τ}
    {m : τ} (hmay : ∀ acts c, (customs 0 op).may acts c → w.may m c)
    (hans : ∀ acts c x m', (customs 0 op).may acts c → w.answers m c x m' →
      m' = m ∧ ∃ before after : JobTable, before.IsSound ∧ Answers before c x after) :
    Meets w (fun x m' => m' = m ∧ ∃ acts, op.Ends 0 acts (.ok x))
      (fun e m' => m' = m ∧ ∃ acts, op.Ends 0 acts (.error e))
      (op.program rules) m := by
  refine Keeps.weaken (w := customs 0 op) (fun _ m' => m' = m) ?_ ?_ ?_ rfl (Operation.keeps rules h)
  · rintro acts _ c rfl hc
    exact hmay acts c hc
  · rintro acts _ c x m' rfl hc hx
    obtain ⟨rfl, before, after, hs, ha⟩ := hans acts c x m' hc hx
    exact ⟨_, ⟨before, after, hs, ha, rfl⟩, rfl⟩
  · rintro (e | x) acts _ rfl he
    · exact ⟨rfl, acts, he⟩
    · exact ⟨rfl, acts, he⟩

end MediaBackup.Workers
