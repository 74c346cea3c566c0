import MediaBackup.Proofs.Workers.Requests

/-
  What every operation of the queue does, to the letter.

  The customs of an operation (`customs`) suppose that every row can be read.  Its CONDUCT supposes no more
  than that no two rows have one key, so it holds on a damaged table too, and it tells every argument of every
  statement: an instant is one that the clock showed to the operation, a fresh job is the one of its request, what
  a claim and a completion write is computed from their copy, and a row is given up only under a key whose row the
  operation itself could not read, at an act of its own that came before (`Overwrites`).

  The crux is `Run.conducted`: in every run, under any policy, every call is one that its operation may make.
-/

namespace MediaBackup.Workers

open Script

/-! ## What an operation may run -/

/-- The act came upon a row of this key that cannot be read, for this reason. -/
def Act.FindsCorrupt (key : String) (reason : RowFault) : Act → Prop
  | .called _ _ (.jobs (.find _)) (.ok (some (.corrupt k r))) _ _ => k = key ∧ r = reason
  | .called _ _ (.jobs (.listDue _)) (.ok rows) _ _ => .corrupt key reason ∈ rows
  | _ => False

/-- The act ran nothing on the table, unless it gave up the row of another key. -/
def Act.Spares (key : String) : Act → Prop
  | .called _ _ (.jobs (.quarantine k _ _)) _ _ _ => k ≠ key
  | .called _ _ (.jobs _) _ _ _ => False
  | _ => True

/-- The operation came upon a row of the key that cannot be read, and did nothing to the row since. -/
def Overwrites (key words : String) (acts : List Act) : Prop :=
  ∃ since read before reason, acts = since ++ read :: before ∧ read.FindsCorrupt key reason ∧
    words = reason.message ∧ ∀ a ∈ since, a.Spares key

/-- The clock showed this instant. -/
def Shown (acts : List Act) (now : Instant) : Prop :=
  now.IsDate ∧ ∃ n op before after, .called n op .now now before after ∈ acts

/-- What the clock showed at an act. -/
def Act.reading? : Act → Option Instant
  | .called _ _ .now t _ _ => some t
  | _ => none

/-- What the clock showed, newest first. -/
def readings (acts : List Act) : List Instant := acts.filterMap Act.reading?

/-- The change that completes a job at an instant. -/
def completeChange (rules : RetryRules) (c : Job) (o : Outcome) (now : Instant) : Change :=
  (Verdict.of (rules.policy c.key) c now o).change c now

/-- What an operation may run on the table after its acts so far. -/
def Operation.MayDo (rules : RetryRules) : Operation → List Act → JobStatement → Prop
  | enqueue r, _, .find key => key = r.key.text
  | enqueue r, acts, .insertIfAbsent job => ∃ now, Shown acts now ∧ job = Job.fresh r now
  | enqueue r, acts, .replaceIf job observed => (∃ now, Shown acts now ∧ job = Job.fresh r now) ∧
      observed.key = r.key ∧ observed.isReplaceable = true
  | enqueue _, acts, .quarantine key words now => Overwrites key words acts ∧ Shown acts now
  | due, acts, .listDue now => Shown acts now
  | due, acts, .quarantine key words now => Overwrites key words acts ∧ Shown acts now
  | get key, _, .find text => text = key.text
  | claim j, acts, .updateIf observed change => observed = j ∧ j.state = .queued ∧
      acts.filter Act.isUpdate = [] ∧ ∃ now, Shown acts now ∧ change = j.claimChange now
  | complete c o, acts, .updateIf observed change => observed = c ∧ c.state = .running ∧
      acts.filter Act.isUpdate = [] ∧ ∃ now, Shown acts now ∧ change = completeChange rules c o now
  | promote, acts, .promote now => Shown acts now
  | recover, acts, .resetRunning now => Shown acts now
  | prune retention, acts, .deleteTerminal limit => ∃ now, Shown acts now ∧ limit = now.before retention
  | _, _, _ => False

/-! ## What a result tells -/

/-- One of the acts updated a row, or tried to: this one, with this answer. -/
def OnlyUpdate (n : Nat) (op : Operation) (j : Job) (change : Change) (x : Except StoreFault Bool)
    (acts : List Act) : Prop :=
  ∃ before after, acts.filter Act.isUpdate = [.called n op (.jobs (.updateIf j change)) x before after]

theorem OnlyUpdate.mem {n : Nat} {op : Operation} {j : Job} {change : Change} {x : Except StoreFault Bool}
    {acts : List Act} (h : OnlyUpdate n op j change x acts) :
    ∃ before after, .called n op (.jobs (.updateIf j change)) x before after ∈ acts := by
  obtain ⟨before, after, he⟩ := h
  have hmem : .called n op (.jobs (.updateIf j change)) x before after ∈ acts.filter Act.isUpdate := by
    rw [he]
    exact List.mem_cons_self
  exact ⟨before, after, (List.mem_filter.1 hmem).1⟩

/-- What the result of a claim tells about its acts. -/
def ClaimConcludes (n : Nat) (j : Job) (acts : List Act) : Except Stop (Option Job) → Prop
  | .ok (some d) => ∃ now, OnlyUpdate n (.claim j) j (j.claimChange now) (.ok true) acts ∧
      d = j.claimed (j.claimChange now)
  | .ok none => ∃ now, OnlyUpdate n (.claim j) j (j.claimChange now) (.ok false) acts
  | .error e => (j.state ≠ .queued ∧ acts.filter Act.isUpdate = [] ∧
        e = .failed (.transition (.notAllowed j.state .running))) ∨
      ∃ now fault, OnlyUpdate n (.claim j) j (j.claimChange now) (.error fault) acts ∧
        e = .failed (.database fault)

/-- What the result of a completion tells about its acts. -/
def CompletionConcludes (rules : RetryRules) (n : Nat) (c : Job) (o : Outcome) (acts : List Act) :
    Except Stop Job → Prop
  | .ok d => ∃ now, OnlyUpdate n (.complete c o) c (completeChange rules c o now) (.ok true) acts ∧
      d = c.completed (completeChange rules c o now)
  | .error e => (c.state ≠ .running ∧ acts.filter Act.isUpdate = [] ∧
        ∃ target, e = .failed (.transition (.notAllowed c.state target))) ∨
      (c.state = .running ∧ ∃ now,
        OnlyUpdate n (.complete c o) c (completeChange rules c o now) (.ok false) acts ∧
        e = .failed (.transition (.changedWhileRunning c.state (completeChange rules c o now).state))) ∨
      ∃ now fault, OnlyUpdate n (.complete c o) c (completeChange rules c o now) (.error fault) acts ∧
        e = .failed (.database fault)

/-- What the result of an operation tells about its acts.  It is said of claims and completions alone. -/
def Operation.Concludes (rules : RetryRules) (n : Nat) :
    (op : Operation) → List Act → Except Stop op.Result → Prop
  | claim j, acts, result => ClaimConcludes n j acts result
  | complete c o, acts, result => CompletionConcludes rules n c o acts result
  | _, _, _ => True

/-- What an operation may ask after its acts so far, and what it has to expect: whatever a call can be
    answered on a table in which no two rows have one key. -/
def conduct (rules : RetryRules) (n : Nat) (op : Operation) : Protocol Call Call.Answer (List Act) where
  may acts c := match c with
    | .jobs s => op.MayDo rules acts s
    | .now | .emit _ => True
    | _ => False
  answers acts c x acts' := ∃ before after, before.Keyed ∧ Answers before c x after ∧
    acts' = .called n op c x before after :: acts

/-! ## Every operation keeps to its conduct -/

variable {rules : RetryRules} {n : Nat} {op : Operation} {acts acts' : List Act}

theorem conduct_jobs_ok {s : JobStatement} {x : s.Answer}
    (h : (conduct rules n op).answers acts (.jobs s) (.ok x) acts') :
    ∃ before : JobTable, before.Keyed ∧ x = (s.run before).1 ∧
      acts' = .called n op (.jobs s) (.ok x) before (s.run before).2 :: acts := by
  obtain ⟨before, after, hk, ⟨hx, rfl⟩, rfl⟩ := h
  exact ⟨before, hk, hx, rfl⟩

theorem conduct_now {t : Instant} (h : (conduct rules n op).answers acts .now t acts') :
    Shown acts' t ∧ ∃ before after, acts' = .called n op .now t before after :: acts := by
  obtain ⟨before, after, _, ⟨hd, _⟩, rfl⟩ := h
  exact ⟨⟨hd, n, op, before, after, List.mem_cons_self⟩, before, after, rfl⟩

theorem conduct_emit {e : Event} (h : (conduct rules n op).answers acts (.emit e) () acts') :
    ∃ before after, acts' = .called n op (.emit e) () before after :: acts := by
  obtain ⟨before, after, _, _, rfl⟩ := h
  exact ⟨before, after, rfl⟩

theorem Shown.cons {now : Instant} (h : Shown acts now) (a : Act) : Shown (a :: acts) now := by
  obtain ⟨hd, m, op', before, after, hmem⟩ := h
  exact ⟨hd, m, op', before, after, List.mem_cons_of_mem a hmem⟩

theorem Shown.mem_readings {now : Instant} (h : Shown acts now) : now ∈ readings acts := by
  obtain ⟨_, m, op', before, after, hmem⟩ := h
  exact List.mem_filterMap.2 ⟨_, hmem, rfl⟩

theorem conduct_silent : (conduct rules n op).Silent Quietly where
  trans := (customs_silent : (customs n op).Silent Quietly).trans
  mayNow _ := trivial
  now := by
    intro s x t h
    obtain ⟨⟨hd, _⟩, before, after, rfl⟩ := conduct_now h
    exact ⟨hd, quietly_cons rfl s⟩
  mayEmit _ _ := trivial
  emit := by
    intro s e t h
    obtain ⟨before, after, rfl⟩ := conduct_emit h
    exact quietly_cons rfl s

theorem Quietly.filter_isUpdate (h : Quietly acts acts') :
    acts'.filter Act.isUpdate = acts.filter Act.isUpdate := by
  obtain ⟨more, rfl, hm⟩ := h
  have hmore : more.filter Act.isUpdate = [] :=
    List.filter_eq_nil_iff.2 fun a ha => ne_true_of_eq_false (hm a ha)
  rw [List.filter_append, hmore, List.nil_append]

/-- The first update of a row stays the only one while nothing else is updated. -/
theorem onlyUpdate_of_quietly {j : Job} {change : Change} {x : Except StoreFault Bool}
    {before after : JobTable} (hnone : acts.filter Act.isUpdate = [])
    (h : Quietly (.called n op (.jobs (.updateIf j change)) x before after :: acts) acts') :
    OnlyUpdate n op j change x acts' := by
  refine ⟨before, after, ?_⟩
  rw [h.filter_isUpdate, List.filter_cons_of_pos rfl, hnone]

theorem Quietly.refl (acts : List Act) : Quietly acts acts :=
  ⟨[], rfl, fun _ h => absurd h List.not_mem_nil⟩

theorem claim_conduct (j : Job) (hacts : acts.filter Act.isUpdate = []) :
    Meets (conduct rules n (.claim j)) (fun o acts => ClaimConcludes n j acts (.ok o))
      (fun e acts => ClaimConcludes n j acts (.error e)) (Queue.claim j) acts := by
  refine Queue.meets_claim_clocked conduct_silent (fun hq => .inl ⟨hq, hacts, rfl⟩) ?_
  intro hq now t hnow
  obtain ⟨hshown, b, a, rfl⟩ := conduct_now hnow
  have hnone : (Act.called n (.claim j) .now now b a :: acts).filter Act.isUpdate = [] := hacts
  refine ⟨⟨rfl, hq, hnone, now, hshown, rfl⟩, ?_, ?_, ?_⟩
  · intro u hu v hv
    obtain ⟨before, _, _, rfl⟩ := conduct_jobs_ok hu
    exact ⟨now, onlyUpdate_of_quietly hnone hv, rfl⟩
  · intro u hu
    obtain ⟨before, _, _, rfl⟩ := conduct_jobs_ok hu
    exact ⟨now, onlyUpdate_of_quietly hnone (.refl _)⟩
  · rintro fault _ ⟨before, after, _, _, rfl⟩
    exact .inr ⟨now, fault, onlyUpdate_of_quietly hnone (.refl _), rfl⟩

theorem complete_conduct (c : Job) (o : Outcome) (hacts : acts.filter Act.isUpdate = []) :
    Meets (conduct rules n (.complete c o)) (fun d acts => CompletionConcludes rules n c o acts (.ok d))
      (fun e acts => CompletionConcludes rules n c o acts (.error e)) (Queue.complete rules c o) acts := by
  refine Queue.meets_complete_clocked conduct_silent ?_ ?_
  · intro hr target now t hnow
    obtain ⟨_, b, a, rfl⟩ := conduct_now hnow
    exact .inl ⟨hr, hacts, target, rfl⟩
  rintro hrun now t hnow v rfl
  obtain ⟨hshown, b, a, rfl⟩ := conduct_now hnow
  have hnone : (Act.called n (.complete c o) .now now b a :: acts).filter Act.isUpdate = [] := hacts
  refine ⟨⟨rfl, hrun, hnone, now, hshown, rfl⟩, ?_, ?_, ?_⟩
  · intro u hu u' hu'
    obtain ⟨before, _, _, rfl⟩ := conduct_jobs_ok hu
    exact ⟨now, onlyUpdate_of_quietly hnone hu', rfl⟩
  · intro u hu
    obtain ⟨before, _, _, rfl⟩ := conduct_jobs_ok hu
    exact .inr (.inl ⟨hrun, now, onlyUpdate_of_quietly hnone (.refl _), rfl⟩)
  · rintro fault _ ⟨before, after, _, _, rfl⟩
    exact .inr (.inr ⟨now, fault, onlyUpdate_of_quietly hnone (.refl _), rfl⟩)

/-- What an operation may give up it may give up later too, if it spares the row meanwhile. -/
theorem Overwrites.later {key words : String} (h : Overwrites key words acts) {more : List Act}
    (hmore : ∀ a ∈ more, a.Spares key) : Overwrites key words (more ++ acts) := by
  obtain ⟨since, read, before, reason, rfl, hread, hwords, hsince⟩ := h
  refine ⟨more ++ since, read, before, reason, (List.append_assoc ..).symm, hread, hwords, ?_⟩
  intro a ha
  rcases List.mem_append.1 ha with ha | ha
  · exact hmore a ha
  · exact hsince a ha

/-- The rule for giving up a row: it adds acts that spare the rows of all other keys. -/
theorem quarantine_conduct (op : Operation) {key : String} {reason : RowFault}
    (hmay : ∀ acts now, Overwrites key reason.message acts → Shown acts now →
      op.MayDo rules acts (.quarantine key reason.message now))
    (ho : Overwrites key reason.message acts) {good : Unit → List Act → Prop}
    (hgood : ∀ more, (∀ key', key' ≠ key → ∀ a ∈ more, a.Spares key') → good () (more ++ acts)) :
    Meets (conduct rules n op) good (fun _ _ => True) (Queue.quarantine key reason) acts := by
  unfold Queue.quarantine
  rw [meets_bind, Engine.meets_now]
  refine ⟨trivial, ?_⟩
  intro now _ hnow
  obtain ⟨hshown, b, a, rfl⟩ := conduct_now hnow
  have hclock : Overwrites key reason.message ([.called n op .now now b a] ++ acts) :=
    ho.later (by simp [Act.Spares])
  rw [meets_bind]
  refine Engine.meets_jobs.2 ⟨hmay _ _ hclock hshown, ?_, fun _ _ _ => trivial⟩
  intro x _ hx
  obtain ⟨before, _, _, rfl⟩ := conduct_jobs_ok hx
  rw [Engine.meets_emit]
  refine ⟨trivial, ?_⟩
  intro _ _ he
  obtain ⟨b', a', rfl⟩ := conduct_emit he
  refine hgood [_, _, _] ?_
  intro key' hne
  simp [Act.Spares, hne.symm]

theorem enqueueWithin_conduct (r : JobRequest) (rounds : Nat) :
    Meets (conduct rules n (.enqueue r)) (fun _ _ => True) (fun _ _ => True) (Queue.enqueueWithin r rounds)
      acts := by
  induction rounds generalizing acts with
  | zero => trivial
  | succ rounds ih =>
    unfold Queue.enqueueWithin
    rw [meets_bind, Engine.meets_now]
    refine ⟨trivial, ?_⟩
    intro now past hnow
    obtain ⟨hshown, _⟩ := conduct_now hnow
    dsimp only
    rw [meets_bind, Engine.meets_jobs]
    refine ⟨rfl, ?_, fun _ _ _ => trivial⟩
    intro x _ hx
    obtain ⟨before, hk, hrow, rfl⟩ := conduct_jobs_ok hx
    replace hrow : x = (before.row? r.key.text).map JobRow.decode := hrow
    cases x with
    | none =>
      dsimp only
      rw [meets_bind, Engine.meets_jobs]
      refine ⟨⟨now, hshown.cons _, rfl⟩, ?_, fun _ _ _ => trivial⟩
      intro x _ _
      cases x with
      | true => trivial
      | false => exact ih
    | some d =>
      obtain ⟨row, hr, hd⟩ := Option.map_eq_some_iff.1 hrow.symm
      cases d with
      | corrupt key reason =>
        dsimp only
        rw [meets_bind]
        have hfound : Overwrites key reason.message
            (.called n (.enqueue r) (.jobs (.find r.key.text)) (.ok (some (.corrupt key reason))) before
              ((JobStatement.find r.key.text).run before).2 :: past) :=
          ⟨[], _, past, reason, rfl, ⟨rfl, rfl⟩, rfl, fun _ h => absurd h List.not_mem_nil⟩
        refine quarantine_conduct (.enqueue r) (fun _ _ ho hn => ⟨ho, hn⟩) hfound ?_
        exact fun _ _ => ih
      | valid j =>
        dsimp only
        split
        · trivial
        · rename_i hreplaceable
          have hj : row.Says j := JobRow.decode_eq_valid_iff.1 hd
          have hkey : j.key = r.key :=
            JobKey.text_injective (hj.key.symm.trans (JobTable.key_of_row? hr))
          have hgives : j.isReplaceable = true := by simpa using hreplaceable
          rw [meets_bind, Engine.meets_jobs]
          refine ⟨⟨⟨now, hshown.cons _, rfl⟩, hkey, hgives⟩, ?_, fun _ _ _ => trivial⟩
          intro x _ _
          cases x with
          | false => exact ih
          | true =>
            rw [if_pos rfl, meets_bind]
            exact Queue.meets_announce conduct_silent fun _ _ => trivial

/-- The keys of the rows that cannot be read. -/
def corruptKeys (rows : List Decoded) : List String :=
  rows.filterMap fun
    | .valid _ => none
    | .corrupt key _ => some key

theorem mem_corruptKeys {rows : List Decoded} {key : String} {reason : RowFault}
    (h : .corrupt key reason ∈ rows) : key ∈ corruptKeys rows := by
  unfold corruptKeys
  exact List.mem_filterMap.2 ⟨_, h, rfl⟩

/-- Sifting gives up one row after another, each under its own key. -/
theorem sift_conduct {rows : List Decoded} {d : DueJobs} (hnodup : (corruptKeys rows).Nodup)
    (h : ∀ key reason, .corrupt key reason ∈ rows → Overwrites key reason.message acts) :
    Meets (conduct rules n .due) (fun _ _ => True) (fun _ _ => True) (Queue.sift rows d) acts := by
  induction rows generalizing d acts with
  | nil => trivial
  | cons row rows ih =>
    cases row with
    | valid i => exact ih hnodup fun key reason hr => h key reason (List.mem_cons_of_mem _ hr)
    | corrupt key reason =>
      have hnot : key ∉ corruptKeys rows := (List.nodup_cons.1 hnodup).1
      unfold Queue.sift
      rw [meets_bind]
      refine quarantine_conduct .due (fun _ _ ho hn => ⟨ho, hn⟩) (h key reason List.mem_cons_self) ?_
      intro more hmore
      refine ih (List.nodup_cons.1 hnodup).2 ?_
      intro key' reason' hr
      -- giving up one row spares the rows of the other keys, so that they are still as they were read
      have hne : key' ≠ key := fun e => hnot (e ▸ mem_corruptKeys hr)
      exact (h key' reason' (List.mem_cons_of_mem _ hr)).later (hmore key' hne)

/-- The rows of a keyed table give every key once at most, whatever their order. -/
theorem nodup_corruptKeys {t : JobTable} (hk : t.Keyed) (p : JobRow → Bool) (before : JobRow → JobRow → Bool) :
    (corruptKeys (((t.filter p).mergeSort before).map JobRow.decode)).Nodup := by
  refine List.Nodup.sublist ?_ (JobTable.keyed_sorted hk p before)
  generalize (t.filter p).mergeSort before = rows
  induction rows with
  | nil => exact List.Sublist.refl _
  | cons row rows ih =>
    cases hd : row.decode with
    | valid j =>
      rw [List.map_cons, List.map_cons, hd]
      exact ih.cons _
    | corrupt key reason =>
      have hkey : key = row.key := JobRow.key_of_decode hd
      rw [List.map_cons, List.map_cons, hd, ← hkey]
      exact ih.cons_cons _

theorem due_conduct :
    Meets (conduct rules n .due) (fun _ _ => True) (fun _ _ => True) Queue.due acts := by
  unfold Queue.due
  rw [meets_bind, Engine.meets_now]
  refine ⟨trivial, ?_⟩
  intro now past hnow
  rw [meets_bind, Engine.meets_jobs]
  refine ⟨(conduct_now hnow).1, ?_, fun _ _ _ => trivial⟩
  intro rows _ hrows
  obtain ⟨t, hk, hx, rfl⟩ := conduct_jobs_ok hrows
  rw [meets_map]
  refine sift_conduct ?_ ?_
  · rw [hx]
    exact nodup_corruptKeys hk _ _
  · intro key reason hr
    exact ⟨[], _, past, reason, rfl, hr, rfl, fun _ h => absurd h List.not_mem_nil⟩

theorem get_conduct (key : JobKey) :
    Meets (conduct rules n (.get key)) (fun _ _ => True) (fun _ _ => True) (Queue.get key) acts := by
  unfold Queue.get
  rw [meets_bind, Engine.meets_jobs]
  refine ⟨rfl, ?_, fun _ _ _ => trivial⟩
  intro row _ _
  cases row with
  | none => trivial
  | some d =>
    dsimp only
    rw [meets_map, Engine.meets_ofExcept]
    exact ⟨fun _ _ => trivial, fun _ _ => trivial⟩

theorem statement_conduct {s : JobStatement} (hmay : op.MayDo rules acts s) :
    Meets (conduct rules n op) (fun _ _ => True) (fun _ _ => True) (Engine.jobs s) acts := by
  rw [Engine.meets_jobs]
  exact ⟨hmay, fun _ _ _ => trivial, fun _ _ _ => trivial⟩

theorem promote_conduct :
    Meets (conduct rules n .promote) (fun _ _ => True) (fun _ _ => True) Queue.promote acts := by
  unfold Queue.promote
  rw [meets_bind, Engine.meets_now]
  exact ⟨trivial, fun now _ hnow => statement_conduct (s := .promote now) (conduct_now hnow).1⟩

theorem recover_conduct :
    Meets (conduct rules n .recover) (fun _ _ => True) (fun _ _ => True) Queue.recover acts := by
  unfold Queue.recover
  rw [meets_bind, Engine.meets_now]
  exact ⟨trivial, fun now _ hnow => statement_conduct (s := .resetRunning now) (conduct_now hnow).1⟩

theorem prune_conduct (retention : Duration) :
    Meets (conduct rules n (.prune retention)) (fun _ _ => True) (fun _ _ => True) (Queue.prune retention)
      acts := by
  unfold Queue.prune
  rw [meets_bind, Engine.meets_now]
  refine ⟨trivial, fun now _ hnow => ?_⟩
  exact statement_conduct (s := .deleteTerminal (now.before retention)) ⟨now, (conduct_now hnow).1, rfl⟩

/-- Every operation keeps to its conduct, whatever others do to the table between its calls. -/
theorem Operation.keeps_conduct (rules : RetryRules) (op : Operation) (hacts : acts.filter Act.isUpdate = []) :
    (op.program rules).run.Keeps (conduct rules n op) (fun r acts => op.Concludes rules n acts r) acts := by
  cases op with
  | claim j =>
    refine Keeps.mono ?_ (claim_conduct j hacts)
    rintro (e | _) _ he <;> exact he
  | complete c o =>
    refine Keeps.mono ?_ (complete_conduct c o hacts)
    rintro (e | _) _ he <;> exact he
  | enqueue r => exact Keeps.mono (fun _ _ _ => trivial) (enqueueWithin_conduct r Queue.enqueueRounds)
  | due => exact Keeps.mono (fun _ _ _ => trivial) due_conduct
  | get key => exact Keeps.mono (fun _ _ _ => trivial) (get_conduct key)
  | promote => exact Keeps.mono (fun _ _ _ => trivial) promote_conduct
  | recover => exact Keeps.mono (fun _ _ _ => trivial) recover_conduct
  | prune retention => exact Keeps.mono (fun _ _ _ => trivial) (prune_conduct retention)

/-! ## Every run is well conducted -/

variable {may : Policy} {start : JobTable} {past : List Act} {shop : Shop}

/-- What every call of a run was: one that its operation may make, after its begin and on the table that the past
    left. -/
structure Regular (rules : RetryRules) (start : JobTable) (earlier : List Act) (n : Nat) (op : Operation)
    (c : Call) (x : c.Answer) (before after : JobTable) : Prop where
  begun : .begun n op ∈ earlier
  number_lt : n < earlier.length
  before_eq : before = tableAfter start earlier
  keyed : before.Keyed
  answers : Answers before c x after
  may : (conduct rules n op).may (own n earlier) c

theorem Regular.mayDo {earlier : List Act} {s : JobStatement} {x : (Call.jobs s).Answer} {before after : JobTable}
    (h : Regular rules start earlier n op (.jobs s) x before after) : op.MayDo rules (own n earlier) s := h.may

/-- What an act of a run was after the earlier ones.  An operation that was begun was allowed, and it has the
    number of acts before its begin for its own. -/
def Act.IsRegular (rules : RetryRules) (may : Policy) (start : JobTable) : Act → List Act → Prop
  | begun n op, earlier => n = earlier.length ∧ may earlier op
  | called n op c x before after, earlier => Regular rules start earlier n op c x before after
  | ended n op r, earlier => op.Concludes rules n (own n earlier) r

/-- A state of a run in which every operation keeps to its conduct. -/
structure Conducted (rules : RetryRules) (may : Policy) (start : JobTable) (past : List Act) (shop : Shop) :
    Prop where
  keyed : shop.jobs.Keyed
  keeps : ∀ t ∈ shop.tasks, t.rest.Keeps (conduct rules t.number t.op)
    (fun r acts => t.op.Concludes rules t.number acts r) (own t.number past)
  acts : Each (Act.IsRegular rules may start) past

/-- No two operations under way have one number. -/
theorem Run.nodup (h : Run rules may start past shop) : (shop.tasks.map Task.number).Nodup := by
  induction h with
  | start => exact List.nodup_nil
  | @begin past shop h op hop ih =>
    refine List.nodup_cons.2 ⟨?_, ih⟩
    intro hm
    obtain ⟨t, ht, he⟩ := List.mem_map.1 hm
    exact absurd he (Nat.ne_of_lt (h.number_lt.1 t ht))
  | call _ _ ih =>
    rw [List.map_append, List.map_cons] at ih ⊢
    exact ih
  | finish _ ih =>
    rw [List.map_append, List.map_cons, List.perm_middle.nodup_iff, ← List.map_append] at ih
    exact (List.nodup_cons.1 ih).2

/-- A row that was found corrupt is one that cannot be read, in the table that the call left. -/
theorem exists_corrupt_of_findsCorrupt {c : Call} {x : c.Answer} {before after : JobTable} {key : String}
    {reason : RowFault} (hk : before.Keyed) (hanswers : Answers before c x after)
    (h : (Act.called n op c x before after).FindsCorrupt key reason) :
    ∃ row, after.row? key = some row ∧ row.decode = .corrupt key reason := by
  unfold Act.FindsCorrupt at h
  split at h
  · rename_i m op' k found r before' after' he
    cases he
    obtain ⟨rfl, rfl⟩ := h
    obtain ⟨hx, rfl⟩ := hanswers
    obtain ⟨row, hrow, hd⟩ := Option.map_eq_some_iff.1 hx.symm
    -- the row is told by its key, which is the one that was asked for
    have hkey : found = row.key := JobRow.key_of_decode hd
    have hasked := JobTable.key_of_row? hrow
    exact ⟨row, hkey ▸ hasked ▸ hrow, hd⟩
  · rename_i m op' now rows before' after' he
    cases he
    obtain ⟨rfl, rfl⟩ := hanswers
    obtain ⟨row, hrow, hd⟩ := List.mem_map.1 h
    rw [List.mem_mergeSort] at hrow
    have hkey : key = row.key := JobRow.key_of_decode hd
    have hfound := JobTable.row?_of_mem hk (List.mem_filter.1 hrow).1
    exact ⟨row, hkey ▸ hfound, hd⟩
  · exact h.elim

theorem keyed_of_answers {c : Call} {x : c.Answer} {before after : JobTable} (hk : before.Keyed)
    (h : Answers before c x after) : after.Keyed := by
  rcases h.table_eq with rfl | ⟨st, -, rfl⟩
  · exact hk
  · exact JobTable.keyed_run hk st

/-- Every run is well conducted, if no two rows have one key at its start. -/
theorem Run.conducted (h : Run rules may start past shop) (hk : start.Keyed) :
    Conducted rules may start past shop := by
  induction h with
  | start => exact ⟨hk, fun _ h => absurd h List.not_mem_nil, trivial⟩
  | @begin past shop h op hop ih =>
    have hown : own past.length (.begun past.length op :: past) = [.begun past.length op] := by
      rw [own_cons_of_eq (n := past.length) (.begun past.length op) past rfl, own_length_eq_nil h]
    refine ⟨ih.keyed, ?_, ⟨rfl, hop⟩, ih.acts⟩
    intro t ht
    rcases List.mem_cons.1 ht with rfl | ht
    · dsimp only
      rw [hown]
      exact Operation.keeps_conduct rules op rfl
    · rw [own_cons_of_ne (.begun past.length op) past (Nat.ne_of_gt (h.number_lt.1 t ht))]
      exact ih.keeps t ht
  | @call past t t' left right n op c next x h hx ih =>
    have hmem : (⟨n, op, .ask c next⟩ : Task) ∈ left ++ ⟨n, op, .ask c next⟩ :: right :=
      List.mem_append_right _ List.mem_cons_self
    obtain ⟨hm, hnext⟩ := ih.keeps _ hmem
    have hregular : Regular rules start past n op c x t t' :=
      ⟨h.begun_of_task _ hmem, h.number_lt.1 _ hmem, h.jobs_eq, ih.keyed, hx, hm⟩
    refine ⟨keyed_of_answers ih.keyed hx, ?_, hregular, ih.acts⟩
    intro u hu
    rcases mem_replaced h.nodup hu with rfl | ⟨hu, hne⟩
    · dsimp only
      rw [own_cons_of_eq (n := n) (.called n op c x t t') past rfl]
      exact hnext x _ ⟨t, t', ih.keyed, hx, rfl⟩
    · rw [own_cons_of_ne (.called n op c x t t') past hne.symm]
      exact ih.keeps u hu
  | @finish past t left right n op r h ih =>
    have hmem : (⟨n, op, .done r⟩ : Task) ∈ left ++ ⟨n, op, .done r⟩ :: right :=
      List.mem_append_right _ List.mem_cons_self
    refine ⟨ih.keyed, ?_, ih.keeps _ hmem, ih.acts⟩
    intro u hu
    obtain ⟨hu, hne⟩ := mem_removed h.nodup hu
    rw [own_cons_of_ne (.ended n op r) past hne.symm]
    exact ih.keeps u hu

end MediaBackup.Workers
