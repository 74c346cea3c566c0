import MediaBackup.Proofs.Workers.Sane

/-
  A claimed job belongs to one claim until it is completed.

  Workers are ORDERLY if they claim jobs of which they read a copy, however old, complete what a claim
  returned, once, and do not recover.  A job is IN FLIGHT from the moment its claim wrote the row until
  its completion ran its update, whoever has it in charge on the way.  The invariant (`Exclusive`): no two
  jobs in flight have one key, and the row of each is running with its count of attempts.  Every statement
  of an orderly operation leaves a running row alone, apart from the update of its own completion; this
  is `Exclusive.row_kept`, and all that is said about the rows follows from it.
-/

namespace MediaBackup.Workers

/-- Claims what was read, completes once what was claimed, and does not recover. -/
def Orderly : Policy
  | past, .claim j => j ∈ seen past
  | past, .complete c _ => c ∈ held past
  | _, .recover => False
  | _, _ => True

theorem Orderly.isProper : Policy.IsProper Orderly := by
  intro past op hseen hheld hop
  cases op with
  | claim j => exact (hseen j hop).1
  | complete c o => exact (hheld c hop).1
  | recover => exact hop.elim
  | enqueue _ => trivial
  | due => trivial
  | get _ => trivial
  | promote => trivial
  | prune _ => trivial

/-- The act runs the update that completes `c`. -/
def Act.Completes (c : Job) : Act → Prop
  | .called _ (.complete d _) (.jobs (.updateIf _ _)) _ _ _ => d = c
  | _ => False

/-! ## Jobs in flight -/

/-- The running jobs that operations have in their charge. -/
def charges (past : List Act) (tasks : List Task) : List Job :=
  tasks.filterMap fun t => t.op.charge (own t.number past)

/-- The jobs in flight: those that wait for their completion to be begun, and those in charge. -/
def flights (past : List Act) (tasks : List Task) : List Job := held past ++ charges past tasks

/-- The copies that an orderly operation was given. -/
def Operation.IsOrderly : Operation → Prop
  | claim j => j.key.IsProper
  | complete c _ => c.key.IsProper ∧ c.state = .running
  | recover => False
  | _ => True

/-- No two of the jobs have one key, and each is running in the row of its key. -/
structure Apart (t : JobTable) (l : List Job) : Prop where
  nodup : (l.map (·.key)).Nodup
  isProper : ∀ c ∈ l, c.key.IsProper ∧ c.state = .running
  current : ∀ c ∈ l, ∃ row, t.row? c.key.text = some row ∧ row.isCurrent c = true

/-- The operations are orderly, and the jobs in flight are apart. -/
structure Exclusive (past : List Act) (shop : Shop) : Prop where
  orderly : ∀ t ∈ shop.tasks, t.op.IsOrderly
  apart : Apart shop.jobs (flights past shop.tasks)

theorem Apart.perm {t : JobTable} {l l' : List Job} (h : Apart t l) (hl : l'.Perm l) : Apart t l' :=
  ⟨(hl.map _).nodup_iff.2 h.nodup, fun c hc => h.isProper c (hl.mem_iff.1 hc),
    fun c hc => h.current c (hl.mem_iff.1 hc)⟩

theorem Apart.key_ne {t : JobTable} {c : Job} {l : List Job} (h : Apart t (c :: l)) :
    ∀ d ∈ l, d.key ≠ c.key := by
  intro d hd he
  exact (List.nodup_cons.1 h.nodup).1 (List.mem_map.2 ⟨d, hd, he⟩)

theorem Apart.tail {t : JobTable} {a l : List Job} (h : Apart t (a ++ l)) : Apart t l := by
  refine ⟨?_, fun c hc => h.isProper c (List.mem_append_right a hc),
    fun c hc => h.current c (List.mem_append_right a hc)⟩
  have hn := h.nodup
  rw [List.map_append] at hn
  exact (List.nodup_append.1 hn).2.1

/-- Jobs whose rows stay remain apart. -/
theorem Apart.kept {t t' : JobTable} {l : List Job} (h : Apart t l)
    (ht : ∀ c ∈ l, t'.row? c.key.text = t.row? c.key.text) : Apart t' l := by
  refine ⟨h.nodup, h.isProper, ?_⟩
  intro c hc
  rw [ht c hc]
  exact h.current c hc

theorem charges_cons (past : List Act) (t : Task) (tasks : List Task) :
    charges past (t :: tasks) = (t.op.charge (own t.number past)).toList ++ charges past tasks := by
  unfold charges
  rw [List.filterMap_cons]
  cases t.op.charge (own t.number past) <;> rfl

theorem charges_congr {past past' : List Act} {tasks : List Task}
    (h : ∀ t ∈ tasks, own t.number past' = own t.number past) :
    charges past' tasks = charges past tasks := by
  induction tasks with
  | nil => rfl
  | cons t tasks ih =>
    rw [charges_cons, charges_cons, h t List.mem_cons_self, ih fun u hu => h u (List.mem_cons_of_mem _ hu)]

theorem charges_append (past : List Act) (left right : List Task) :
    charges past (left ++ right) = charges past left ++ charges past right := List.filterMap_append

/-- What one operation has in its charge is one of the jobs in flight; the others are apart from it. -/
theorem flights_perm (past : List Act) (left right : List Task) (t : Task) :
    (flights past (left ++ t :: right)).Perm
      ((t.op.charge (own t.number past)).toList ++ flights past (left ++ right)) := by
  unfold flights
  rw [charges_append, charges_cons, charges_append]
  have h : ∀ a b c d : List Job, (a ++ (b ++ (c ++ d))).Perm (c ++ (a ++ (b ++ d))) := by
    intro a b c d
    rw [← List.append_assoc, ← List.append_assoc, ← List.append_assoc a b d, ← List.append_assoc]
    exact List.Perm.append_right d List.perm_append_comm
  exact h _ _ _ _

/-! ## Running rows are left alone -/

theorem isReplaceable_of_running {j : Job} (h : j.state = .running) : j.isReplaceable = false := by
  unfold Job.isReplaceable
  rw [h]

/-- What an orderly operation may run leaves a running row alone, unless it completes a job of that key. -/
theorem effect_running {op : Operation} {acts : List Act} {s : JobStatement} (ho : op.IsOrderly)
    (hm : op.MayRun acts s) {k : JobKey} (hk : k.IsProper) {row : JobRow} (hkey : row.key = k.text)
    (hrun : row.state = JobState.running.name)
    (hc : ∀ c o change, op = .complete c o → s = .updateIf c change → c.key ≠ k) :
    s.effect k.text (some row) = some row := by
  cases s with
  | insertIfAbsent job => rfl
  | find _ => rfl
  | listDue _ => rfl
  | count _ => rfl
  | replaceIf job observed =>
    refine congrArg some (if_neg fun hobs => ?_)
    have hs : observed.state = .running :=
      (JobState.name_injective (hrun.symm.trans (JobRow.isObserved_iff.1 hobs).2.1)).symm
    cases op with
    | enqueue r =>
      have hr : observed.isReplaceable = true := hm.2.2
      rw [isReplaceable_of_running hs] at hr
      exact Bool.false_ne_true hr
    | _ => exact hm.elim
  | updateIf observed change =>
    refine congrArg some (if_neg fun hcur => ?_)
    obtain ⟨hok, hos, _⟩ := JobRow.isCurrent_iff.1 hcur
    have hs : observed.state = .running := (JobState.name_injective (hrun.symm.trans hos)).symm
    cases op with
    | claim j =>
      obtain ⟨rfl, hq, _⟩ := hm
      rw [hq] at hs
      exact JobState.noConfusion hs
    | complete c o =>
      obtain ⟨rfl, _⟩ := hm
      exact hc _ o change rfl rfl (JobKey.text_injective (hok.symm.trans hkey))
    | _ => exact hm.elim
  | quarantine key reason now =>
    have hp : JobKey.parse? key = none := by
      cases op with
      | enqueue _ => exact hm
      | due => exact hm
      | _ => exact hm.elim
    refine congrArg some (if_neg fun he => ?_)
    rw [← eq_of_beq he, hkey, JobKey.parse?_text hk] at hp
    exact Option.some_ne_none k hp
  | promote now =>
    refine congrArg some (if_neg fun hp => ?_)
    have hs : JobState.running.name = "retrying" := hrun.symm.trans (JobRow.isPromotable_iff.1 hp).1
    exact absurd hs (by decide)
  | resetRunning now =>
    cases op with
    | recover => exact ho.elim
    | _ => exact hm.elim
  | deleteTerminal limit =>
    have hp : row.isPrunable limit = false := by
      unfold JobRow.isPrunable
      rw [hrun]
      exact Bool.and_false _
    show (some row).filter (fun r => !r.isPrunable limit) = some row
    rw [Option.filter_some_pos (by rw [hp]; rfl)]

/-! ## How what is in charge changes -/

/-- A call wrote the row of a claim, or ended what was in charge, or left it. -/
theorem charge_called {n : Nat} {op : Operation} {c : Call} {acts : List Act} (x : c.Answer)
    (t t' : JobTable)
    (hm : (customs n op).may acts c) :
    (∃ j change, Act.called n op c x t t' = .called n (.claim j) (.jobs (.updateIf j change))
      (.ok true) t t' ∧
      j.state = .queued ∧ change.state = .running ∧
      op.charge (.called n op c x t t' :: acts) = some (j.claimed change)) ∨
    op.charge (.called n op c x t t' :: acts) = none ∨
    (op.charge (.called n op c x t t' :: acts) = op.charge acts ∧
      ∀ d, ¬ (Act.called n op c x t t').Completes d) := by
  cases op with
  | claim j =>
    cases c with
    | jobs s =>
      cases s with
      | updateIf observed change =>
        obtain ⟨rfl, hq, hrun, _⟩ := hm.2
        cases x with
        | error _ => exact .inr (.inr ⟨rfl, fun _ h => h⟩)
        | ok b =>
          cases b with
          | false => exact .inr (.inr ⟨rfl, fun _ h => h⟩)
          | true => exact .inl ⟨observed, change, rfl, hq, hrun, rfl⟩
      | _ => exact .inr (.inr ⟨rfl, fun _ h => h⟩)
    | _ => exact .inr (.inr ⟨rfl, fun _ h => h⟩)
  | complete d o =>
    cases c with
    | jobs s =>
      cases s with
      | updateIf observed change => exact .inr (.inl rfl)
      | _ => exact .inr (.inr ⟨rfl, fun _ h => h⟩)
    | _ => exact .inr (.inr ⟨rfl, fun _ h => h⟩)
  | _ => exact .inr (.inl rfl)

/-- An orderly operation that is at its end returns what it has in its charge. -/
theorem charge_eq_returned {n : Nat} {op : Operation} {acts : List Act} {r : Except Stop op.Result}
    (ho : op.IsOrderly) (h : op.Ends n acts r) : op.charge acts = op.returned r := by
  cases op with
  | claim j => exact h.1
  | complete c o => exact if_pos (h.1 ho.2).1
  | _ => rfl

/-- Beginning an operation moves a job from those that are held into its charge, or none. -/
theorem held_begun_perm {past : List Act} {op : Operation} (hop : Orderly past op) (n : Nat) :
    (held (.begun n op :: past) ++ (op.charge [.begun n op]).toList).Perm (held past) := by
  cases op with
  | complete c o =>
    have hc : c ∈ held past := hop
    exact List.perm_append_comm.trans (List.perm_cons_erase hc).symm
  | _ => exact .of_eq (List.append_nil _)

/-! ## The invariant of orderly runs -/

variable {rules : RetryRules} {past : List Act} {shop : Shop} {t t' : JobTable}
  {left right : List Task} {n : Nat}
  {op : Operation} {c : Call} {x : c.Answer}
  {next : c.Answer → Script Call Call.Answer (Except Stop op.Result)}

/-- What an operation is about to complete is in its charge. -/
theorem charge_of_completes (x : c.Answer) (t t' : JobTable) {d : Job}
    (hm : (customs n op).may (own n past) c)
    (hd : (Act.called n op c x t t').Completes d) : op.charge (own n past) = some d := by
  cases op with
  | complete e o =>
    cases c with
    | jobs s =>
      cases s with
      | updateIf observed change =>
        obtain rfl : e = d := hd
        exact if_neg (ne_true_of_eq_false hm.2.2.2)
      | _ => exact hd.elim
    | _ => exact hd.elim
  | _ => exact hd.elim

/-- A call leaves the row of every job in flight alone but of the one that it completes. -/
theorem Exclusive.row_kept (hE : Exclusive past ⟨t, left ++ ⟨n, op, .ask c next⟩ :: right⟩)
    (ht : t.IsSound) (hm : (customs n op).may (own n past) c) (hx : Answers t c x t') {d : Job}
    (hd : d ∈ flights past (left ++ ⟨n, op, .ask c next⟩ :: right))
    (hn : ¬ (Act.called n op c x t t').Completes d) : t'.row? d.key.text = t.row? d.key.text := by
  have hperm := flights_perm past left right ⟨n, op, .ask c next⟩
  obtain ⟨row, hrow, hcur⟩ := hE.apart.current d hd
  obtain ⟨hkey, hstate, _⟩ := JobRow.isCurrent_iff.1 hcur
  obtain ⟨hproper, hrun⟩ := hE.apart.isProper d hd
  cases c with
  | jobs s =>
    have heffect : (s.run t).2.row? d.key.text = t.row? d.key.text := by
      rw [JobTable.row?_run ht.keyed, hrow]
      refine effect_running (hE.orderly _ (List.mem_append_right _ List.mem_cons_self)) hm.2 hproper hkey
        (by rw [hstate, hrun]) ?_
      rintro e o change rfl rfl he
      have hcharge :
        (Operation.complete e o).charge (own n past) = some e := charge_of_completes x t t' hm rfl
      have hapart := hE.apart.perm hperm.symm
      rw [hcharge] at hapart hperm
      rcases List.mem_cons.1 (hperm.mem_iff.1 hd) with rfl | hd
      · exact hn rfl
      · exact hapart.key_ne d hd he.symm
    cases x with
    | ok x => exact hx.2 ▸ heffect
    | error _ =>
      rcases hx with rfl | rfl
      · rfl
      · exact heffect
  | now => exact hx.2 ▸ rfl
  | emit _ => obtain rfl : t' = t := hx; rfl
  | _ => exact hm.elim

/-- A call of one operation leaves the rows of all jobs alone that others have in charge. -/
theorem Exclusive.rest_kept (hE : Exclusive past ⟨t, left ++ ⟨n, op, .ask c next⟩ :: right⟩)
    (ht : t.IsSound) (hm : (customs n op).may (own n past) c) (hx : Answers t c x t') {d : Job}
    (hd : d ∈ flights past (left ++ right)) : t'.row? d.key.text = t.row? d.key.text := by
  have hperm := flights_perm past left right ⟨n, op, .ask c next⟩
  refine hE.row_kept ht hm hx (hperm.mem_iff.2 (List.mem_append_right _ hd)) fun hcomp => ?_
  have hA := hE.apart.perm hperm.symm
  dsimp only at hA
  rw [charge_of_completes x t t' hm hcomp] at hA
  exact hA.key_ne d hd rfl

/-- A claim that is granted was of a key of which no job is in flight, and its row is now running. -/
theorem Apart.claimed {l : List Job} (h : Apart t l) (ht : t.IsSound) {j : Job} {change : Change}
    (hq : j.state = .queued) (hp : j.key.IsProper) (hrun : change.state = .running)
    (hx : Answers t (.jobs (.updateIf j change)) (.ok true) t')
    (hkept : ∀ c ∈ l, t'.row? c.key.text = t.row? c.key.text) : Apart t' (j.claimed change :: l) := by
  obtain ⟨ha, rfl⟩ := hx
  rw [JobTable.answer_updateIf ht.keyed] at ha
  obtain ⟨row, hrow, hcur⟩ := (Option.any_eq_true _ _).1 ha.symm
  obtain ⟨hkey, hstate, _⟩ := JobRow.isCurrent_iff.1 hcur
  have heffect := JobTable.row?_run ht.keyed (.updateIf j change) j.key.text
  rw [hrow, show JobStatement.effect j.key.text (.updateIf j change) (some row) = some
    (row.apply change) from
    congrArg some (if_pos hcur)] at heffect
  have hl := h.kept hkept
  refine ⟨List.nodup_cons.2 ⟨?_, h.nodup⟩, ?_, ?_⟩
  · -- the row of a job in flight is running, but this one was queued
    intro hm
    obtain ⟨c, hc, he⟩ := List.mem_map.1 hm
    obtain ⟨row', hrow', hcur'⟩ := h.current c hc
    rw [show c.key = j.key from he, hrow] at hrow'
    obtain rfl := Option.some.inj hrow'
    obtain ⟨_, hstate', _⟩ := JobRow.isCurrent_iff.1 hcur'
    have hs := JobState.name_injective (hstate.symm.trans hstate')
    rw [hq, (h.isProper c hc).2] at hs
    exact nomatch hs
  · intro c hc
    rcases List.mem_cons.1 hc with rfl | hc
    · exact ⟨hp, hrun⟩
    · exact h.isProper c hc
  · intro c hc
    rcases List.mem_cons.1 hc with rfl | hc
    · exact ⟨row.apply change, heffect, JobRow.isCurrent_iff.2 ⟨hkey, rfl, rfl⟩⟩
    · exact hl.current c hc

theorem forall_mem_replaced {P : Operation → Prop} {left right : List Task} {t u : Task}
    (h : ∀ v ∈ left ++ t :: right, P v.op) (hu : u.op = t.op) : ∀ v ∈ left ++ u :: right, P v.op := by
  intro v hv
  rcases List.mem_append.1 hv with hv | hv
  · exact h v (List.mem_append_left _ hv)
  · rcases List.mem_cons.1 hv with rfl | hv
    · exact hu ▸ h t (List.mem_append_right _ List.mem_cons_self)
    · exact h v (List.mem_append_right _ (List.mem_cons_of_mem _ hv))

/-- Orderly workers keep the jobs in flight apart. -/
theorem Run.exclusive (h : Run rules Orderly [] past shop) : Exclusive past shop := by
  induction h with
  | start => exact ⟨fun _ h => absurd h List.not_mem_nil, List.nodup_nil,
      fun _ h => absurd h List.not_mem_nil,
      fun _ h => absurd h List.not_mem_nil⟩
  | @begin past shop h op hop ih =>
    have hS := h.sane JobTable.isSound_nil Orderly.isProper
    have hown : own past.length (.begun past.length op :: past) = [.begun past.length op] := by
      rw [own_cons_of_eq (n := past.length) (.begun past.length op) past rfl, own_length_eq_nil h]
    refine ⟨?_, ih.apart.perm ?_⟩
    · intro t ht
      rcases List.mem_cons.1 ht with rfl | ht
      · cases op with
        | claim j => exact (hS.seen j hop).2
        | complete c o =>
          have hc : c ∈ held past := hop
          exact ⟨(ih.apart.isProper c (List.mem_append_left _ hc)).1, (hS.held c hc).2⟩
        | recover => exact hop.elim
        | _ => trivial
      · exact ih.orderly t ht
    · unfold flights
      rw [charges_cons, charges_congr fun t ht =>
        own_cons_of_ne (.begun past.length op) past (Nat.ne_of_gt (h.number_lt.1 t ht)),
        ← List.append_assoc]
      dsimp only
      rw [hown]
      exact List.Perm.append_right _ (held_begun_perm hop past.length)
  | @call past t t' left right n op c next x h hx ih =>
    have hS := h.sane JobTable.isSound_nil Orderly.isProper
    have hmem : (⟨n, op, .ask c next⟩ : Task) ∈ left ++ ⟨n, op, .ask c next⟩ :: right :=
      List.mem_append_right _ List.mem_cons_self
    obtain ⟨hm, _⟩ := hS.keeps _ hmem
    refine ⟨forall_mem_replaced (t := ⟨n, op, .ask c next⟩) ih.orderly rfl, ?_⟩
    -- the others are in flight as before, and their rows stay
    have hrest : flights (.called n op c x t t' :: past) (left ++ right) =
        flights past (left ++ right) := by
      refine congrArg (held past ++ ·) (charges_congr fun u hu => ?_)
      exact own_cons_of_ne (.called n op c x t t') past (mem_removed hS.nodup hu).2.symm
    have hperm := flights_perm past left right ⟨n, op, .ask c next⟩
    have hperm' := flights_perm (.called n op c x t t' :: past) left right ⟨n, op, next x⟩
    rw [hrest] at hperm'
    dsimp only at hperm hperm'
    rw [own_cons_of_eq (n := n) (.called n op c x t t') past rfl] at hperm'
    have hA : Apart t ((op.charge (own n past)).toList ++ flights past (left ++ right)) :=
      ih.apart.perm hperm.symm
    have hkept : ∀ d ∈ flights past (left ++ right), t'.row? d.key.text = t.row? d.key.text :=
      fun d hd => ih.rest_kept hS.sound hm hx hd
    refine Apart.perm ?_ hperm'
    rcases charge_called x t t' hm with ⟨j, change, ha, hq, hrun, hcharge⟩ | hcharge | ⟨hcharge, hn⟩
    · cases ha
      rw [hcharge]
      exact hA.tail.claimed hS.sound hq (ih.orderly _ hmem) hrun hx hkept
    · rw [hcharge]
      exact hA.tail.kept hkept
    · rw [hcharge]
      refine hA.kept fun d hd => ?_
      exact ih.row_kept hS.sound hm hx (hperm.mem_iff.2 hd) (hn d)
  | @finish past t left right n op r h ih =>
    have hS := h.sane JobTable.isSound_nil Orderly.isProper
    have hmem : (⟨n, op, .done r⟩ : Task) ∈ left ++ ⟨n, op, .done r⟩ :: right :=
      List.mem_append_right _ List.mem_cons_self
    refine ⟨fun u hu => ih.orderly u (mem_removed hS.nodup hu).1,
      ih.apart.perm (.trans ?_ (flights_perm ..).symm)⟩
    have hcharge : op.charge (own n past) = op.returned r := charge_eq_returned (ih.orderly _ hmem)
      (hS.keeps _ hmem)
    have hrest : charges (.ended n op r :: past) (left ++ right) = charges past (left ++ right) :=
      charges_congr fun u hu => own_cons_of_ne (.ended n op r) past (mem_removed hS.nodup hu).2.symm
    unfold flights
    dsimp only
    rw [hcharge, hrest, held_ended, List.append_assoc]

/-! ## From a claim to its completion -/

theorem charge_isSome_of_granted {acts : List Act} {m : Nat} {op : Operation} {i j : Job} {change : Change}
    {before after : JobTable}
    (h : .called m op (.jobs (.updateIf i change)) (.ok true) before after ∈ acts) :
    ((Operation.claim j).charge acts).isSome = true := by
  unfold Operation.charge
  rw [Option.isSome_map, List.findSome?_isSome_iff]
  exact ⟨_, h, rfl⟩

/-- The update of a completion is never refused. -/
theorem Run.completion_not_refused (h : Run rules Orderly [] past shop) (m : Nat) (d : Job) (o : Outcome)
    (change : Change) (before after : JobTable) :
    .called m (.complete d o) (.jobs (.updateIf d change)) (.ok false) before after ∉ past := by
  induction h with
  | start => exact List.not_mem_nil
  | begin _ _ _ ih =>
    intro ha
    rcases List.mem_cons.1 ha with ha | ha
    · exact nomatch ha
    · exact ih ha
  | @call past t t' left right n op c next x h hx ih =>
    intro ha
    rcases List.mem_cons.1 ha with ha | ha
    · cases ha
      have hS := h.sane JobTable.isSound_nil Orderly.isProper
      have hE := h.exclusive
      have hmem : (⟨m, .complete d o, .ask (.jobs (.updateIf d change)) next⟩ : Task) ∈
          left ++ ⟨m, .complete d o, .ask (.jobs (.updateIf d change)) next⟩ :: right :=
        List.mem_append_right _ List.mem_cons_self
      have hcharge : (Operation.complete d o).charge (own m past) = some d :=
        charge_of_completes (c := .jobs (.updateIf d change)) (Except.ok false) before after
          (hS.keeps _ hmem).1 rfl
      have hd :
        d ∈ flights past (left ++ ⟨m, .complete d o, .ask (.jobs (.updateIf d change)) next⟩ :: right) :=
        List.mem_append_right _ (List.mem_filterMap.2 ⟨_, hmem, hcharge⟩)
      obtain ⟨row, hrow, hcur⟩ := hE.apart.current d hd
      have hanswer := hx.1
      rw [JobTable.answer_updateIf hS.sound.keyed, hrow, Option.any_some, hcur] at hanswer
      exact nomatch hanswer
    · exact ih ha
  | finish _ ih =>
    intro ha
    rcases List.mem_cons.1 ha with ha | ha
    · exact nomatch ha
    · exact ih ha

/-- No completion ends with the error that its row was changed while the job was running. -/
theorem Run.completion_not_lost (h : Run rules Orderly [] past shop) (m : Nat) (d : Job) (o : Outcome)
    (source target : JobState) :
    .ended m (.complete d o) (.error (.failed (.transition (.changedWhileRunning source target)))) ∉
      past := by
  induction h with
  | start => exact List.not_mem_nil
  | begin _ _ _ ih =>
    intro ha
    rcases List.mem_cons.1 ha with ha | ha
    · exact nomatch ha
    · exact ih ha
  | call _ _ ih =>
    intro ha
    rcases List.mem_cons.1 ha with ha | ha
    · exact nomatch ha
    · exact ih ha
  | @finish past t left right n op r h ih =>
    intro ha
    rcases List.mem_cons.1 ha with ha | ha
    · cases ha
      have hS := h.sane JobTable.isSound_nil Orderly.isProper
      have hmem :
        (⟨m, .complete d o,
          .done (.error (.failed (.transition (.changedWhileRunning source target))))⟩ : Task) ∈
          left ++ ⟨m, .complete d o,
            .done (.error (.failed (.transition (.changedWhileRunning source target))))⟩ :: right :=
        List.mem_append_right _ List.mem_cons_self
      have hends : (Operation.complete d o).Ends m (own m past)
        (.error (.failed (.transition (.changedWhileRunning source target)))) := hS.keeps _ hmem
      obtain ⟨change, before, after, hrefused⟩ :=
        (hends.1 (h.exclusive.orderly _ hmem).2).2 ⟨source, target, rfl⟩
      exact h.completion_not_refused m d o change before after (mem_of_mem_own hrefused)
    · exact ih ha

/-- The row that a claim wrote stays as it is while the claim is under way. -/
theorem Run.written (h : Run rules Orderly [] past shop) {u : Task} (hu : u ∈ shop.tasks) {j : Job}
    (hop : u.op = .claim j) {change : Change} {before after : JobTable}
    (ha : .called u.number (.claim j) (.jobs (.updateIf j change))
      (.ok true) before after ∈ own u.number past) :
    shop.jobs.row? j.key.text = after.row? j.key.text := by
  induction h generalizing u with
  | start => exact absurd hu List.not_mem_nil
  | @begin past shop h op hop' ih =>
    rcases List.mem_cons.1 hu with rfl | hu
    · rw [own_cons_of_eq (n := past.length) (.begun past.length op) past rfl, own_length_eq_nil h] at ha
      exact nomatch List.mem_singleton.1 ha
    · rw [own_cons_of_ne (.begun past.length op) past (Nat.ne_of_gt (h.number_lt.1 u hu))] at ha
      exact ih hu hop ha
  | @call past t t' left right n op c next x h hx ih =>
    have hS := h.sane JobTable.isSound_nil Orderly.isProper
    have hmem : (⟨n, op, .ask c next⟩ : Task) ∈ left ++ ⟨n, op, .ask c next⟩ :: right :=
      List.mem_append_right _ List.mem_cons_self
    obtain ⟨hm, _⟩ := hS.keeps _ hmem
    rcases eq_or_mem_of_mem hu with rfl | hu'
    · -- the claim itself: what it does after its write is no update
      obtain rfl : op = .claim j := hop
      dsimp only at ha
      rw [own_cons_of_eq (n := n) (.called n (.claim j) c x t t') past rfl] at ha
      rcases List.mem_cons.1 ha with ha | ha
      · cases ha
        rfl
      · rw [← ih hmem rfl ha]
        obtain ⟨_, hch⟩ := Option.isSome_iff_exists.1 (charge_isSome_of_granted (j := j) ha)
        obtain ⟨change', _, _, _, rfl, _⟩ := hS.granted hmem hch
        refine h.exclusive.row_kept hS.sound hm hx (d := j.claimed change') ?_ fun hcomp => ?_
        · exact List.mem_append_right _ (List.mem_filterMap.2 ⟨_, hmem, hch⟩)
        · cases c with
          | jobs s => cases s <;> exact hcomp
          | _ => exact hcomp
    · obtain ⟨hu, hne⟩ := mem_removed hS.nodup hu'
      rw [own_cons_of_ne (.called n op c x t t') past hne.symm] at ha
      rw [← ih hu hop ha]
      obtain ⟨m, op', rest⟩ := u
      obtain rfl : op' = .claim j := hop
      obtain ⟨_, hch⟩ := Option.isSome_iff_exists.1 (charge_isSome_of_granted (j := j) ha)
      obtain ⟨change', _, _, _, rfl, _⟩ := hS.granted hu hch
      refine h.exclusive.rest_kept hS.sound hm hx (d := j.claimed change') ?_
      exact List.mem_append_right _ (List.mem_filterMap.2 ⟨_, hu', hch⟩)
  | @finish past t left right n op r h ih =>
    have hS := h.sane JobTable.isSound_nil Orderly.isProper
    obtain ⟨hu, hne⟩ := mem_removed hS.nodup hu
    rw [own_cons_of_ne (.ended n op r) past hne.symm] at ha
    exact ih hu hop ha

/-- The job was returned by its claim, and its completion did not run its update yet. -/
def Waits (past : List Act) (tasks : List Task) (c : Job) : Prop :=
  c ∈ held past ∨ ∃ t ∈ tasks, (∃ o, t.op = .complete c o) ∧ t.op.charge (own t.number past) = some c

theorem Waits.mem_flights {past : List Act} {tasks : List Task} {c : Job} (h : Waits past tasks c) :
    c ∈ flights past tasks := by
  rcases h with hc | ⟨t, ht, _, hc⟩
  · exact List.mem_append_left _ hc
  · exact List.mem_append_right _ (List.mem_filterMap.2 ⟨t, ht, hc⟩)

/-- A job that waits goes on waiting until its completion runs. -/
theorem Waits.step_begin (h : Run rules Orderly [] past shop) {op : Operation}
    {rest : Script Call Call.Answer (Except Stop op.Result)} {d : Job} (hd : Waits past shop.tasks d) :
    Waits (.begun past.length op :: past) (⟨past.length, op, rest⟩ :: shop.tasks) d := by
  have hown : own past.length (.begun past.length op :: past) = [.begun past.length op] := by
    rw [own_cons_of_eq (n := past.length) (.begun past.length op) past rfl, own_length_eq_nil h]
  rcases hd with hd | ⟨t, ht, ho, hd⟩
  · cases op with
    | complete e o =>
      by_cases he : d = e
      · subst he
        refine .inr ⟨_, List.mem_cons_self, ⟨o, rfl⟩, ?_⟩
        dsimp only
        rw [hown]
        rfl
      · exact .inl ((List.mem_erase_of_ne he).2 hd)
    | _ => exact .inl hd
  · refine .inr ⟨t, List.mem_cons_of_mem _ ht, ho, ?_⟩
    rw [own_cons_of_ne (.begun past.length op) past (Nat.ne_of_gt (h.number_lt.1 t ht))]
    exact hd

theorem Waits.step_call (hS : Sane [] past ⟨t, left ++ ⟨n, op, .ask c next⟩ :: right⟩)
    {d : Job} (hd : Waits past (left ++ ⟨n, op, .ask c next⟩ :: right) d)
    (hn : ¬ (Act.called n op c x t t').Completes d) :
    Waits (.called n op c x t t' :: past) (left ++ ⟨n, op, next x⟩ :: right) d := by
  rcases hd with hd | ⟨u, hu, ⟨o, ho⟩, hd⟩
  · exact .inl hd
  · refine .inr ?_
    rcases eq_or_mem_of_mem hu with rfl | hu'
    · obtain rfl : op = .complete d o := ho
      refine ⟨_, List.mem_append_right _ List.mem_cons_self, ⟨o, rfl⟩, ?_⟩
      dsimp only
      rw [own_cons_of_eq (n := n) (.called n (.complete d o) c x t t') past rfl]
      obtain ⟨hm, _⟩ := hS.keeps _ hu
      cases c with
      | jobs s =>
        cases s with
        | updateIf i change => exact absurd rfl hn
        | _ => exact hd
      | _ => exact hd
    · have hne := (mem_removed hS.nodup hu').2
      refine ⟨u, ?_, ⟨o, ho⟩, ?_⟩
      · rcases List.mem_append.1 hu' with hu' | hu'
        · exact List.mem_append_left _ hu'
        · exact List.mem_append_right _ (List.mem_cons_of_mem _ hu')
      · rw [own_cons_of_ne (.called n op c x t t') past hne.symm]
        exact hd

/-- A job that waits is not in the charge of an operation at its end, and waits after that too. -/
theorem Waits.step_finish (hE : Exclusive past ⟨t, left ++ ⟨n, op, .done r⟩ :: right⟩)
    (hS : Sane [] past ⟨t, left ++ ⟨n, op, .done r⟩ :: right⟩) {d : Job}
    (hd : Waits past (left ++ ⟨n, op, .done r⟩ :: right) d) :
    d ∈ flights past (left ++ right) ∧ Waits (.ended n op r :: past) (left ++ right) d := by
  have hmem : (⟨n, op, .done r⟩ : Task) ∈ left ++ ⟨n, op, .done r⟩ :: right :=
    List.mem_append_right _ List.mem_cons_self
  rcases hd with hd | ⟨u, hu, ⟨o, ho⟩, hd⟩
  · refine ⟨List.mem_append_left _ hd, .inl ?_⟩
    rw [held_ended]
    exact List.mem_append_right _ hd
  · rcases eq_or_mem_of_mem hu with rfl | hu'
    · -- a completion at its end has run its update
      have hcharge := charge_eq_returned (hE.orderly _ hmem) (hS.keeps _ hmem)
      dsimp only at ho hd
      rw [hcharge] at hd
      subst ho
      exact nomatch hd
    · refine ⟨List.mem_append_right _ (List.mem_filterMap.2 ⟨u, hu', hd⟩), .inr ⟨u, hu', ⟨o, ho⟩, ?_⟩⟩
      rw [own_cons_of_ne (.ended n op r) past (mem_removed hS.nodup hu').2.symm]
      exact hd

/-- What holds from the return of a claim to its completion: the job waits, its row is the one that the
    claim wrote, and no other claim of the key returned a job. -/
structure Reserved (past : List Act) (shop : Shop) (later earlier : List Act) (n : Nat)
    (j c : Job) : Prop where
  waits : Waits past shop.tasks c
  key : c.key = j.key
  row : ∃ change before after,
    .called n (.claim j) (.jobs (.updateIf j change)) (.ok true) before after ∈ earlier ∧
      c = j.claimed change ∧ shop.jobs.row? c.key.text = after.row? c.key.text
  alone : ∀ m i d, .ended m (.claim i) (.ok (some d)) ∈ later → d.key ≠ c.key

theorem Run.reserved (h : Run rules Orderly [] past shop) (later earlier : List Act) (n : Nat) (j c : Job)
    (hp : past = later ++ .ended n (.claim j) (.ok (some c)) :: earlier)
    (hc : ∀ a ∈ later, ¬ a.Completes c) :
    Reserved past shop later earlier n j c := by
  induction h generalizing later with
  | start => exact absurd hp.symm (List.append_ne_nil_of_right_ne_nil later (List.cons_ne_nil _ _))
  | @begin past shop h op hop ih =>
    cases later with
    | nil => exact nomatch (List.cons.inj hp).1
    | cons a later =>
      obtain ⟨rfl, rfl⟩ := List.cons.inj hp
      obtain ⟨hw, hk, hrow, halone⟩ := ih later rfl fun a ha => hc a (List.mem_cons_of_mem _ ha)
      refine ⟨hw.step_begin h, hk, hrow, fun m i d hd => ?_⟩
      rcases List.mem_cons.1 hd with hd | hd
      · exact nomatch hd
      · exact halone m i d hd
  | @call past t t' left right m op call next x h hx ih =>
    cases later with
    | nil => exact nomatch (List.cons.inj hp).1
    | cons a later =>
      obtain ⟨rfl, rfl⟩ := List.cons.inj hp
      obtain ⟨hw, hk, ⟨change, before, after, ha, hcopy, hrow⟩, halone⟩ :=
        ih later rfl fun a ha => hc a (List.mem_cons_of_mem _ ha)
      have hS := h.sane JobTable.isSound_nil Orderly.isProper
      have hn := hc _ List.mem_cons_self
      obtain ⟨hm, _⟩ := hS.keeps ⟨m, op, .ask call next⟩ (List.mem_append_right _ List.mem_cons_self)
      refine ⟨hw.step_call hS hn, hk, ⟨change, before, after, ha, hcopy, ?_⟩, fun m i d hd => ?_⟩
      · exact (h.exclusive.row_kept hS.sound hm hx hw.mem_flights hn).trans hrow
      · rcases List.mem_cons.1 hd with hd | hd
        · exact nomatch hd
        · exact halone m i d hd
  | @finish past t left right m op r h ih =>
    have hS := h.sane JobTable.isSound_nil Orderly.isProper
    have hmem : (⟨m, op, .done r⟩ : Task) ∈ left ++ ⟨m, op, .done r⟩ :: right :=
      List.mem_append_right _ List.mem_cons_self
    cases later with
    | nil =>
      obtain ⟨he, rfl⟩ := List.cons.inj hp
      cases he
      have hends : (Operation.claim j).Ends n (own n past) (.ok (some c)) := hS.keeps _ hmem
      obtain ⟨change, before, after, ha, rfl, _⟩ := hS.granted hmem hends.1
      refine ⟨.inl List.mem_cons_self, rfl, ⟨change, before, after, mem_of_mem_own ha, rfl, ?_⟩, ?_⟩
      · exact h.written hmem rfl ha
      · exact fun _ _ _ hd => absurd hd List.not_mem_nil
    | cons a later =>
      obtain ⟨rfl, rfl⟩ := List.cons.inj hp
      obtain ⟨hw, hk, hrow, halone⟩ := ih later rfl fun a ha => hc a (List.mem_cons_of_mem _ ha)
      obtain ⟨hrest, hw⟩ := hw.step_finish h.exclusive hS
      refine ⟨hw, hk, hrow, fun m' i d hd => ?_⟩
      rcases List.mem_cons.1 hd with hd | hd
      · -- two claims at once would have two jobs of one key in flight
        cases hd
        have hends : (Operation.claim i).Ends m (own m _) (.ok (some d)) := hS.keeps _ hmem
        have hcharge : (Operation.claim i).charge (own m _) = some d := hends.1
        have hA := h.exclusive.apart.perm (flights_perm _ left right _).symm
        dsimp only at hA
        rw [hcharge] at hA
        exact (hA.key_ne c hrest).symm
      · exact halone m' i d hd

/-- **In-flight exclusivity.**  However orderly workers share a table that was empty at the start, no two
    held jobs have one key, no completion ends because its row was changed, and from the return of a claim
    until its completion runs the row is the one that the claim wrote and no other claim of its key returns
    a job. -/
theorem Run.claims_exclude (h : Run rules Orderly [] past shop) :
    ((held past).map (·.key)).Nodup ∧
    (∀ n c o source target,
      .ended n (.complete c o) (.error (.failed (.transition (.changedWhileRunning source target))))
        ∉ past) ∧
    ∀ later earlier n j c, past = later ++ .ended n (.claim j) (.ok (some c)) :: earlier →
      (∀ a ∈ later, ¬ a.Completes c) →
      (∃ change before after,
        .called n (.claim j) (.jobs (.updateIf j change)) (.ok true) before after ∈ earlier ∧
        c = j.claimed change ∧ shop.jobs.row? c.key.text = after.row? c.key.text ∧
        ∃ row, after.row? c.key.text = some row ∧ row.isCurrent c = true) ∧
      ∀ m i d, .ended m (.claim i) (.ok (some d)) ∈ later → d.key ≠ c.key := by
  refine ⟨?_, h.completion_not_lost, ?_⟩
  · have hn := h.exclusive.apart.nodup
    unfold flights at hn
    rw [List.map_append] at hn
    exact (List.nodup_append.1 hn).1
  · intro later earlier n j c hp hc
    obtain ⟨hw, hk, ⟨change, before, after, ha, hcopy, hrow⟩, halone⟩ :=
      h.reserved later earlier n j c hp hc
    refine ⟨⟨change, before, after, ha, hcopy, hrow, ?_⟩, halone⟩
    rw [← hrow]
    exact h.exclusive.apart.current c hw.mem_flights

/-- A scan is queued, read and claimed: it is held, and its row is running. -/
theorem Run.claims_exclude_first_scan :
    ∃ past shop c, Run .standard Orderly [] past shop ∧ held past = [c] ∧ c.key = .scan ∧
      ∃ row, shop.jobs.row? "scan" = some row ∧ row.isCurrent c = true := by
  let fresh := Job.fresh .scan .epoch
  let row := JobRow.ofJob fresh
  have hdate : Instant.epoch.IsDate := by decide
  have hrow : some row.decode = some (.valid fresh) :=
    congrArg some
      (JobRow.decode_eq_valid_iff.2 (JobRow.ofJob_says (Job.fresh_isProper .scan hdate) (by decide)))
  have h₀ : Run .standard Orderly [] [] ⟨[], []⟩ := .start
  have h₁ := (((h₀.begin (.enqueue .scan) trivial).call_alone Instant.epoch [] ⟨hdate, rfl⟩).call_alone
    (c := .jobs (.find "scan")) (.ok none) [] ⟨rfl, rfl⟩).call_alone
    (c := .jobs (.insertIfAbsent fresh)) (.ok true) [row] ⟨rfl, rfl⟩
  have h₂ := ((h₁.finish_alone.begin (.get .scan) trivial).call_alone
    (c := .jobs (.find "scan")) (.ok (some (.valid fresh))) [row] ⟨hrow.symm, rfl⟩).finish_alone
  have h₃ :=
    ((h₂.begin (.claim fresh) List.mem_cons_self).call_alone Instant.epoch [row] ⟨hdate, rfl⟩).call_alone
    (c := .jobs (.updateIf fresh ⟨.running, 1, .epoch, none, none, .epoch⟩)) (.ok true) _ ⟨rfl, rfl⟩
  have h₄ := (h₃.call_alone () _ rfl).finish_alone
  obtain ⟨⟨_, _, _, _, _, hsame, hcur⟩, _⟩ :=
    h₄.claims_exclude.2.2 [] _ _ _ _ rfl fun _ h => absurd h List.not_mem_nil
  rw [← hsame] at hcur
  exact ⟨_, _, _, h₄, rfl, rfl, hcur⟩

end MediaBackup.Workers
