import MediaBackup.Proofs.Workers.Fencing
import MediaBackup.Proofs.Workers.Moves

/-
  Counting the jobs beside workers.

  The states are counted one after another, each by a statement of its own, and between two of them workers go on.
  So no count is one of the table at an instant.  A job that comes to a state after that was counted, from one that
  is counted later, is in no count at all: the one that is queued again while the queue is counted
  (`counts_over_promotion`).  Nothing else slips through.  A row gets to run only from the queue
  (`Regular.queued_of_started`), so where a queue is found idle, each job that was still looked at when the last
  of the three states was counted had been put into the queue meanwhile (`queued_of_isIdle`).
-/

namespace MediaBackup

namespace JobTable

variable {t : JobTable} {key : String} {s : JobState}

/-- The job of a key is in this state. -/
def IsIn (t : JobTable) (key : String) (s : JobState) : Prop := ∃ row, t.row? key = some row ∧ row.state = s.name

/-- The job of a key is still looked at. -/
def IsActive (t : JobTable) (key : String) : Prop := ∃ s, s.isActive = true ∧ t.IsIn key s

/-- No job is in a state of which none was counted. -/
theorem not_isIn_of_count_eq_zero (h : ((JobStatement.count s).run t).1 = 0) (key : String) : ¬t.IsIn key s := by
  rintro ⟨row, hrow, hs⟩
  have hcounted : row.state ≠ s.name := by simpa using List.countP_eq_zero.mp h row (mem_of_row? hrow)
  exact hcounted hs

end JobTable

namespace Workers

open Script

variable {rules : RetryRules} {may : Policy} {start : JobTable}

/-! ## Where running jobs come from -/

/-- The act put the job of a key into the queue. -/
def Act.Queues (key : String) : Act → Prop
  | .called _ _ _ _ before after => ¬before.IsIn key .queued ∧ after.IsIn key .queued
  | _ => False

/-- A job that was started was queued. -/
theorem Regular.queued_of_started {earlier : List Act} {n : Nat} {op : Operation} {c : Call} {x : c.Answer}
    {before after : JobTable} (h : Regular rules start earlier n op c x before after) {key : String}
    (hbefore : ¬before.IsIn key .running) (hafter : after.IsIn key .running) : before.IsIn key .queued := by
  obtain ⟨row, hrow, hstate⟩ := hafter
  rcases h.moves key with hstays | ⟨s, rfl, hmove⟩
  · exact absurd ⟨row, hstays ▸ hrow, hstate⟩ hbefore
  rw [hrow] at hmove
  -- of all moves only a claim makes a row run
  have hother : ∀ t : JobState, t ≠ .running → row.state ≠ t.name := fun t ht hname =>
    ht (JobState.name_injective (hname.symm.trans hstate))
  generalize hfound : before.row? key = found at hmove
  cases hmove with
  | inserted => exact absurd rfl (hother .queued JobState.noConfusion)
  | replaced => exact absurd rfl (hother .queued JobState.noConfusion)
  | quarantined => exact absurd rfl (hother .abandoned JobState.noConfusion)
  | claimed _ hq _ hcurrent =>
    obtain ⟨-, hqueued, -⟩ := JobRow.isCurrent_iff.mp hcurrent
    exact ⟨_, hfound, hqueued.trans (congrArg JobState.name hq)⟩
  | completed _ hrun _ hcurrent =>
    obtain ⟨-, hrunning, -⟩ := JobRow.isCurrent_iff.mp hcurrent
    exact absurd ⟨_, hfound, hrunning.trans (congrArg JobState.name hrun)⟩ hbefore
  | promoted => exact absurd rfl (hother .queued JobState.noConfusion)
  | reset => exact absurd rfl (hother .queued JobState.noConfusion)

/-- A job that is not queued is not queued after some acts that do not queue it. -/
theorem not_queued_of_acts {key : String} {earlier during : List Act}
    (hacts : Each (Act.IsRegular rules may start) (during ++ earlier)) (hquiet : ∀ a ∈ during, ¬a.Queues key)
    (h : ¬(tableAfter start earlier).IsIn key .queued) :
    ¬(tableAfter start (during ++ earlier)).IsIn key .queued := by
  refine kept_of_acts (P := fun t => ¬t.IsIn key .queued) during hacts h ?_
  intro meanwhile n op c x before after hsuffix _ hbefore hafter
  exact hquiet _ (hsuffix.mem List.mem_cons_self) ⟨hbefore, hafter⟩

/-- A job that is neither queued nor running does not run after some acts that do not queue it. -/
theorem not_running_of_acts {key : String} {earlier during : List Act}
    (hacts : Each (Act.IsRegular rules may start) (during ++ earlier)) (hquiet : ∀ a ∈ during, ¬a.Queues key)
    (hqueued : ¬(tableAfter start earlier).IsIn key .queued)
    (hrunning : ¬(tableAfter start earlier).IsIn key .running) :
    ¬(tableAfter start (during ++ earlier)).IsIn key .running := by
  refine (kept_of_acts (P := fun t => ¬t.IsIn key .queued ∧ ¬t.IsIn key .running) during hacts
    ⟨hqueued, hrunning⟩ ?_).2
  intro meanwhile n op c x before after hsuffix hregular hbefore
  have hcall : Regular rules start (meanwhile ++ earlier) n op c x before after := hregular.1
  refine ⟨fun hafter => ?_, fun hafter => ?_⟩
  · exact hquiet _ (hsuffix.mem List.mem_cons_self) ⟨hbefore.1, hafter⟩
  · exact hbefore.1 (hcall.queued_of_started hbefore.2 hafter)

/-! ## What is counted -/

/-- A program that only reads, beside workers: they go on for a while, and then a call of it is answered on the
    table that they left. -/
def beside (rules : RetryRules) (may : Policy) (start : JobTable) : Protocol Call Call.Answer (List Act) where
  may _ _ := True
  answers past c x past' := ∃ during shop, past' = during ++ past ∧ Run rules may start past' shop ∧
    Answers (tableAfter start past') c x (tableAfter start past')

/-- How many jobs are in a state after some acts. -/
def countAfter (start : JobTable) (past : List Act) (s : JobState) : Nat :=
  ((JobStatement.count s).run (tableAfter start past)).1

/-- The numbers are those of jobs that were counted after `earlier`, state by state. -/
def Counted (start : JobTable) (earlier : List Act) (c : QueueCount) (past : List Act) : Prop :=
  ∃ first second third rest, past = rest ++ (third ++ (second ++ (first ++ earlier))) ∧
    c.queued = countAfter start (first ++ earlier) .queued ∧
    c.running = countAfter start (second ++ (first ++ earlier)) .running ∧
    c.retrying = countAfter start (third ++ (second ++ (first ++ earlier))) .retrying

theorem stats_counts (earlier : List Act) :
    Meets (beside rules may start) (Counted start earlier) (fun _ _ => True) Queue.stats earlier := by
  unfold Queue.stats
  rw [meets_bind, Engine.meets_jobs]
  refine ⟨trivial, ?_, fun _ _ _ => trivial⟩
  rintro queued _ ⟨first, _, rfl, _, hqueued, _⟩
  rw [meets_bind, Engine.meets_jobs]
  refine ⟨trivial, ?_, fun _ _ _ => trivial⟩
  rintro running _ ⟨second, _, rfl, _, hrunning, _⟩
  rw [meets_bind, Engine.meets_jobs]
  refine ⟨trivial, ?_, fun _ _ _ => trivial⟩
  rintro retrying _ ⟨third, _, rfl, _, hretrying, _⟩
  rw [meets_bind, Engine.meets_jobs]
  refine ⟨trivial, ?_, fun _ _ _ => trivial⟩
  rintro succeeded _ ⟨fourth, _, rfl, _, _, _⟩
  rw [meets_bind, Engine.meets_jobs]
  refine ⟨trivial, ?_, fun _ _ _ => trivial⟩
  rintro abandoned _ ⟨fifth, _, rfl, _, _, _⟩
  exact ⟨first, second, third, fifth ++ fourth, by rw [List.append_assoc], hqueued, hrunning, hretrying⟩

/-- A program that only reads leaves the workers with acts of a run. -/
theorem exists_run_of_reaches {α : Type} {p q : Script Call Call.Answer α} {earlier past : List Act} {shop : Shop}
    (hrun : Run rules may start earlier shop) (h : Reaches (beside rules may start) p earlier q past) :
    ∃ shop, Run rules may start past shop := by
  cases h with
  | here => exact ⟨_, hrun⟩
  | goes _ hx =>
    obtain ⟨_, shop, _, hrun', _⟩ := hx
    exact ⟨shop, hrun'⟩

/-- **Idle, but for what was queued meanwhile.**  Whatever workers do to a table, readable or not, while its jobs
    are counted: if the numbers say that the queue is idle, there was an instant of the counting at which each job
    that was still looked at had been put into the queue since the counting began.  So a job that is looked at all the
    time, and that nobody puts into the queue, is counted. -/
theorem queued_of_isIdle (hk : start.Keyed) {earlier past : List Act} {shop : Shop} {c : QueueCount}
    (hrun : Run rules may start earlier shop)
    (hcount : Reaches (beside rules may start) Queue.stats.run earlier (.done (.ok c)) past)
    (hidle : c.isIdle = true) :
    ∃ during rest, past = rest ++ (during ++ earlier) ∧
      ∀ key, (tableAfter start (during ++ earlier)).IsActive key → ∃ a ∈ during, a.Queues key := by
  have hstats : Meets (beside rules may start) (Counted start earlier) (fun _ _ => True) Queue.stats earlier :=
    stats_counts earlier
  obtain ⟨first, second, third, rest, rfl, hqueued, hrunning, hretrying⟩ := hstats.reaches hcount
  obtain ⟨shop', hrun'⟩ := exists_run_of_reaches hrun hcount
  have hacts : Each (Act.IsRegular rules may start) (third ++ (second ++ (first ++ earlier))) :=
    (hrun'.conducted hk).acts.of_append
  simp only [QueueCount.isIdle, Bool.and_eq_true, beq_iff_eq] at hidle
  obtain ⟨⟨hzero₁, hzero₂⟩, hzero₃⟩ := hidle
  refine ⟨third ++ (second ++ first), rest, by simp, ?_⟩
  simp only [List.append_assoc]
  rintro key ⟨s, hs, hin⟩
  refine Classical.byContradiction fun hnone => ?_
  have hquiet : ∀ a ∈ third ++ (second ++ first), ¬a.Queues key := fun a ha hq => hnone ⟨a, ha, hq⟩
  have hquiet₂ : ∀ a ∈ second, ¬a.Queues key := fun a ha => hquiet a (by simp [ha])
  have hquiet₃ : ∀ a ∈ third, ¬a.Queues key := fun a ha => hquiet a (by simp [ha])
  -- not queued from the first count on, not running from the second, not retrying at the third
  have hqueued₁ := JobTable.not_isIn_of_count_eq_zero (hqueued.symm.trans hzero₁) key
  have hqueued₂ := not_queued_of_acts hacts.of_append hquiet₂ hqueued₁
  have hrunning₂ := JobTable.not_isIn_of_count_eq_zero (hrunning.symm.trans hzero₂) key
  have hqueued₃ := not_queued_of_acts hacts hquiet₃ hqueued₂
  have hrunning₃ := not_running_of_acts hacts hquiet₃ hqueued₂ hrunning₂
  have hretrying₃ := JobTable.not_isIn_of_count_eq_zero (hretrying.symm.trans hzero₃) key
  cases s with
  | queued => exact hqueued₃ hin
  | running => exact hrunning₃ hin
  | retrying => exact hretrying₃ hin
  | succeeded | failed | abandoned => exact nomatch hs

/-! ## A promotion between two counts -/

/-- A scan that waits for another attempt. -/
def delayedScan : Job := { waitingScan with state := .retrying, attempt := 1 }

/-- The promotion that queues it. -/
def promotion : Act :=
  .called 0 .promote (.jobs (.promote .epoch)) (.ok 1) [.ofJob delayedScan] [.ofJob interruptedScan]

/-- The scan waits when the queued jobs are counted, and is queued when those are counted that run or wait for
    another attempt. -/
theorem exists_counts_over_promotion : ∃ earlier shop,
    Run .standard Unrestricted [.ofJob delayedScan] earlier shop ∧
    tableAfter [.ofJob delayedScan] earlier = [.ofJob delayedScan] ∧
    Reaches (beside .standard Unrestricted [.ofJob delayedScan]) Queue.stats.run earlier
      (.done (.ok ⟨0, 0, 0, 0, 0⟩)) (promotion :: earlier) := by
  have h₀ : Run .standard Unrestricted [.ofJob delayedScan] [] ⟨[.ofJob delayedScan], []⟩ := .start
  have h₁ := (h₀.begin .promote trivial).call_alone Instant.epoch _ ⟨isDate_epoch, rfl⟩
  have h₂ := h₁.call_alone (c := .jobs (.promote .epoch)) (.ok 1) [.ofJob interruptedScan] ⟨rfl, rfl⟩
  refine ⟨_, _, h₁, rfl, ?_⟩
  have hfirst := (Reaches.here (w := beside .standard Unrestricted [.ofJob delayedScan])
    (p := Queue.stats.run)).answered (.ok 0) _ ⟨[], _, rfl, h₁, rfl, rfl⟩
  have hsecond := hfirst.answered (.ok 0) _ ⟨[promotion], _, rfl, h₂, rfl, rfl⟩
  have hthird := hsecond.answered (.ok 0) _ ⟨[], _, rfl, h₂, rfl, rfl⟩
  have hfourth := hthird.answered (.ok 0) _ ⟨[], _, rfl, h₂, rfl, rfl⟩
  exact hfourth.answered (.ok 0) _ ⟨[], _, rfl, h₂, rfl, rfl⟩

/-- The scan that is queued while the queue is counted was put into the queue by one of the acts. -/
theorem queued_of_isIdle_promotion : ∃ earlier shop,
    Run .standard Unrestricted [.ofJob delayedScan] earlier shop ∧
    Reaches (beside .standard Unrestricted [.ofJob delayedScan]) Queue.stats.run earlier
      (.done (.ok ⟨0, 0, 0, 0, 0⟩)) (promotion :: earlier) ∧
    ∃ during rest, promotion :: earlier = rest ++ (during ++ earlier) ∧
      ∀ key, (tableAfter [.ofJob delayedScan] (during ++ earlier)).IsActive key →
        ∃ a ∈ during, a.Queues key := by
  have hkeyed : JobTable.Keyed [.ofJob delayedScan] := List.pairwise_singleton _ _
  obtain ⟨earlier, shop, hrun, _, hcount⟩ := exists_counts_over_promotion
  exact ⟨earlier, shop, hrun, hcount, queued_of_isIdle hkeyed hrun hcount rfl⟩

/-- A queue is found idle though the scan in it is looked at all the time: it waits for another attempt when the
    queued jobs are counted, and is queued when those are counted that wait. -/
theorem idle_over_promotion : ∃ earlier shop c past during,
    Run .standard Unrestricted [.ofJob delayedScan] earlier shop ∧
    Reaches (beside .standard Unrestricted [.ofJob delayedScan]) Queue.stats.run earlier (.done (.ok c)) past ∧
    past = during ++ earlier ∧ c.isIdle = true ∧
    ∀ m, m <:+ during → (tableAfter [.ofJob delayedScan] (m ++ earlier)).IsActive "scan" := by
  obtain ⟨earlier, shop, hrun, hbefore, hcount⟩ := exists_counts_over_promotion
  refine ⟨earlier, shop, _, _, [promotion], hrun, hcount, rfl, rfl, ?_⟩
  intro m hm
  rcases List.suffix_cons_iff.mp hm with rfl | hm
  · exact ⟨.queued, rfl, .ofJob interruptedScan, rfl, rfl⟩
  · obtain rfl := List.suffix_nil.mp hm
    exact ⟨.retrying, rfl, .ofJob delayedScan, congrArg (JobTable.row? · "scan") hbefore, rfl⟩

end Workers

end MediaBackup
