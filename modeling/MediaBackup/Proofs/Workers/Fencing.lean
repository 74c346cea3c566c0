import MediaBackup.Proofs.Workers.Habits
import MediaBackup.Proofs.Workers.Moves

/-
  What keeps an interrupted attempt from writing its outcome.

  A recovery queues every running job and keeps its count of attempts; the next claim counts one more.  A
  completion writes only where the row is running with the count of its copy.  So the completion of an attempt
  that a recovery interrupted finds the row queued, or with a greater count, or gone: it writes nothing and ends
  with the error that the row was changed (`Run.recovery_fences`).

  The count is all there is of a fence.  A fresh job of the same key counts from zero again, and once it was
  started as often it looks like the attempt that was interrupted (`Run.fence_passed`).  The count also has an
  end, where claims do not raise it.  So the theorem speaks of the time until a fresh job is written, and of
  counts below the end.
-/

namespace MediaBackup.Workers

/-- The act is a recovery that queued the running row of a copy. -/
def Act.Interrupts (c : Job) : Act → Prop
  | .called _ _ (.jobs (.resetRunning _)) _ before after =>
    (∃ row, before.row? c.key.text = some row ∧ row.isCurrent c = true) ∧
      before.row? c.key.text ≠ after.row? c.key.text
  | _ => False

/-- The row is past an attempt with this count: it was given up, it is queued with the count, or it has a
    greater one. -/
def IsPast (count : Nat) (row : JobRow) : Prop :=
  row.state = "abandoned" ∨ (row.state = "queued" ∧ row.attempt = .int count) ∨
    ∃ n : Nat, count < n ∧ row.attempt = .int n

/-- The row went beyond an attempt with this count: it was given up, or it has a greater one. -/
def IsBeyond (count : Nat) (row : JobRow) : Prop :=
  row.state = "abandoned" ∨ ∃ n : Nat, count < n ∧ row.attempt = .int n

/-- The row of the key is past the attempt, or there is none. -/
def Passed (key : String) (count : Nat) (t : JobTable) : Prop := ∀ row, t.row? key = some row → IsPast count row

/-- The row of the key is beyond the attempt, or there is none. -/
def Outrun (key : String) (count : Nat) (t : JobTable) : Prop := ∀ row, t.row? key = some row → IsBeyond count row

variable {n count : Nat} {op : Operation} {acts : List Act} {key : String} {row : JobRow}

/-! ## The invariant -/

/-- A row that is past a running attempt is not the row of its copy. -/
theorem IsPast.not_isCurrent {c : Job} (hc : c.state = .running) (h : IsPast c.attempt row) :
    row.isCurrent c = false := by
  refine eq_false_of_ne_true fun hcur => ?_
  obtain ⟨_, hs, ha⟩ := JobRow.isCurrent_iff.1 hcur
  rw [hc] at hs
  rcases h with habandoned | ⟨hqueued, _⟩ | ⟨n, hn, hcount⟩
  · rw [habandoned] at hs
    exact absurd hs (by decide)
  · rw [hqueued] at hs
    exact absurd hs (by decide)
  · rw [hcount, Cell.int.injEq] at ha
    omega

theorem IsBeyond.isPast (h : IsBeyond count row) : IsPast count row := by
  rcases h with habandoned | hcount
  · exact .inl habandoned
  · exact .inr (.inr hcount)

/-- A row that is past an attempt, and neither queued nor given up, has a greater count. -/
theorem IsPast.exists_lt (h : IsPast count row) (hq : row.state ≠ "queued") (ha : row.state ≠ "abandoned") :
    ∃ n : Nat, count < n ∧ row.attempt = .int n := by
  rcases h with habandoned | ⟨hqueued, _⟩ | hcount
  · exact absurd habandoned ha
  · exact absurd hqueued hq
  · exact hcount

/-- A queued row that is past an attempt has its count at least. -/
theorem IsPast.le_of_queued {j : Job} (h : IsPast count row) (hq : j.state = .queued)
    (hcurrent : row.isCurrent j = true) : count ≤ j.attempt := by
  obtain ⟨_, hs, ha⟩ := JobRow.isCurrent_iff.1 hcurrent
  rcases h with habandoned | ⟨_, hcount⟩ | ⟨n, hn, hcount⟩
  · rw [habandoned, hq] at hs
    exact absurd hs (by decide)
  · rw [hcount, Cell.int.injEq] at ha
    omega
  · rw [hcount, Cell.int.injEq] at ha
    omega

variable {rules : RetryRules} {may : Policy} {start : JobTable} {past : List Act} {shop : Shop}
  {earlier : List Act} {before after : JobTable}

/-- Every move of a row that is past an attempt takes it beyond, unless it writes a fresh job. -/
theorem Move.isBeyond {s : JobStatement} {row' : JobRow} (h : Move rules acts key op s (some row) (some row'))
    (hnew : renews s = false) (hmax : count < Job.attemptMax) (hpast : IsPast count row) :
    IsBeyond count row' := by
  cases h with
  | replaced _ _ _ _ => exact nomatch hnew
  | quarantined _ _ => exact .inl rfl
  | @claimed j now _ _ hq _ hrow =>
    have hle : count ≤ j.attempt := hpast.le_of_queued hq hrow
    refine .inr ⟨min (j.attempt + 1) Job.attemptMax, ?_, rfl⟩
    omega
  | @completed c o now _ _ hrun _ hrow =>
    obtain ⟨_, hs, ha⟩ := JobRow.isCurrent_iff.1 hrow
    rw [hrun] at hs
    obtain ⟨n, hn, hcount⟩ := hpast.exists_lt (by rw [hs]; decide) (by rw [hs]; decide)
    have hkeeps : c.attempt = n := by
      rw [hcount, Cell.int.injEq] at ha
      omega
    exact .inr ⟨c.attempt, by omega, rfl⟩
  | promoted _ hrow =>
    obtain ⟨hs, _⟩ := JobRow.isPromotable_iff.1 hrow
    exact .inr (hpast.exists_lt (by rw [hs]; decide) (by rw [hs]; decide))
  | reset _ hs => exact .inr (hpast.exists_lt (by rw [hs]; decide) (by rw [hs]; decide))

/-- A call that changes a row that is past an attempt takes it beyond, unless it writes a fresh job. -/
theorem Passed.outrun {c : Call} {x : c.Answer} (hr : Regular rules start earlier n op c x before after)
    (hmax : count < Job.attemptMax) (hnew : ¬ (Act.called n op c x before after).Renews key)
    (hchanged : before.row? key ≠ after.row? key) (h : Passed key count before) : Outrun key count after := by
  intro row' hrow'
  rcases hr.moves_of_not_renews hnew with hstays | ⟨s, rfl, hrenews, hmove⟩
  · exact absurd hstays.symm hchanged
  rw [hrow'] at hmove
  cases hrow : before.row? key with
  | none =>
    rw [hrow] at hmove
    exact absurd hmove.renews_of_none (ne_true_of_eq_false hrenews)
  | some row =>
    rw [hrow] at hmove
    exact hmove.isBeyond hrenews hmax (h row hrow)

theorem Outrun.passed {t : JobTable} (h : Outrun key count t) : Passed key count t := fun row hrow => (h row hrow).isPast

/-- A call leaves the row past an attempt unless it writes a fresh job. -/
theorem Passed.called {c : Call} {x : c.Answer} (hr : Regular rules start earlier n op c x before after)
    (hmax : count < Job.attemptMax) (hnew : ¬ (Act.called n op c x before after).Renews key)
    (h : Passed key count before) : Passed key count after := by
  by_cases hsame : before.row? key = after.row? key
  · intro row hrow
    exact h row (hsame.trans hrow)
  · exact (h.outrun hr hmax hnew hsame).passed

/-- A recovery leaves the row of the job that it interrupts queued with its count. -/
theorem Passed.of_interrupts {c : Job} {call : Call} {x : call.Answer}
    (hr : Regular rules start earlier n op call x before after)
    (h : (Act.called n op call x before after).Interrupts c) : Passed c.key.text c.attempt after := by
  cases call with
  | jobs s =>
    cases s with
    | resetRunning now =>
      obtain ⟨⟨row, hrow, hcur⟩, hchanged⟩ := h
      obtain ⟨_, _, ha⟩ := JobRow.isCurrent_iff.1 hcur
      rcases hr.moves c.key.text with hstays | ⟨s, hs, hmove⟩
      · exact absurd hstays.symm hchanged
      obtain rfl : JobStatement.resetRunning now = s := Call.jobs.inj hs
      intro row' hrow'
      rw [hrow, hrow'] at hmove
      cases hmove with
      | reset _ _ => exact .inr (.inl ⟨rfl, ha⟩)
    | _ => exact h.elim
  | _ => exact h.elim

/-! ## From the recovery on -/

/-- A row that is past an attempt stays so, until a fresh job is written. -/
theorem Passed.after_acts (h : Passed key count (tableAfter start earlier)) (hmax : count < Job.attemptMax)
    {later : List Act} (hacts : Each (Act.IsRegular rules may start) (later ++ earlier))
    (hnew : ∀ b ∈ later, ¬ b.Renews key) : Passed key count (tableAfter start (later ++ earlier)) := by
  refine kept_of_acts later hacts h ?_
  intro meanwhile n op call x before after hsuffix hcall hbefore
  exact Passed.called hcall.1 hmax (hnew _ (hsuffix.mem List.mem_cons_self)) hbefore

/-- From the recovery on the row stays past the attempt, until a fresh job is written. -/
theorem passed_after {c : Job} (hmax : c.attempt < Job.attemptMax)
    {a : Act} (ha : a.Interrupts c) (later : List Act)
    (hacts : Each (Act.IsRegular rules may start) (later ++ a :: earlier)) (hnew : ∀ b ∈ later, ¬ b.Renews c.key.text) :
    Passed c.key.text c.attempt (tableAfter start (later ++ a :: earlier)) := by
  have hfirst : Passed c.key.text c.attempt (tableAfter start (a :: earlier)) := by
    have hregular := hacts.of_split
    cases a with
    | called n op call x before after => exact Passed.of_interrupts hregular ha
    | begun _ _ => exact ha.elim
    | ended _ _ _ => exact ha.elim
  exact hfirst.after_acts hmax hacts hnew

/-- An operation made no call before its begin. -/
theorem called_not_mem_of_begun {later earlier : List Act} (hacts : Each (Act.IsHabitual start) (later ++ earlier))
    {op' : Operation} (hb : .begun n op ∈ later) {c : Call} {x : c.Answer} {before after : JobTable} :
    .called n op' c x before after ∉ earlier := by
  intro hcall
  obtain ⟨b₁, b₂, rfl⟩ := List.append_of_mem hb
  obtain ⟨e₁, e₂, rfl⟩ := List.append_of_mem hcall
  rw [List.append_assoc, List.cons_append] at hacts
  have hbegun : n = (b₂ ++ (e₁ ++ .called n op' c x before after :: e₂)).length := hacts.of_split
  have hcalled : Usual start e₂ n op' c x before after := hacts.of_append.2.of_append.of_split
  have hlt := hcalled.number_lt
  simp only [List.length_append, List.length_cons] at hbegun
  omega

/-- Past an attempt, an update of its copy is refused and leaves the table as it is. -/
theorem Passed.refuses {c : Job} {change : Change} {x : (Call.jobs (.updateIf c change)).Answer}
    (hr : Regular rules start earlier n op (.jobs (.updateIf c change)) x before after) (hc : c.state = .running)
    (h : Passed c.key.text c.attempt before) : after = before ∧ x ≠ .ok true := by
  have hrun := JobTable.run_updateIf_of_not_isCurrent hr.keyed (fun row hrow => (h row hrow).not_isCurrent hc) change
  have hanswers := hr.answers
  cases x with
  | ok x =>
    obtain ⟨hx, hafter⟩ := hanswers
    rw [hrun] at hx hafter
    obtain rfl : x = false := hx
    exact ⟨hafter, by simp⟩
  | error _ =>
    refine ⟨?_, by simp⟩
    rcases hanswers with he | he
    · exact he
    · rw [he, hrun]

/-- After the recovery and before a fresh job, an update of the copy is refused. -/
theorem Run.update_refused (hk : start.Keyed) (h : Run rules may start past shop) {c : Job}
    (hc : c.state = .running) (hmax : c.attempt < Job.attemptMax) {later : List Act} {a : Act}
    (hp : past = later ++ a :: earlier) (ha : a.Interrupts c) (hnew : ∀ b ∈ later, ¬ b.Renews c.key.text)
    {change : Change} {x : (Call.jobs (.updateIf c change)).Answer}
    (hcall : .called n op (.jobs (.updateIf c change)) x before after ∈ later) :
    after = before ∧ x ≠ .ok true := by
  have hacts := (h.conducted hk).acts
  obtain ⟨l, m, rfl⟩ := List.append_of_mem hcall
  rw [hp, List.append_assoc, List.cons_append] at hacts
  have hregular : Regular rules start (m ++ a :: earlier) n op _ x before after := hacts.of_split
  refine Passed.refuses hregular hc ?_
  rw [hregular.before_eq]
  refine passed_after hmax ha m hacts.of_append.2 ?_
  intro b hb
  exact hnew b (List.mem_append_right _ (List.mem_cons_of_mem _ hb))

/-- **Fencing.**  Whatever workers do to a table, after a recovery queued the running job of a copy and until a
    fresh job is written under its key, a completion of the copy changes nothing: its update is refused, and if
    it was begun after the recovery it ends with the error that the row was changed, or with one of the
    database. -/
theorem Run.recovery_fences (hk : start.Keyed) (h : Run rules may start past shop) {c : Job}
    (hc : c.state = .running) (hmax : c.attempt < Job.attemptMax) {later earlier : List Act} {a : Act}
    (hp : past = later ++ a :: earlier) (ha : a.Interrupts c) (hnew : ∀ b ∈ later, ¬ b.Renews c.key.text) :
    (∀ n o call x before after, .called n (.complete c o) call x before after ∈ later → after = before) ∧
    ∀ n o result, .begun n (.complete c o) ∈ later → .ended n (.complete c o) result ∈ later →
      (∃ fault, result = .error (.failed (.database fault))) ∨
      ∃ target, result = .error (.failed (.transition (.changedWhileRunning .running target))) ∧
        o.Gives target := by
  have hacts := (h.habitual hk).acts
  refine ⟨?_, ?_⟩
  · intro n o call x before after hcall
    obtain ⟨l, m, rfl⟩ := List.append_of_mem hcall
    rw [hp, List.append_assoc, List.cons_append] at hacts
    have husual : Usual start (m ++ a :: earlier) n _ call x before after := hacts.of_split
    cases call with
    | jobs s =>
      cases s with
      | updateIf observed change =>
        obtain ⟨rfl, _⟩ : observed = c ∧ _ := husual.may
        exact (h.update_refused hk hc hmax hp ha hnew hcall).1
      | _ => exact husual.may.elim
    | now => exact husual.answers.2
    | emit _ => exact husual.answers
    | _ => exact husual.may.elim
  · intro n o result hbegun hended
    obtain ⟨l, m, hl⟩ := List.append_of_mem hended
    have hends : (Operation.complete c o).Returns (own n (m ++ a :: earlier)) result := by
      rw [hp, hl, List.append_assoc, List.cons_append] at hacts
      exact hacts.of_split
    rcases hends hc with hfault | hlost | ⟨n', change, before, after, hown⟩
    · exact .inl hfault
    · exact .inr hlost
    -- an update that was granted is one after the begin, so after the recovery, where it is refused
    have hn : n' = n := eq_of_beq (List.mem_filter.1 hown).2
    subst hn
    have hmem : .called n' (.complete c o) (.jobs (.updateIf c change)) (.ok true) before after ∈ later := by
      rcases List.mem_append.1 (mem_of_mem_own hown) with hm | hm
      · rw [hl]
        exact List.mem_append_right _ (List.mem_cons_of_mem _ hm)
      · exact absurd hm (called_not_mem_of_begun (hp ▸ hacts) hbegun)
    exact absurd rfl (h.update_refused hk hc hmax hp ha hnew hmem).2

/-! ## An interrupted scan -/

/-- A scan that waits for its first attempt. -/
def waitingScan : Job := Job.fresh .scan .epoch

/-- The scan in its first attempt. -/
def startedScan : Job := { waitingScan with state := .running, attempt := 1 }

/-- The scan after its first attempt was interrupted. -/
def interruptedScan : Job := { waitingScan with attempt := 1 }

/-- The recovery that interrupts the scan. -/
def recovery (n : Nat) : Act :=
  .called n .recover (.jobs (.resetRunning .epoch)) (.ok 1) [.ofJob startedScan] [.ofJob interruptedScan]

theorem isDate_epoch : Instant.epoch.IsDate := by decide

theorem waitingScan_isProper : waitingScan.IsProper := Job.fresh_isProper .scan isDate_epoch

theorem startedScan_isProper : startedScan.IsProper :=
  ⟨JobState.noConfusion, by decide, isDate_epoch, isDate_epoch, isDate_epoch⟩

theorem interrupts_recovery (n : Nat) : (recovery n).Interrupts startedScan :=
  ⟨⟨.ofJob startedScan, rfl, by decide⟩, by decide⟩

/-- A scan is queued and claimed, and then a recovery comes. -/
theorem Run.exists_interrupted : ∃ n m earlier,
    Run .standard Unrestricted [] (.ended n .recover (.ok 1) :: recovery n :: earlier)
      ⟨[.ofJob interruptedScan], []⟩ ∧
      .ended m (.claim waitingScan) (.ok (some startedScan)) ∈ earlier := by
  have h₀ : Run .standard Unrestricted [] [] ⟨[], []⟩ := .start
  have h₁ := ((((h₀.begin (.enqueue .scan) trivial).call_alone Instant.epoch [] ⟨isDate_epoch, rfl⟩).call_alone
    (c := .jobs (.find "scan")) (.ok none) [] ⟨rfl, rfl⟩).call_alone
    (c := .jobs (.insertIfAbsent waitingScan)) (.ok true) [.ofJob waitingScan] ⟨rfl, rfl⟩).finish_alone
  have h₂ := ((((h₁.begin (.claim waitingScan) waitingScan_isProper).call_alone Instant.epoch _
    ⟨isDate_epoch, rfl⟩).call_alone (c := .jobs (.updateIf waitingScan (waitingScan.claimChange .epoch)))
    (.ok true) [.ofJob startedScan] ⟨rfl, rfl⟩).call_alone () _ rfl).finish_alone
  have h₃ := (((h₂.begin .recover trivial).call_alone Instant.epoch _ ⟨isDate_epoch, rfl⟩).call_alone
    (c := .jobs (.resetRunning .epoch)) (.ok 1) [.ofJob interruptedScan] ⟨rfl, rfl⟩).finish_alone
  exact ⟨_, _, _, h₃, List.mem_cons_of_mem _ (List.mem_cons_of_mem _ List.mem_cons_self)⟩

/-- The completion of an interrupted scan is refused. -/
theorem Run.recovery_fences_interrupted_scan : ∃ past shop later earlier a n result,
    Run .standard Unrestricted [] past shop ∧ past = later ++ a :: earlier ∧ a.Interrupts startedScan ∧
    .begun n (.complete startedScan .success) ∈ later ∧
    .ended n (.complete startedScan .success) result ∈ later ∧
    ∃ target, result = .error (.failed (.transition (.changedWhileRunning .running target))) ∧
      Outcome.success.Gives target := by
  obtain ⟨n, m, earlier, h, _⟩ := Run.exists_interrupted
  have h₁ := ((h.begin (.complete startedScan .success) startedScan_isProper).call_alone Instant.epoch _
    ⟨isDate_epoch, rfl⟩).call_alone
    (c := .jobs (.updateIf startedScan ⟨.succeeded, 1, .epoch, none, none, .epoch⟩)) (.ok false) _ ⟨rfl, rfl⟩
  have h₂ := h₁.finish_alone
  have hfences := h₂.recovery_fences JobTable.keyed_nil rfl (by decide)
    (show _ = [_, _, _, _, _] ++ recovery n :: earlier from rfl) (interrupts_recovery n) (by simp [Act.Renews])
  have hlost := hfences.2 _ .success _ (by simp) List.mem_cons_self
  refine ⟨_, _, [_, _, _, _, _], earlier, recovery n, _, _, h₂, rfl, interrupts_recovery n, by simp,
    List.mem_cons_self, ?_⟩
  exact hlost.resolve_left fun ⟨_, hfault⟩ => nomatch hfault

/-- Nothing fences a completion once a fresh scan was started: the completion of the scan that was interrupted
    ends the one that runs. -/
theorem Run.fence_passed : ∃ past shop later earlier a m n j change before after,
    Run .standard Unrestricted [] past shop ∧ past = later ++ a :: earlier ∧ a.Interrupts startedScan ∧
    .ended m (.claim waitingScan) (.ok (some startedScan)) ∈ earlier ∧
    .begun n (.complete startedScan .success) ∈ later ∧
    .called n (.complete startedScan .success) (.jobs (.updateIf startedScan change)) (.ok true) before after
      ∈ later ∧ after ≠ before ∧ .ended n (.complete startedScan .success) (.ok j) ∈ later := by
  obtain ⟨n, m, earlier, h, hclaim⟩ := Run.exists_interrupted
  have hread : some (JobRow.ofJob interruptedScan).decode = some (.valid interruptedScan) :=
    congrArg some (JobRow.decode_eq_valid_iff.2 (JobRow.ofJob_says (j := interruptedScan)
      ⟨JobState.noConfusion, by decide, isDate_epoch, isDate_epoch, isDate_epoch⟩ (by decide)))
  -- a fresh scan takes the place of the interrupted one, and is claimed
  have h₁ := ((h.begin (.enqueue .scan) trivial).call_alone Instant.epoch _ ⟨isDate_epoch, rfl⟩).call_alone
    (c := .jobs (.find "scan")) (.ok (some (.valid interruptedScan))) [.ofJob interruptedScan]
    ⟨hread.symm, rfl⟩
  have h₂ := ((h₁.call_alone (c := .jobs (.replaceIf waitingScan interruptedScan)) (.ok true)
    [.ofJob waitingScan] ⟨rfl, rfl⟩).call_alone () _ rfl).finish_alone
  have h₃ := ((((h₂.begin (.claim waitingScan) waitingScan_isProper).call_alone Instant.epoch _
    ⟨isDate_epoch, rfl⟩).call_alone (c := .jobs (.updateIf waitingScan (waitingScan.claimChange .epoch)))
    (.ok true) [.ofJob startedScan] ⟨rfl, rfl⟩).call_alone () _ rfl).finish_alone
  -- its row is the one of the interrupted claim
  let change : Change := ⟨.succeeded, 1, .epoch, none, none, .epoch⟩
  let finished : JobTable := [.ofJob { startedScan with state := .succeeded }]
  have h₄ := ((h₃.begin (.complete startedScan .success) startedScan_isProper).call_alone Instant.epoch _
    ⟨isDate_epoch, rfl⟩).call_alone (c := .jobs (.updateIf startedScan change)) (.ok true) finished ⟨rfl, rfl⟩
  have h₅ := (h₄.call_alone () _ rfl).finish_alone
  refine ⟨_, _, [_, _, _, _, _, _, _, _, _, _, _, _, _, _, _, _, _], earlier, recovery n, m, _, _, change,
    [.ofJob startedScan], finished, h₅, rfl, interrupts_recovery n, hclaim, ?_, ?_, by decide, List.mem_cons_self⟩
  · simp only [List.mem_cons, true_or, or_true]
  · exact List.mem_cons_of_mem _ (List.mem_cons_of_mem _ List.mem_cons_self)

end MediaBackup.Workers
