import MediaBackup.Proofs.Workers.Fencing
import MediaBackup.Proofs.Workers.Requests

/-
  A claim and the row that its copy was read from.

  A claim writes only where the row has the state and the count of attempts of its copy.  Whatever changes a queued
  row without writing a fresh job takes it beyond that count, or deletes it, and nothing brings it back.  So the
  claim is granted exactly if the row was not touched since the copy was read, and the copy that it returns is what
  the row says (`Run.claim_of_read`); else it returns none and changes nothing.

  State and count do not tell two jobs of one key apart.  A fresh job that takes the place of a queued one looks like
  it, so that a copy of the old one claims the fresh one and hands out what the old one said
  (`Run.claim_of_replaced`).
-/

namespace MediaBackup.Workers

variable {rules : RetryRules} {may : Policy} {start : JobTable} {past : List Act} {shop : Shop}
  {n : Nat} {op : Operation} {acts earlier : List Act} {key : String} {row : JobRow} {before after : JobTable}

/-! ## The row that was read -/

/-- Reading changes nothing. -/
theorem after_eq_of_mem_seen {c : Call} {x : c.Answer} {j : Job} (h : Answers before c x after)
    (hj : j ∈ seen [.called n op c x before after]) : after = before := by
  cases c with
  | jobs s =>
    cases s with
    | find key =>
      cases x with
      | ok d => exact h.2
      | error _ => exact absurd hj List.not_mem_nil
    | listDue now =>
      cases x with
      | ok rows => exact h.2
      | error _ => exact absurd hj List.not_mem_nil
    | _ => exact absurd hj List.not_mem_nil
  | _ => exact absurd hj List.not_mem_nil

/-- A copy that was read is what the row of its key said. -/
theorem row?_of_mem_seen {read : Act} {j : Job} (hr : read.IsRegular rules may start earlier)
    (hj : j ∈ seen [read]) :
    ∃ row, (tableAfter start (read :: earlier)).row? j.key.text = some row ∧ row.Says j := by
  cases read with
  | begun _ _ => exact absurd hj List.not_mem_nil
  | ended n op result => cases op <;> exact absurd hj List.not_mem_nil
  | called n op c x before after =>
    have hregular : Regular rules start earlier n op c x before after := hr
    rcases mem_seen_called hregular.answers hj with hnone | ⟨row, hmem, hsays⟩
    · exact absurd hnone List.not_mem_nil
    refine ⟨row, ?_, hsays⟩
    show after.row? j.key.text = some row
    rw [after_eq_of_mem_seen hregular.answers hj, ← hsays.key]
    exact JobTable.row?_of_mem hregular.keyed hmem

/-! ## Untouched or beyond -/

/-- A row beyond the count of a queued copy is not its row. -/
theorem IsBeyond.not_isCurrent {j : Job} (hq : j.state = .queued) (h : IsBeyond j.attempt row) :
    row.isCurrent j = false := by
  refine eq_false_of_ne_true fun hcurrent => ?_
  obtain ⟨_, hs, ha⟩ := JobRow.isCurrent_iff.1 hcurrent
  rcases h with habandoned | ⟨m, hm, hcount⟩
  · rw [habandoned, hq] at hs
    exact absurd hs (by decide)
  · rw [hcount, Cell.int.injEq] at ha
    omega

/-- A row that is beyond an attempt stays so, while no fresh job is written. -/
theorem Outrun.after_acts {count : Nat} (h : Outrun key count (tableAfter start earlier))
    (hmax : count < Job.attemptMax) (hacts : Each (Act.IsRegular rules may start) (acts ++ earlier))
    (hnew : ∀ a ∈ acts, ¬ a.Renews key) : Outrun key count (tableAfter start (acts ++ earlier)) := by
  refine kept_of_acts acts hacts h ?_
  intro meanwhile n op c x before after hsuffix hcall hbefore
  by_cases hsame : before.row? key = after.row? key
  · intro row hrow
    exact hbefore row (hsame.trans hrow)
  · exact hbefore.passed.outrun hcall.1 hmax (hnew _ (hsuffix.mem List.mem_cons_self)) hsame

/-- While no act changes the row of a key, it is what it was. -/
theorem row?_of_not_changes (hacts : Each (Act.IsRegular rules may start) (acts ++ earlier))
    (h : ∀ a ∈ acts, ¬ a.Changes key) :
    (tableAfter start (acts ++ earlier)).row? key = (tableAfter start earlier).row? key := by
  refine kept_of_acts (P := fun t => t.row? key = (tableAfter start earlier).row? key) acts hacts rfl ?_
  intro meanwhile n op c x before after hsuffix _ hbefore
  have hsame : before.row? key = after.row? key := Classical.not_not.1 (h _ (hsuffix.mem List.mem_cons_self))
  exact hsame.symm.trans hbefore

/-- From a table on whose row is past an attempt, while no fresh job is written: no act touched the row, or one did
    and the row is beyond the attempt or gone. -/
theorem untouched_or_beyond {count : Nat} (hmax : count < Job.attemptMax) {acts : List Act}
    (h : Passed key count (tableAfter start earlier)) (hacts : Each (Act.IsRegular rules may start) (acts ++ earlier))
    (hnew : ∀ a ∈ acts, ¬ a.Renews key) :
    ((∀ a ∈ acts, ¬ a.Changes key) ∧
      (tableAfter start (acts ++ earlier)).row? key = (tableAfter start earlier).row? key) ∨
    ((∃ a ∈ acts, a.Changes key) ∧ Outrun key count (tableAfter start (acts ++ earlier))) := by
  by_cases htouched : ∃ a ∈ acts, a.Changes key
  · refine .inr ⟨htouched, ?_⟩
    obtain ⟨a, ha, hchanges⟩ := htouched
    obtain ⟨since, meanwhile, rfl⟩ := List.append_of_mem ha
    rw [List.append_assoc] at hacts ⊢
    have hpassed : Passed key count (tableAfter start (meanwhile ++ earlier)) :=
      h.after_acts hmax hacts.of_append.2 fun b hb => hnew b (List.mem_append_right _ (List.mem_cons_of_mem _ hb))
    -- the act that touched the row took it beyond, where the later ones leave it
    have hbeyond : Outrun key count (tableAfter start (a :: meanwhile ++ earlier)) := by
      cases a with
      | begun _ _ => exact hchanges.elim
      | ended _ _ _ => exact hchanges.elim
      | called n op c x before after =>
        have hregular : Regular rules start (meanwhile ++ earlier) n op c x before after := hacts.of_append.1
        have hbefore : Passed key count before := hregular.before_eq ▸ hpassed
        exact hbefore.outrun hregular hmax (hnew _ ha) hchanges
    exact hbeyond.after_acts hmax hacts fun b hb => hnew b (List.mem_append_left _ hb)
  · have hnone : ∀ a ∈ acts, ¬ a.Changes key := fun a ha hchanges => htouched ⟨a, ha, hchanges⟩
    exact .inl ⟨hnone, row?_of_not_changes hacts hnone⟩

/-! ## What a claim comes to -/

/-- A call of a claim that is no update changes nothing. -/
theorem Regular.after_eq_of_claim {j : Job} {c : Call} {x : c.Answer}
    (h : Regular rules start earlier n (.claim j) c x before after)
    (hno : (Act.called n (.claim j) c x before after).isUpdate = false) : after = before := by
  cases c with
  | jobs s =>
    cases s with
    | updateIf observed change => exact nomatch hno
    | _ => exact h.mayDo.elim
  | now => exact h.answers.2
  | emit _ => exact h.answers
  | _ => exact h.may.elim

/-- The calls of a claim left the table as it was. -/
def Idles (n : Nat) (j : Job) (acts : List Act) : Prop :=
  ∀ c x before after, .called n (.claim j) c x before after ∈ acts → after = before

/-- What became of a claim of a copy, by what happened from the read of the copy to the end of the claim. -/
def ClaimComesTo (n : Nat) (j : Job) (between : List Act) : Except Stop (Option Job) → Prop
  | .ok (some d) => ∃ since now before after meanwhile row,
      between = since ++ .called n (.claim j) (.jobs (.updateIf j (j.claimChange now))) (.ok true) before after ::
        meanwhile ∧
      (∀ a ∈ meanwhile, ¬ a.Changes j.key.text) ∧ d = j.claimed (j.claimChange now) ∧
      after.row? j.key.text = some row ∧ row.Says { d with abandonReason := none, updatedAt := now.floor }
  | .ok none => Idles n j between ∧ ∃ since now before after meanwhile,
      between = since ++ .called n (.claim j) (.jobs (.updateIf j (j.claimChange now))) (.ok false) before after ::
        meanwhile ∧
      ∃ a ∈ meanwhile, a.Changes j.key.text
  | .error e => (∃ fault, e = .failed (.database fault)) ∨
      (Idles n j between ∧ j.state ≠ .queued ∧ e = .failed (.transition (.notAllowed j.state .running)))

/-- The row of a copy that was read says, after its claim, what the claim returns. -/
theorem says_claimed {j : Job} {now : Instant} (h : row.Says j) (hd : now.IsDate) :
    (row.apply (j.claimChange now)).Says
      { j.claimed (j.claimChange now) with abandonReason := none, updatedAt := now.floor } := by
  have hchange : (j.claimChange now).IsProper := h.isProper_job.claimChange hd
  have hnext : j.nextRunAt.floor = j.nextRunAt := h.nextRunAt.floor_eq
  have happlied := h.apply hchange
  unfold Job.changed Job.claimChange at happlied
  rw [hnext] at happlied
  exact happlied

variable {j : Job} {change : Change} {x : Except StoreFault Bool} {between rest : List Act}

/-- The update of a claim that was begun after `rest` comes after `rest` too. -/
theorem exists_split_of_filter (hacts : Each (Act.IsRegular rules may start) (between ++ rest))
    (hbegun : .begun n (.claim j) ∈ between)
    (h : (own n (between ++ rest)).filter Act.isUpdate =
      [.called n (.claim j) (.jobs (.updateIf j change)) x before after]) :
    ∃ since meanwhile,
      between = since ++ .called n (.claim j) (.jobs (.updateIf j change)) x before after :: meanwhile ∧
      Regular rules start (meanwhile ++ rest) n (.claim j) (.jobs (.updateIf j change)) x before after ∧
      Each (Act.IsRegular rules may start) (meanwhile ++ rest) := by
  have hupdate : .called n (.claim j) (.jobs (.updateIf j change)) x before after ∈
      (own n (between ++ rest)).filter Act.isUpdate := by
    rw [h]
    exact List.mem_cons_self
  have hmem := mem_of_mem_own (List.mem_filter.1 hupdate).1
  rcases List.mem_append.1 hmem with hm | hm
  · obtain ⟨since, meanwhile, rfl⟩ := List.append_of_mem hm
    rw [List.append_assoc, List.cons_append] at hacts
    exact ⟨since, meanwhile, rfl, hacts.of_split, hacts.of_append.2⟩
  · -- no operation makes a call before its begin
    have hhabits := hacts.mono fun a earlier ha => ha.isHabitual
    exact absurd hm (called_not_mem_of_begun hhabits hbegun)

/-- A claim whose updates changed nothing left the table as it was. -/
theorem idles_of_updates (hacts : Each (Act.IsRegular rules may start) (between ++ rest))
    (h : ∀ c x before after,
      .called n (.claim j) c x before after ∈ (own n (between ++ rest)).filter Act.isUpdate → after = before) :
    Idles n j between := by
  intro c x before after hmem
  by_cases hupdate : (Act.called n (.claim j) c x before after).isUpdate = true
  · have hown : .called n (.claim j) c x before after ∈ own n (between ++ rest) :=
      List.mem_filter.2 ⟨List.mem_append_left rest hmem, beq_self_eq_true n⟩
    exact h c x before after (List.mem_filter.2 ⟨hown, hupdate⟩)
  · obtain ⟨since, meanwhile, rfl⟩ := List.append_of_mem hmem
    rw [List.append_assoc, List.cons_append] at hacts
    have hregular : Regular rules start (meanwhile ++ rest) n (.claim j) c x before after := hacts.of_split
    exact hregular.after_eq_of_claim (eq_false_of_ne_true hupdate)

/-- From the read of a queued copy on, while no fresh job is written: no act touched the row, or one did and the row
    is not the one of the copy any more. -/
theorem untouched_or_lost (hmax : j.attempt < Job.attemptMax) (hq : j.state = .queued) (hsaid : row.Says j)
    (hrow : (tableAfter start earlier).row? j.key.text = some row)
    (hacts : Each (Act.IsRegular rules may start) (acts ++ earlier)) (hnew : ∀ a ∈ acts, ¬ a.Renews j.key.text) :
    ((∀ a ∈ acts, ¬ a.Changes j.key.text) ∧ (tableAfter start (acts ++ earlier)).row? j.key.text = some row) ∨
    ((∃ a ∈ acts, a.Changes j.key.text) ∧
      ∀ row, (tableAfter start (acts ++ earlier)).row? j.key.text = some row → row.isCurrent j = false) := by
  have hpassed : Passed j.key.text j.attempt (tableAfter start earlier) := by
    intro row' hrow'
    obtain rfl : row = row' := Option.some.inj (hrow.symm.trans hrow')
    have hs : row.state = "queued" := by
      rw [hsaid.state, hq]
      rfl
    exact .inr (.inl ⟨hs, hsaid.attempt⟩)
  rcases untouched_or_beyond hmax hpassed hacts hnew with ⟨hnone, hkept⟩ | ⟨hsome, hbeyond⟩
  · exact .inl ⟨hnone, hkept.trans hrow⟩
  · exact .inr ⟨hsome, fun row hrow => (hbeyond row hrow).not_isCurrent hq⟩

/-- **Claims of what was read.**  Whatever workers do to a table between the read of a copy and the end of a claim of
    it, as long as they write no fresh job under its key: the claim returns a job only if the row was not touched
    from the read to the claim's update, and then the row says what the job says; it returns none only if the row
    was touched, and then it changes nothing. -/
theorem Run.claim_of_read (hk : start.Keyed) (h : Run rules may start past shop) {j : Job}
    (hmax : j.attempt < Job.attemptMax) {later between older : List Act} {read : Act}
    {result : Except Stop (Option Job)}
    (hp : past = later ++ .ended n (.claim j) result :: (between ++ read :: older)) (hread : j ∈ seen [read])
    (hbegun : .begun n (.claim j) ∈ between) (hnew : ∀ a ∈ between, ¬ a.Renews j.key.text) :
    ClaimComesTo n j between result := by
  have hall := (h.conducted hk).acts
  rw [hp] at hall
  have hconcludes : ClaimConcludes n j (own n (between ++ read :: older)) result := hall.of_split
  have hacts : Each (Act.IsRegular rules may start) (between ++ read :: older) := hall.of_append.2
  have hreadacts : Each (Act.IsRegular rules may start) (read :: older) := hacts.of_append
  obtain ⟨row, hrow, hsaid⟩ := row?_of_mem_seen hreadacts.1 hread
  cases result with
  | ok o =>
    cases o with
    | some d =>
      obtain ⟨now, ⟨before, after, hfilter⟩, rfl⟩ := hconcludes
      obtain ⟨since, meanwhile, rfl, hregular, hbefore⟩ := exists_split_of_filter hacts hbegun hfilter
      obtain ⟨_, hq, _, t, ⟨hd, _⟩, hchange⟩ := hregular.mayDo
      obtain ⟨row', hrow', hcurrent, hafter⟩ := hregular.granted
      have hquiet : ∀ a ∈ meanwhile, ¬ a.Renews j.key.text :=
        fun a ha => hnew a (List.mem_append_right _ (List.mem_cons_of_mem _ ha))
      rw [hregular.before_eq] at hrow'
      -- the update met a row with the state and the count of the copy, which a row that was touched has lost
      rcases untouched_or_lost hmax hq hsaid hrow hbefore hquiet with ⟨hnone, hkept⟩ | ⟨_, hlost⟩
      · obtain rfl : row = row' := Option.some.inj (hkept.symm.trans hrow')
        obtain rfl : now = t := congrArg Change.updatedAt hchange
        exact ⟨since, now, before, after, meanwhile, _, rfl, hnone, rfl, hafter, says_claimed hsaid hd⟩
      · rw [hlost row' hrow'] at hcurrent
        exact nomatch hcurrent
    | none =>
      obtain ⟨now, before, after, hfilter⟩ := hconcludes
      obtain ⟨since, meanwhile, hsplit, hregular, hbefore⟩ := exists_split_of_filter hacts hbegun hfilter
      have hq : j.state = .queued := hregular.mayDo.2.1
      obtain ⟨hmissed, hsame⟩ := hregular.refused
      have hquiet : ∀ a ∈ meanwhile, ¬ a.Renews j.key.text := by
        intro a ha
        refine hnew a ?_
        rw [hsplit]
        exact List.mem_append_right _ (List.mem_cons_of_mem _ ha)
      refine ⟨idles_of_updates hacts ?_, since, now, before, after, meanwhile, hsplit, ?_⟩
      · intro c x b a hmem
        rw [hfilter] at hmem
        cases List.mem_singleton.1 hmem
        exact hsame
      · rcases untouched_or_lost hmax hq hsaid hrow hbefore hquiet with ⟨_, hkept⟩ | ⟨hsome, _⟩
        · rw [hregular.before_eq] at hmissed
          have hcurrent := hmissed row hkept
          rw [hsaid.isCurrent] at hcurrent
          exact nomatch hcurrent
        · exact hsome
  | error e =>
    rcases hconcludes with ⟨hno, hfilter, rfl⟩ | ⟨now, fault, _, rfl⟩
    · refine .inr ⟨idles_of_updates hacts ?_, hno, rfl⟩
      intro c x before after hmem
      rw [hfilter] at hmem
      exact absurd hmem List.not_mem_nil
    · exact .inl ⟨fault, rfl⟩

/-! ## A scan that is read -/

/-- The act that reads the waiting scan. -/
def readScan (n : Nat) : Act :=
  .called n (.get .scan) (.jobs (.find "scan")) (.ok (some (.valid waitingScan))) [.ofJob waitingScan]
    [.ofJob waitingScan]

theorem decode_waitingScan : (JobRow.ofJob waitingScan).decode = .valid waitingScan :=
  JobRow.decode_eq_valid_iff.2 (JobRow.ofJob_says (j := waitingScan) waitingScan_isProper (by decide))

/-- A scan is queued, and then it is read. -/
theorem Run.exists_read : ∃ n older,
    Run .standard Unrestricted [] (.ended n (.get .scan) (.ok (some waitingScan)) :: readScan n :: older)
      ⟨[.ofJob waitingScan], []⟩ := by
  have h₀ : Run .standard Unrestricted [] [] ⟨[], []⟩ := .start
  have h₁ := ((((h₀.begin (.enqueue .scan) trivial).call_alone Instant.epoch [] ⟨isDate_epoch, rfl⟩).call_alone
    (c := .jobs (.find "scan")) (.ok none) [] ⟨rfl, rfl⟩).call_alone
    (c := .jobs (.insertIfAbsent waitingScan)) (.ok true) [.ofJob waitingScan] ⟨rfl, rfl⟩).finish_alone
  have hread : some (JobRow.ofJob waitingScan).decode = some (.valid waitingScan) := congrArg some decode_waitingScan
  have h₂ := ((h₁.begin (.get .scan) trivial).call_alone (c := .jobs (.find "scan"))
    (.ok (some (.valid waitingScan))) [.ofJob waitingScan] ⟨hread.symm, rfl⟩).finish_alone
  exact ⟨_, _, h₂⟩

/-- The scan that was read is claimed, and the row says what the claim returns. -/
theorem Run.claim_of_read_scan : ∃ past shop between older read n d,
    Run .standard Unrestricted [] past shop ∧
    past = [] ++ .ended n (.claim waitingScan) (.ok (some d)) :: (between ++ read :: older) ∧
    waitingScan ∈ seen [read] ∧ .begun n (.claim waitingScan) ∈ between ∧
    ClaimComesTo n waitingScan between (.ok (some d)) := by
  obtain ⟨m, older, h⟩ := Run.exists_read
  have h₁ := ((((h.begin (.claim waitingScan) waitingScan_isProper).call_alone Instant.epoch _
    ⟨isDate_epoch, rfl⟩).call_alone (c := .jobs (.updateIf waitingScan (waitingScan.claimChange .epoch)))
    (.ok true) [.ofJob startedScan] ⟨rfl, rfl⟩).call_alone () _ rfl).finish_alone
  have hcomes := h₁.claim_of_read JobTable.keyed_nil (j := waitingScan) (by decide)
    (show _ = [] ++ .ended _ _ _ :: ([_, _, _, _, _] ++ readScan m :: older) from rfl) List.mem_cons_self (by simp)
    (by simp [Act.Renews])
  exact ⟨_, _, [_, _, _, _, _], older, readScan m, _, _, h₁, rfl, List.mem_cons_self, by simp, hcomes⟩

/-- Half a second after the epoch. -/
def halfSecond : Instant := ⟨500000000⟩

/-- The scan that takes the place of the waiting one. -/
def freshScan : Job := Job.fresh .scan halfSecond

/-- A copy of a scan claims the fresh scan that took its place: what the claim returns is not what the row says. -/
theorem Run.claim_of_replaced : ∃ past shop between older read n d row,
    Run .standard Unrestricted [] past shop ∧
    past = .ended n (.claim waitingScan) (.ok (some d)) :: (between ++ read :: older) ∧
    waitingScan ∈ seen [read] ∧ .begun n (.claim waitingScan) ∈ between ∧
    (∃ a ∈ between, a.Renews waitingScan.key.text) ∧
    shop.jobs.row? waitingScan.key.text = some row ∧ ¬ row.createdAt.Shows d.createdAt := by
  obtain ⟨m, older, h⟩ := Run.exists_read
  have hdate : halfSecond.IsDate := by decide
  have hread : some (JobRow.ofJob waitingScan).decode = some (.valid waitingScan) := congrArg some decode_waitingScan
  -- a fresh scan takes the place of the one that was read
  have h₁ := ((((h.begin (.enqueue .scan) trivial).call_alone halfSecond _ ⟨hdate, rfl⟩).call_alone
    (c := .jobs (.find "scan")) (.ok (some (.valid waitingScan))) _ ⟨hread.symm, rfl⟩).call_alone
    (c := .jobs (.replaceIf freshScan waitingScan)) (.ok true) [.ofJob freshScan] ⟨rfl, rfl⟩).call_alone () _ rfl
  have h₂ := h₁.finish_alone
  -- its row has the state and the count of the copy
  let claimed : JobRow := (JobRow.ofJob freshScan).apply (waitingScan.claimChange halfSecond)
  have h₃ := ((((h₂.begin (.claim waitingScan) waitingScan_isProper).call_alone halfSecond _
    ⟨hdate, rfl⟩).call_alone (c := .jobs (.updateIf waitingScan (waitingScan.claimChange halfSecond)))
    (.ok true) [claimed] ⟨rfl, rfl⟩).call_alone () _ rfl).finish_alone
  refine ⟨_, _, [_, _, _, _, _, _, _, _, _, _, _], older, readScan m, _, _, claimed, h₃, rfl, List.mem_cons_self,
    by simp, ?_, rfl, ?_⟩
  · have hrenews : JobTable.row? [.ofJob waitingScan] "scan" ≠ JobTable.row? [.ofJob freshScan] "scan" := by decide
    exact ⟨_, List.mem_of_getElem? (i := 6) rfl, hrenews⟩
  · intro hshows
    have hcells : halfSecond.cell = Instant.epoch.cell := hshows.eq_cell
    exact absurd hcells (by decide)

end MediaBackup.Workers
