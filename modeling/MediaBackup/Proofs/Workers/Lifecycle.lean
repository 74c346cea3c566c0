import MediaBackup.Proofs.Workers.Moves

/-
  The life of a job, and what its columns say together.

  A job is COHERENT if its columns fit together: it has a reason exactly if it was given up, it was started if it is
  not queued, it tells an error if an attempt failed, and none if it succeeded.  Eight kinds of writes change rows, and
  most set only some of the columns; still every row of a run that starts with no rows is coherent, and whatever a
  call does to the row of a key follows the states (`Run.lifecycle`).

  The invariant is one on the whole table, told key by key.  Coherent rows can be read, so no operation finds one that
  it would give up; that is why the same induction has to say that none was found so far.
-/

namespace MediaBackup

/-- The columns of a job fit together. -/
structure Job.IsCoherent (j : Job) : Prop where
  reason_iff : j.abandonReason.isSome = true ↔ j.state = .abandoned
  started : j.state ≠ .queued → 0 < j.attempt
  tells : j.state = .retrying ∨ j.state = .abandoned → j.lastError.isSome = true
  silent : j.state = .succeeded → j.lastError = none

/-- The row holds a job whose columns fit together. -/
def JobRow.IsCoherent (r : JobRow) : Prop := ∃ j, r.Says j ∧ j.IsCoherent

namespace Job.IsCoherent

variable {j : Job}

theorem of_queued (hq : j.state = .queued) (hreason : j.abandonReason = none) : j.IsCoherent where
  reason_iff := by rw [hq, hreason]; decide
  started h := absurd hq h
  tells h := by rw [hq] at h; exact absurd h (by decide)
  silent h := by rw [hq] at h; exact nomatch h

theorem of_running (hrun : j.state = .running) (hreason : j.abandonReason = none) (hstarted : 0 < j.attempt) :
    j.IsCoherent where
  reason_iff := by rw [hrun, hreason]; decide
  started _ := hstarted
  tells h := by rw [hrun] at h; exact absurd h (by decide)
  silent h := by rw [hrun] at h; exact nomatch h

/-- A job that was not given up has no reason. -/
theorem reason_eq_none (h : j.IsCoherent) (hs : j.state ≠ .abandoned) : j.abandonReason = none := by
  cases hr : j.abandonReason with
  | none => rfl
  | some reason => exact absurd (h.reason_iff.1 (by rw [hr]; rfl)) hs

end Job.IsCoherent

/-- What a verdict writes fits together, on an attempt that was started. -/
theorem Verdict.changed_isCoherent (p : RetryPolicy) {c i : Job} (now : Instant) (o : Outcome) (h : 0 < c.attempt) :
    (i.changed ((Verdict.of p c now o).change c now)).IsCoherent := by
  cases o with
  | success => exact ⟨⟨nofun, nofun⟩, fun _ => h, nofun, fun _ => rfl⟩
  | permanent f => exact ⟨⟨fun _ => rfl, fun _ => rfl⟩, fun _ => h, fun _ => rfl, nofun⟩
  | retryable f =>
    unfold Verdict.of
    dsimp only
    split
    · exact ⟨⟨nofun, nofun⟩, fun _ => h, fun _ => rfl, nofun⟩
    · exact ⟨⟨fun _ => rfl, fun _ => rfl⟩, fun _ => h, fun _ => rfl, nofun⟩

namespace Workers

/-- The operation queues only keys that can be read back, and the copies that it is given can be held by a row. -/
def Operation.IsNamed (op : Operation) : Prop := op.IsProper ∧ ∀ r, op = .enqueue r → r.key.IsProper

/-- Any operations, as long as keys can be read back and copies can be held by a row. -/
def Named : Policy := fun _ op => op.IsNamed

/-- What one call makes of the row of a key, or of its absence, in the life of a job. -/
inductive Lives : Option JobRow → Option JobRow → Prop where
  | stays (o : Option JobRow) : Lives o o
  | begins {row : JobRow} {j : Job} (h : row.Says j) (hq : j.state = .queued) (hcount : j.attempt = 0) :
    Lives none (some row)
  | goes {row row' : JobRow} {i j : Job} (hi : row.Says i) (hj : row'.Says j)
      (h : i.state.canBecome j.state = true) : Lives (some row) (some row')
  | ends {row : JobRow} {j : Job} (h : row.Says j) (hover : j.state.isTerminal = true) : Lives (some row) none

variable {rules : RetryRules} {acts : List Act} {key : String} {op : Operation} {s : JobStatement}
  {o o' : Option JobRow} {row : JobRow}

/-! ## One move -/

/-- The job of a row and a copy for which the row is current have state and count in common. -/
theorem eq_of_isCurrent {i c : Job} (hi : row.Says i) (hc : row.isCurrent c = true) :
    i.state = c.state ∧ i.attempt = c.attempt := by
  obtain ⟨_, hs, ha⟩ := JobRow.isCurrent_iff.1 hc
  have hstate : i.state.name = c.state.name := hi.state.symm.trans hs
  refine ⟨JobState.name_injective hstate, ?_⟩
  have hcount : Cell.int i.attempt = .int c.attempt := hi.attempt.symm.trans ha
  rw [Cell.int.injEq] at hcount
  omega

/-- The job of a row in a state is in that state. -/
theorem state_eq_of_name {i : Job} {t : JobState} (hi : row.Says i) (h : row.state = t.name) : i.state = t :=
  JobState.name_injective (hi.state.symm.trans h)

/-- A job that may be replaced may become queued. -/
theorem canBecome_queued_of_isReplaceable {j : Job} (h : j.isReplaceable = true) (hf : j.state ≠ .failed) :
    j.state.canBecome .queued = true := by
  unfold Job.isReplaceable at h
  cases hs : j.state with
  | failed => exact absurd hs hf
  | running =>
    rw [hs] at h
    exact nomatch h
  | _ => rfl

/-- Every move that gives up no row keeps the row coherent, and follows the life of its job. -/
theorem Move.lives (h : Move rules acts key op s o o') (hop : op.IsNamed)
    (hreads : ∀ words, ¬ Overwrites key words acts) (hrow : ∀ row, o = some row → row.IsCoherent) :
    Lives o o' ∧ ∀ row, o' = some row → row.IsCoherent := by
  cases h with
  | @inserted r now _ hnow =>
    have hsaid := JobRow.ofJob_says (Job.fresh_isProper r hnow.1) (hop.2 r rfl)
    refine ⟨.begins hsaid rfl rfl, ?_⟩
    rintro row ⟨⟩
    exact ⟨_, hsaid, .of_queued rfl rfl⟩
  | @replaced r now observed row _ hnow hreplaceable hobserved =>
    obtain ⟨i, hi, _⟩ := hrow row rfl
    have hsaid := JobRow.ofJob_says (Job.fresh_isProper r hnow.1) (hop.2 r rfl)
    have hstate : i.state = observed.state := state_eq_of_name hi (JobRow.isObserved_iff.1 hobserved).2.1
    have hcan : i.state.canBecome .queued = true := by
      rw [hstate]
      exact canBecome_queued_of_isReplaceable hreplaceable (hstate ▸ hi.isStorable)
    refine ⟨.goes hi hsaid hcan, ?_⟩
    rintro row ⟨⟩
    exact ⟨_, hsaid, .of_queued rfl rfl⟩
  | quarantined howns _ => exact absurd howns (hreads _)
  | @claimed j now row _ hq hnow hcurrent =>
    obtain ⟨i, hi, _⟩ := hrow row rfl
    have hj : j.IsProper := hop.1
    have hsaid := hi.apply (hj.claimChange hnow.1)
    have hcan : i.state.canBecome .running = true := by
      rw [(eq_of_isCurrent hi hcurrent).1, hq]
      rfl
    refine ⟨.goes hi hsaid hcan, ?_⟩
    rintro row ⟨⟩
    refine ⟨_, hsaid, .of_running rfl rfl ?_⟩
    show 0 < min (j.attempt + 1) Job.attemptMax
    have hmax : 0 < Job.attemptMax := by decide
    omega
  | @completed c o now row _ hrun hnow hcurrent =>
    obtain ⟨i, hi, hcoherent⟩ := hrow row rfl
    obtain ⟨hstate, hcount⟩ := eq_of_isCurrent hi hcurrent
    have hc : c.IsProper := hop.1
    have hsaid := hi.apply (Verdict.change_isProper (rules.policy c.key) hc hnow.1 o)
    have hstarted : 0 < c.attempt := by
      rw [← hcount]
      refine hcoherent.started ?_
      rw [hstate, hrun]
      exact JobState.noConfusion
    have hcan : i.state.canBecome (completeChange rules c o now).state = true := by
      rw [hstate, hrun]
      exact (Verdict.gives_of ..).canBecome
    refine ⟨.goes hi hsaid hcan, ?_⟩
    rintro row ⟨⟩
    exact ⟨_, hsaid, Verdict.changed_isCoherent _ _ _ hstarted⟩
  | @promoted now row hnow hpromotable =>
    obtain ⟨i, hi, hcoherent⟩ := hrow row rfl
    have hstate : i.state = .retrying := state_eq_of_name hi (JobRow.isPromotable_iff.1 hpromotable).1
    have hsaid := hi.promoted hnow.1
    have hcan : i.state.canBecome .queued = true := by
      rw [hstate]
      rfl
    refine ⟨.goes hi hsaid hcan, ?_⟩
    rintro row ⟨⟩
    have hreason : i.abandonReason = none := hcoherent.reason_eq_none (by rw [hstate]; exact JobState.noConfusion)
    exact ⟨_, hsaid, .of_queued rfl hreason⟩
  | @reset now row hnow hrunning =>
    obtain ⟨i, hi, hcoherent⟩ := hrow row rfl
    have hstate : i.state = .running := state_eq_of_name hi hrunning
    have hsaid := hi.reset hnow.1
    have hcan : i.state.canBecome .queued = true := by
      rw [hstate]
      rfl
    refine ⟨.goes hi hsaid hcan, ?_⟩
    rintro row ⟨⟩
    have hreason : i.abandonReason = none := hcoherent.reason_eq_none (by rw [hstate]; exact JobState.noConfusion)
    exact ⟨_, hsaid, .of_queued rfl hreason⟩
  | @deleted retention now row _ hprunable =>
    obtain ⟨i, hi, _⟩ := hrow row rfl
    have hover : i.state.isTerminal = true := by
      rcases JobRow.isOver_of_isPrunable hprunable with hs | hs
      · rw [show i.state = .succeeded from state_eq_of_name hi hs]
        rfl
      · rw [show i.state = .abandoned from state_eq_of_name hi hs]
        rfl
    exact ⟨.ends hi hover, fun _ h => nomatch h⟩

/-- A statement moves the row of one key, unless it queues jobs that wait or were running, or deletes jobs that are
    over. -/
theorem Move.key_eq {key' : String} {q q' : Option JobRow} (h : Move rules acts key op s o o')
    (h' : Move rules acts key' op s q q') :
    key = key' ∨ op = .promote ∨ op = .recover ∨ ∃ retention, op = .prune retention := by
  cases h with
  | inserted hkey _ =>
    cases h' with
    | inserted hkey' _ => exact .inl (hkey.symm.trans hkey')
  | replaced hkey _ _ _ =>
    cases h' with
    | replaced hkey' _ _ _ => exact .inl (hkey.symm.trans hkey')
  | quarantined _ _ =>
    cases h' with
    | quarantined _ _ => exact .inl rfl
  | claimed hkey _ _ _ =>
    generalize hs : JobStatement.updateIf _ _ = s at h'
    cases h' with
    | quarantined _ _ => exact nomatch hs
    | claimed hkey' _ _ _ => exact .inl (hkey.symm.trans hkey')
  | completed hkey _ _ _ =>
    generalize hs : JobStatement.updateIf _ _ = s at h'
    cases h' with
    | quarantined _ _ => exact nomatch hs
    | completed hkey' _ _ _ => exact .inl (hkey.symm.trans hkey')
  | promoted _ _ => exact .inr (.inl rfl)
  | reset _ _ => exact .inr (.inr (.inl rfl))
  | deleted _ _ => exact .inr (.inr (.inr ⟨_, rfl⟩))

/-! ## Every run -/

variable {may : Policy} {start : JobTable} {past earlier : List Act} {shop : Shop} {n : Nat}

/-- Every row of the table is coherent. -/
def AllCoherent (t : JobTable) : Prop := ∀ key row, t.row? key = some row → row.IsCoherent

/-- A coherent row is not found corrupt. -/
theorem AllCoherent.not_findsCorrupt {c : Call} {x : c.Answer} {before after : JobTable} (h : AllCoherent after)
    (hk : before.Keyed) (hanswers : Answers before c x after) (key : String) (reason : RowFault) :
    ¬ (Act.called n op c x before after).FindsCorrupt key reason := by
  intro hfinds
  obtain ⟨row, hrow, hcorrupt⟩ := exists_corrupt_of_findsCorrupt hk hanswers hfinds
  obtain ⟨j, hj, _⟩ := h key row hrow
  rw [JobRow.decode_eq_valid_iff.2 hj] at hcorrupt
  exact nomatch hcorrupt

/-- An operation that was begun was allowed. -/
theorem exists_may_of_begun (hacts : Each (Act.IsRegular rules may start) past) (h : .begun n op ∈ past) :
    ∃ earlier, may earlier op := by
  obtain ⟨later, earlier, rfl⟩ := List.append_of_mem h
  have hbegun : n = earlier.length ∧ may earlier op := hacts.of_split
  exact ⟨earlier, hbegun.2⟩

/-- An operation that found no corrupt row gives up none. -/
theorem not_overwrites (h : ∀ a ∈ earlier, ∀ key reason, ¬ a.FindsCorrupt key reason) (words : String) :
    ¬ Overwrites key words (own n earlier) := by
  rintro ⟨since, read, older, reason, hown, hfinds, _⟩
  have hmem : read ∈ own n earlier := by
    rw [hown]
    exact List.mem_append_right _ List.mem_cons_self
  exact h read (mem_of_mem_own hmem) key reason hfinds

/-- After the acts of a run that starts with no rows every row is coherent, and none was found corrupt. -/
theorem allCoherent_of_acts (hacts : Each (Act.IsRegular rules Named []) past) :
    AllCoherent (tableAfter [] past) ∧ ∀ a ∈ past, ∀ key reason, ¬ a.FindsCorrupt key reason := by
  -- both at once: rows stay coherent as none is given up, and none is given up as none was found corrupt
  induction past with
  | nil => exact ⟨fun _ _ h => (nomatch h), fun _ h => absurd h List.not_mem_nil⟩
  | cons a earlier ih =>
    obtain ⟨hall, hnone⟩ := ih hacts.2
    cases a with
    | begun n op =>
      refine ⟨hall, fun b hb => ?_⟩
      rcases List.mem_cons.1 hb with rfl | hb
      · exact fun _ _ => id
      · exact hnone b hb
    | ended n op r =>
      refine ⟨hall, fun b hb => ?_⟩
      rcases List.mem_cons.1 hb with rfl | hb
      · exact fun _ _ => id
      · exact hnone b hb
    | called n op c x before after =>
      have hregular : Regular rules [] earlier n op c x before after := hacts.1
      obtain ⟨_, hop⟩ := exists_may_of_begun hacts.2 hregular.begun
      have hbefore : AllCoherent before := hregular.before_eq ▸ hall
      have hafter : AllCoherent after := by
        intro key row hrow
        rcases hregular.moves key with hstays | ⟨s, _, hmove⟩
        · exact hbefore key row (hstays.symm.trans hrow)
        · exact (hmove.lives hop (not_overwrites hnone) (hbefore key)).2 row hrow
      refine ⟨hafter, fun b hb => ?_⟩
      rcases List.mem_cons.1 hb with rfl | hb
      · exact hafter.not_findsCorrupt hregular.keyed hregular.answers
      · exact hnone b hb

/-- A call of a run that starts with no rows leaves the row of a key, or it makes a move of it that gives up no row, on
    a coherent row. -/
theorem moves_of_acts {c : Call} {x : c.Answer} {before after : JobTable}
    (hacts : Each (Act.IsRegular rules Named []) (.called n op c x before after :: earlier)) (key : String) :
    after.row? key = before.row? key ∨ ∃ s, c = .jobs s ∧
      Move rules (own n earlier) key op s (before.row? key) (after.row? key) ∧ op.IsNamed ∧
      (∀ words, ¬ Overwrites key words (own n earlier)) ∧ ∀ row, before.row? key = some row → row.IsCoherent := by
  have hregular : Regular rules [] earlier n op c x before after := hacts.1
  obtain ⟨hall, hnone⟩ := allCoherent_of_acts hacts.2
  rcases hregular.moves key with hstays | ⟨s, hs, hmove⟩
  · exact .inl hstays
  · obtain ⟨_, hop⟩ := exists_may_of_begun hacts.2 hregular.begun
    exact .inr ⟨s, hs, hmove, hop, not_overwrites hnone, hregular.before_eq ▸ hall key⟩

/-- **The life of a job.**  Whatever workers do to a table that was empty, with keys that can be read back and copies
    that a row can hold: every row holds a job whose columns fit together, and each call leaves the row of a key,
    inserts a queued job that was not started, moves a job to a state that may follow, or deletes one that is over.
    It does so for one key at most, unless it queues jobs that wait or were running, or prunes. -/
theorem Run.lifecycle (h : Run rules Named [] past shop) :
    (∀ row ∈ shop.jobs, ∃ j, row.decode = .valid j ∧ j.state ≠ .failed ∧ j.IsCoherent) ∧
    ∀ later earlier n op c x before after, past = later ++ .called n op c x before after :: earlier →
      (∀ key, Lives (before.row? key) (after.row? key)) ∧
      ∀ key key', before.row? key ≠ after.row? key → before.row? key' ≠ after.row? key' →
        key = key' ∨ op = .promote ∨ op = .recover ∨ ∃ retention, op = .prune retention := by
  have hconducted := h.conducted JobTable.keyed_nil
  refine ⟨?_, ?_⟩
  · intro row hmem
    have hrow := JobTable.row?_of_mem hconducted.keyed hmem
    rw [h.jobs_eq] at hrow
    obtain ⟨j, hj, hcoherent⟩ := (allCoherent_of_acts hconducted.acts).1 row.key row hrow
    exact ⟨j, JobRow.decode_eq_valid_iff.2 hj, hj.isStorable, hcoherent⟩
  · intro later earlier n op c x before after hp
    have hacts := hconducted.acts
    rw [hp] at hacts
    refine ⟨fun key => ?_, fun key key' hkey hkey' => ?_⟩
    · rcases moves_of_acts hacts.of_append key with hstays | ⟨s, _, hmove, hop, hreads, hcoherent⟩
      · rw [hstays]
        exact .stays _
      · exact (hmove.lives hop hreads hcoherent).1
    · rcases moves_of_acts hacts.of_append key with hstays | ⟨s, rfl, hmove, _⟩
      · exact absurd hstays.symm hkey
      rcases moves_of_acts hacts.of_append key' with hstays | ⟨s', hs, hmove', _⟩
      · exact absurd hstays.symm hkey'
      obtain rfl : s = s' := Call.jobs.inj hs
      exact hmove.key_eq hmove'

/-! ## An upload that waits for another attempt -/

/-- An upload that waits for its first attempt. -/
def waitingUpload : Job := Job.fresh (.upload "a" .none) .epoch

/-- The upload in its first attempt. -/
def startedUpload : Job := { waitingUpload with state := .running, attempt := 1 }

/-- How the first attempt ends. -/
def lostConnection : Outcome := .retryable ⟨.transientNetwork, "connection reset"⟩

/-- The row of the upload after its first attempt. -/
def delayedUpload : JobRow :=
  (JobRow.ofJob startedUpload).apply (completeChange .standard startedUpload lostConnection .epoch)

/-- The act that writes the end of the first attempt. -/
def delaying (n : Nat) : Act :=
  .called n (.complete startedUpload lostConnection)
    (.jobs (.updateIf startedUpload (completeChange .standard startedUpload lostConnection .epoch))) (.ok true)
    [.ofJob startedUpload] [delayedUpload]

/-- An upload is queued and claimed, all at the epoch. -/
theorem Run.exists_started : ∃ n earlier, (∀ t ∈ readings earlier, t = .epoch) ∧
    Run .standard Named [] (.ended n (.claim waitingUpload) (.ok (some startedUpload)) :: earlier)
      ⟨[.ofJob startedUpload], []⟩ := by
  have hdate : Instant.epoch.IsDate := by decide
  have hwaiting : waitingUpload.IsProper := Job.fresh_isProper _ hdate
  have hrequest : (Operation.enqueue (.upload "a" .none)).IsNamed := by
    refine ⟨trivial, ?_⟩
    rintro r ⟨⟩
    decide
  have h₀ : Run .standard Named [] [] ⟨[], []⟩ := .start
  have h₁ := ((((h₀.begin (.enqueue (.upload "a" .none)) hrequest).call_alone Instant.epoch []
    ⟨hdate, rfl⟩).call_alone (c := .jobs (.find "upload:a")) (.ok none) [] ⟨rfl, rfl⟩).call_alone
    (c := .jobs (.insertIfAbsent waitingUpload)) (.ok true) [.ofJob waitingUpload] ⟨rfl, rfl⟩).finish_alone
  have h₂ := ((((h₁.begin (.claim waitingUpload) ⟨hwaiting, nofun⟩).call_alone Instant.epoch _ ⟨hdate, rfl⟩).call_alone
    (c := .jobs (.updateIf waitingUpload (waitingUpload.claimChange .epoch))) (.ok true) [.ofJob startedUpload]
    ⟨rfl, rfl⟩).call_alone () _ rfl).finish_alone
  refine ⟨_, _, ?_, h₂⟩
  show ∀ t ∈ [Instant.epoch, .epoch], t = .epoch
  simp

/-- An upload is queued and claimed, and its first attempt fails, all at the epoch. -/
theorem Run.exists_delayed : ∃ n later earlier, (∀ t ∈ readings (later ++ delaying n :: earlier), t = .epoch) ∧
    Run .standard Named [] (later ++ delaying n :: earlier) ⟨[delayedUpload], []⟩ := by
  have hdate : Instant.epoch.IsDate := by decide
  have hstarted : startedUpload.IsProper := ⟨JobState.noConfusion, by decide, hdate, hdate, hdate⟩
  obtain ⟨_, earlier, hearlier, h⟩ := Run.exists_started
  have hcompleted := ((((h.begin (.complete startedUpload lostConnection) ⟨hstarted, nofun⟩).call_alone Instant.epoch _
    ⟨hdate, rfl⟩).call_alone (c := .jobs (.updateIf startedUpload
      (completeChange .standard startedUpload lostConnection .epoch))) (.ok true) [delayedUpload]
    ⟨rfl, rfl⟩).call_alone () _ rfl).finish_alone
  refine ⟨_, [_, _], _, fun t ht => ?_, hcompleted⟩
  have ht : t ∈ Instant.epoch :: readings earlier := ht
  rcases List.mem_cons.1 ht with rfl | ht
  · rfl
  · exact hearlier t ht

/-- The row of the upload after its first attempt holds a job whose columns fit together. -/
theorem Run.lifecycle_delayed_upload : ∃ past shop, Run .standard Named [] past shop ∧ delayedUpload ∈ shop.jobs ∧
    ∃ j, delayedUpload.decode = .valid j ∧ j.state ≠ .failed ∧ j.IsCoherent := by
  obtain ⟨n, later, earlier, _, h⟩ := Run.exists_delayed
  exact ⟨_, _, h, List.mem_cons_self, h.lifecycle.1 _ List.mem_cons_self⟩

end Workers

end MediaBackup
