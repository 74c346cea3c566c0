import MediaBackup.Proofs.Engine.Protocol
import MediaBackup.Proofs.Store.Reading
import MediaBackup.Queue.Attempt

/-
  Rules for claiming and completing under any protocol.

  Both operations look at the clock, run one update and tell listeners.  The update is what matters, so the
  rules ask only about it: what it may be, and what follows from each of its answers.  The clock and the
  listeners may move an onlooker, but only along a relation that the rules are told (`Protocol.Silent`).
-/

namespace MediaBackup

variable {σ : Type}

/-- Looking at the clock and telling listeners is always allowed, and moves the onlooker only along `R`. -/
structure Protocol.Silent (w : Protocol Call Call.Answer σ) (R : σ → σ → Prop) : Prop where
  trans : ∀ s t u, R s t → R t u → R s u
  mayNow : ∀ s, w.may s .now
  now : ∀ s x t, w.answers s .now x t → x.IsDate ∧ R s t
  mayEmit : ∀ s e, w.may s (.emit e)
  emit : ∀ s e t, w.answers s (.emit e) () t → R s t

/-! ## What a claim and a completion write -/

theorem eq_ok_of_checkBecomes {s t : JobState} {u : Unit} (h : s.checkBecomes t = .ok u) :
    s.canBecome t = true := by
  unfold JobState.checkBecomes at h
  split at h
  · assumption
  · exact nomatch h

theorem eq_error_of_checkBecomes {s t : JobState} {e : SyncError} (h : s.checkBecomes t = .error e) :
    s.canBecome t = false ∧ e = .transition (.notAllowed s t) := by
  unfold JobState.checkBecomes at h
  split at h
  · exact nomatch h
  · rename_i hb
    exact ⟨eq_false_of_ne_true hb, (Except.error.inj h).symm⟩

theorem eq_queued_of_canBecome_running {s : JobState} (h : s.canBecome .running = true) : s = .queued := by
  cases s <;> first | rfl | cases h

/-- The change that claims a job. -/
def Job.claimChange (j : Job) (now : Instant) : Change :=
  ⟨.running, min (j.attempt + 1) Job.attemptMax, j.nextRunAt, j.lastError, none, now⟩

/-- The copy that a claim returns: the claimed one after the change. -/
def Job.claimed (j : Job) (c : Change) : Job :=
  { j with state := c.state, attempt := c.attempt, updatedAt := c.updatedAt }

/-- The copy that a completion returns. -/
def Job.completed (j : Job) (c : Change) : Job :=
  { j with
    state := c.state, nextRunAt := c.nextRunAt, lastError := c.lastError, abandonReason := c.abandonReason
    updatedAt := c.updatedAt }

theorem Job.IsProper.claimChange {j : Job} (hj : j.IsProper) {now : Instant} (hn : now.IsDate) :
    (j.claimChange now).IsProper := by
  refine ⟨JobState.noConfusion, ?_, hj.nextRunAt, hn⟩
  show min (j.attempt + 1) Job.attemptMax < UInt32.size
  exact Nat.lt_of_le_of_lt (Nat.min_le_right _ _) (by decide)

theorem Job.IsProper.claimed {j : Job} (hj : j.IsProper) {c : Change} (hc : c.IsProper) :
    (j.claimed c).IsProper :=
  ⟨hc.state, hc.attempt, hj.nextRunAt, hj.createdAt, hc.updatedAt⟩

/-- The states that an outcome can give a job. -/
def Outcome.Gives : Outcome → JobState → Prop
  | .success, s => s = .succeeded
  | .retryable _, s => s = .retrying ∨ s = .abandoned
  | .permanent _, s => s = .abandoned

theorem Outcome.Gives.canBecome {o : Outcome} {s : JobState} (h : o.Gives s) :
    JobState.running.canBecome s = true := by
  cases o with
  | success => exact h ▸ rfl
  | permanent f => exact h ▸ rfl
  | retryable f =>
    rcases h with rfl | rfl
    · rfl
    · rfl

/-- A job that an attempt was made at is over, or waits for another one. -/
def JobState.IsResult (s : JobState) : Prop := s = .succeeded ∨ s = .retrying ∨ s = .abandoned

theorem Outcome.Gives.isResult {o : Outcome} {s : JobState} (h : o.Gives s) : s.IsResult := by
  cases o with
  | success => exact .inl h
  | permanent f => exact .inr (.inr h)
  | retryable f => exact .inr h

theorem JobState.IsResult.ne_running {s : JobState} (h : s.IsResult) : s ≠ .running := by
  rcases h with rfl | rfl | rfl <;> exact JobState.noConfusion

/-- Only a running job gets the state that an outcome gives. -/
theorem Outcome.Gives.eq_running {o : Outcome} {s t : JobState} (h : o.Gives t)
    (ht : s.canBecome t = true) : s = .running := by
  rcases h.isResult with rfl | rfl | rfl
  · cases s <;> first | rfl | cases ht
  · cases s <;> first | rfl | cases ht
  · cases s <;> first | rfl | cases ht

/-- An outcome that is no success gives a job that waits for another attempt or is given up. -/
theorem Outcome.Gives.of_ne_success {o : Outcome} {s : JobState} (h : o.Gives s) (ho : o ≠ .success) :
    s = .retrying ∨ s = .abandoned := by
  cases o with
  | success => exact absurd rfl ho
  | permanent f => exact .inr h
  | retryable f => exact h

theorem Verdict.gives_of (p : RetryPolicy) (j : Job) (now : Instant) (o : Outcome) :
    o.Gives (Verdict.of p j now o).state := by
  cases o with
  | success => rfl
  | permanent f => rfl
  | retryable f =>
    unfold Verdict.of
    dsimp only
    split
    · exact .inl rfl
    · exact .inr rfl

theorem Verdict.change_isProper (p : RetryPolicy) {j : Job} (hj : j.IsProper) {now : Instant}
    (hn : now.IsDate)
    (o : Outcome) : ((Verdict.of p j now o).change j now).IsProper := by
  cases o with
  | success => exact ⟨JobState.noConfusion, hj.attempt, hj.nextRunAt, hn⟩
  | permanent f => exact ⟨JobState.noConfusion, hj.attempt, hj.nextRunAt, hn⟩
  | retryable f =>
    unfold Verdict.of
    dsimp only
    split
    · exact ⟨JobState.noConfusion, hj.attempt, hn.after _, hn⟩
    · exact ⟨JobState.noConfusion, hj.attempt, hj.nextRunAt, hn⟩

/-! ## The rules -/

namespace Queue

open Script

variable {w : Protocol Call Call.Answer σ} {R : σ → σ → Prop} {s : σ} {bad : Stop → σ → Prop}

theorem meets_announce (hw : w.Silent R) {key : JobKey} {source target : JobState} {attempt : Nat}
    {good : Unit → σ → Prop} (h : ∀ t, R s t → good () t) :
    Meets w good bad (announce key source target attempt) s := by
  unfold announce
  rw [Engine.meets_emit]
  exact ⟨hw.mayEmit s _, fun _ t ht => h t (hw.emit s _ t ht)⟩

/-- The rule for claims, where the instant of the claim is the one that the clock showed. -/
theorem meets_claim_clocked (hw : w.Silent R) {j : Job} {good : Option Job → σ → Prop}
    (hno : j.state ≠ .queued → bad (.failed (.transition (.notAllowed j.state .running))) s)
    (h : j.state = .queued → ∀ now t, w.answers s .now now t →
      w.may t (.jobs (.updateIf j (j.claimChange now))) ∧
      (∀ u, w.answers t (.jobs (.updateIf j (j.claimChange now))) (.ok true) u →
        ∀ v, R u v → good (some (j.claimed (j.claimChange now))) v) ∧
      (∀ u, w.answers t (.jobs (.updateIf j (j.claimChange now))) (.ok false) u → good none u) ∧
      ∀ fault u, w.answers t (.jobs (.updateIf j (j.claimChange now))) (.error fault) u →
        bad (.failed (.database fault)) u) :
    Meets w good bad (claim j) s := by
  unfold claim
  rw [meets_bind, Engine.meets_ofExcept]
  refine ⟨?_, ?_⟩
  case refine_2 =>
    intro e he
    obtain ⟨hb, rfl⟩ := eq_error_of_checkBecomes he
    exact hno fun hq => by rw [hq] at hb; exact nomatch hb
  intro _ hu
  have hq : j.state = .queued := eq_queued_of_canBecome_running (eq_ok_of_checkBecomes hu)
  rw [meets_bind, Engine.meets_now]
  refine ⟨hw.mayNow s, ?_⟩
  intro now t hnow
  obtain ⟨hm, htrue, hfalse, hfault⟩ := h hq now t hnow
  dsimp only
  rw [meets_bind, Engine.meets_jobs]
  refine ⟨hm, ?_, hfault⟩
  intro x u hx
  cases x with
  | false => exact hfalse u hx
  | true =>
    rw [if_pos rfl, meets_bind]
    exact meets_announce hw fun v hv => htrue u hx v hv

/-- The rule for claims. -/
theorem meets_claim (hw : w.Silent R) {j : Job} {good : Option Job → σ → Prop}
    (hno : j.state ≠ .queued → bad (.failed (.transition (.notAllowed j.state .running))) s)
    (h : j.state = .queued → ∀ now t, now.IsDate → R s t →
      w.may t (.jobs (.updateIf j (j.claimChange now))) ∧
      (∀ u, w.answers t (.jobs (.updateIf j (j.claimChange now))) (.ok true) u →
        ∀ v, R u v → good (some (j.claimed (j.claimChange now))) v) ∧
      (∀ u, w.answers t (.jobs (.updateIf j (j.claimChange now))) (.ok false) u → good none u) ∧
      ∀ fault u, w.answers t (.jobs (.updateIf j (j.claimChange now))) (.error fault) u →
        bad (.failed (.database fault)) u) :
    Meets w good bad (claim j) s := by
  refine meets_claim_clocked hw hno fun hq now t hnow => ?_
  obtain ⟨hdate, hst⟩ := hw.now s now t hnow
  exact h hq now t hdate hst

/-- The rule for completions, where the verdict is of the instant that the clock showed. -/
theorem meets_complete_clocked (hw : w.Silent R) {rules : RetryRules} {j : Job} {o : Outcome}
    {good : Job → σ → Prop}
    (hno : j.state ≠ .running → ∀ target now t, w.answers s .now now t →
      bad (.failed (.transition (.notAllowed j.state target))) t)
    (h : j.state = .running → ∀ now t, w.answers s .now now t →
      ∀ v, v = Verdict.of (rules.policy j.key) j now o →
      w.may t (.jobs (.updateIf j (v.change j now))) ∧
      (∀ u, w.answers t (.jobs (.updateIf j (v.change j now))) (.ok true) u → ∀ u',
        R u u' → good (j.completed (v.change j now)) u') ∧
      (∀ u, w.answers t (.jobs (.updateIf j (v.change j now))) (.ok false) u →
        bad (.failed (.transition (.changedWhileRunning j.state v.state))) u) ∧
      ∀ fault u, w.answers t (.jobs (.updateIf j (v.change j now))) (.error fault) u →
        bad (.failed (.database fault)) u) :
    Meets w good bad (complete rules j o) s := by
  unfold complete
  rw [meets_bind, Engine.meets_now]
  refine ⟨hw.mayNow s, ?_⟩
  intro now t hnow
  dsimp only
  rw [meets_bind, Engine.meets_ofExcept]
  refine ⟨?_, ?_⟩
  case refine_2 =>
    intro e he
    obtain ⟨hb, rfl⟩ := eq_error_of_checkBecomes he
    refine hno (fun hr => ?_) _ now t hnow
    rw [hr, (Verdict.gives_of ..).canBecome] at hb
    exact nomatch hb
  intro _ hu
  have hgives := Verdict.gives_of (rules.policy j.key) j now o
  have hrun : j.state = .running := hgives.eq_running (eq_ok_of_checkBecomes hu)
  obtain ⟨hm, htrue, hfalse, hfault⟩ := h hrun now t hnow _ rfl
  rw [meets_bind, Engine.meets_jobs]
  refine ⟨hm, ?_, hfault⟩
  intro x u hx
  cases x with
  | false => exact hfalse u hx
  | true =>
    rw [if_pos rfl]
    -- a job that was given up is told of first
    split
    · rw [meets_bind, Engine.meets_emit]
      refine ⟨hw.mayEmit u _, ?_⟩
      intro _ v hv
      rw [meets_bind]
      exact meets_announce hw fun v' hv' => htrue u hx v' (hw.trans _ _ _ (hw.emit u _ v hv) hv')
    · rw [meets_bind]
      exact meets_announce hw fun v hv => htrue u hx v hv

/-- The rule for completions. -/
theorem meets_complete (hw : w.Silent R) {rules : RetryRules} {j : Job} {o : Outcome}
    {good : Job → σ → Prop}
    (hno : j.state ≠ .running → ∀ target t,
      R s t → bad (.failed (.transition (.notAllowed j.state target))) t)
    (h : ∀ change t, j.state = .running → change.attempt = j.attempt → (j.IsProper → change.IsProper) →
      o.Gives change.state → R s t →
      w.may t (.jobs (.updateIf j change)) ∧
      (∀ u, w.answers t (.jobs (.updateIf j change)) (.ok true) u → ∀ v,
        R u v → good (j.completed change) v) ∧
      (∀ u, w.answers t (.jobs (.updateIf j change)) (.ok false) u →
        bad (.failed (.transition (.changedWhileRunning j.state change.state))) u) ∧
      ∀ fault u, w.answers t (.jobs (.updateIf j change)) (.error fault) u →
        bad (.failed (.database fault)) u) :
    Meets w good bad (complete rules j o) s := by
  refine meets_complete_clocked hw (fun hr target now t hnow => ?_) ?_
  · exact hno hr target t (hw.now s now t hnow).2
  rintro hrun now t hnow v rfl
  obtain ⟨hdate, hst⟩ := hw.now s now t hnow
  exact h _ t hrun rfl (fun hj => Verdict.change_isProper (rules.policy j.key) hj hdate o)
    (Verdict.gives_of ..) hst

end Queue

end MediaBackup
