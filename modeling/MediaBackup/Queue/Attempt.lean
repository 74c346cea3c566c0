import MediaBackup.Queue.Basic

/-
  An attempt at a job: its claim, which makes the job run, and its end, which writes the outcome.

  Both hold a copy of the job from before and write only if the row still has the state and attempt
  of the copy.
-/

namespace MediaBackup

/-- The count of attempts stops here. -/
def Job.attemptMax : Nat := UInt32.size - 1

/-- What an outcome makes of a running job: the next state, when it is due, what is written as its
    last error, and why it was given up. -/
structure Verdict where
  state : JobState
  nextRunAt : Instant
  lastError : Option String
  abandonReason : Option AbandonReason
deriving DecidableEq, Repr

namespace Verdict

/-- The verdict on an attempt that ended at `now`. -/
def of (p : RetryPolicy) (j : Job) (now : Instant) : Outcome → Verdict
  | .success => ⟨.succeeded, j.nextRunAt, none, none⟩
  | .retryable f =>
    if p.allowsRetry j.attempt then
      ⟨.retrying, now.after (.ofMillis (p.delayFor j.key j.attempt)), some f.text, none⟩
    else ⟨.abandoned, j.nextRunAt, some f.text, some .exhausted⟩
  | .permanent f => ⟨.abandoned, j.nextRunAt, some f.text, some .permanent⟩

/-- The change that writes a verdict on an attempt. -/
def change (v : Verdict) (j : Job) (now : Instant) : Change :=
  ⟨v.state, j.attempt, v.nextRunAt, v.lastError, v.abandonReason, now⟩

end Verdict

namespace Queue

/-- Makes a job run and counts the attempt; none if its row is not the one of the copy. -/
def claim (j : Job) : Engine (Option Job) := do
  Engine.ofExcept (j.state.checkBecomes .running)
  let now ← Engine.now
  let attempt := min (j.attempt + 1) Job.attemptMax
  let change : Change := ⟨.running, attempt, j.nextRunAt, j.lastError, none, now⟩
  if ← Engine.jobs (.updateIf j change) then
    announce j.key j.state .running attempt
    pure (some { j with state := .running, attempt := attempt, updatedAt := now })
  else pure none

/-- Writes the outcome of an attempt at a running job. -/
def complete (rules : RetryRules) (j : Job) (outcome : Outcome) : Engine Job := do
  let now ← Engine.now
  let v := Verdict.of (rules.policy j.key) j now outcome
  Engine.ofExcept (j.state.checkBecomes v.state)
  if ← Engine.jobs (.updateIf j (v.change j now)) then
    match v.abandonReason with
    | some reason => Engine.emit (.jobAbandoned j.key.text reason.name v.lastError)
    | none => pure ()
    announce j.key j.state v.state j.attempt
    pure {
      j with
      state := v.state, nextRunAt := v.nextRunAt, lastError := v.lastError
      abandonReason := v.abandonReason, updatedAt := now }
  else Engine.fail (.transition (.changedWhileRunning j.state v.state))

end Queue

end MediaBackup
