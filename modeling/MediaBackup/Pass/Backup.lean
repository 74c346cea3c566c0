import MediaBackup.Ledger.Basic
import MediaBackup.Queue.Attempt
import MediaBackup.Queue.Enqueue
import MediaBackup.Upload.Attempt

/-
  The backup as it is set up, and what it does for one job.

  A job that is claimed is worked at and its outcome written.  Whatever happens in the work is an
  outcome, a breakdown too; only a database that cannot be reached ends the work without one.
-/

namespace MediaBackup

/-- A backup as it is set up. -/
structure Backup where
  retry : RetryRules
  uploads : UploadSettings
  /-- What uploads demand of the network. -/
  constraints : Constraints
  /-- How many uploads may run at once. -/
  permits : Nat

namespace Backup

/-- The backup to an endpoint under the given settings. -/
def ofSettings (e : Endpoint) (s : Settings) : Backup where
  retry := ⟨s.uploadRetry, s.housekeepingRetry⟩
  uploads := .ofEndpoint e s
  constraints := s.uploadConstraints
  permits := max s.maxConcurrentUploads 1

/-- What breaks down when more permits are made than there can be. -/
def breakdown? (b : Backup) : Option String :=
  if Upload.mostSlots < b.permits then some Upload.tooManySlots else none

/-- Does what a key says. -/
def perform (b : Backup) : JobKey → Engine Outcome
  | .scan => do
    let report ← Ledger.scan
    Engine.emit (.scanCompleted report.seen report.discovered)
    if report.discovered > 0 then
      let _ ← Queue.enqueue .dispatch
    pure .success
  | .dispatch => do
    let enqueued ← Queue.dispatch b.constraints
    Engine.emit (.dispatchCompleted enqueued)
    pure .success
  | .upload id => Upload.attempt b.uploads id

/-- The outcome of work that ended in an error: a corrupt row or an item that is gone will not get
    better. -/
def outcomeOf (j : Job) (e : SyncError) : Engine Outcome := do
  let failure : Failure := ⟨e.failureKind, e.message⟩
  match failure.kind with
  | .ledgerCorruption =>
    Engine.emit (.ledgerCorrupted j.key.text failure.message)
    pure (.permanent failure)
  | .itemGone => pure (.permanent failure)
  | _ => pure (.retryable failure)

/-- The outcome of work that broke down. -/
def outcomeOfBreakdown (words : Option String) : Outcome :=
  .retryable ⟨.internal, "panicked: " ++ words.getD "unknown panic payload"⟩

/-- Works at a claimed job and writes the outcome: the state of the job after it. -/
def work (b : Backup) (j : Job) : Engine JobState := do
  let outcome ← match ← Engine.observe (b.perform j.key) with
    | .ok outcome => pure outcome
    | .error (.failed e) => if e.isFatal then Engine.fail e else outcomeOf j e
    | .error (.crashed words) => pure (outcomeOfBreakdown words)
  match ← Engine.observe (Queue.complete b.retry j outcome) with
  | .ok j => pure j.state
  | .error (.failed e) => if e.isFatal then Engine.fail e else pure j.state
  | .error (.crashed words) => Engine.crash words

end Backup

end MediaBackup
