import MediaBackup.Engine.Call
import MediaBackup.Job.Basic

/-
  The queue of jobs: what its operations have in common.

  Every operation of the queue is a few statements on the table of jobs, between which others may
  write.  So a writer never trusts what it read: it writes under the condition that the row is
  still the one it saw, and looks again if it is not.
-/

namespace MediaBackup

/-- The policies of a queue. -/
structure RetryRules where
  uploads : RetryPolicy
  housekeeping : RetryPolicy

/-- The policies unless others are set. -/
def RetryRules.standard : RetryRules := ⟨.upload, .housekeeping⟩

/-- The policy of a key. -/
def RetryRules.policy (r : RetryRules) (key : JobKey) : RetryPolicy :=
  if key.isUpload then r.uploads else r.housekeeping

/-- How many jobs are in each state. -/
structure QueueCount where
  queued : Nat
  running : Nat
  retrying : Nat
  succeeded : Nat
  abandoned : Nat
deriving DecidableEq, Repr, Inhabited

namespace QueueCount

/-- All jobs. -/
def total (c : QueueCount) : Nat := c.queued + c.running + c.retrying + c.succeeded + c.abandoned

/-- No job will be looked at any more. -/
def isIdle (c : QueueCount) : Bool := c.queued == 0 && c.running == 0 && c.retrying == 0

end QueueCount

namespace Queue

/-- Tells that a job went from one state to another. -/
def announce (key : JobKey) (source target : JobState) (attempt : Nat) : Engine Unit :=
  Engine.emit (.jobStateChanged key.text source.name target.name attempt)

/-- Gives up a row that cannot be read, and tells so. -/
def quarantine (key : String) (reason : RowFault) : Engine Unit := do
  Engine.jobs (.quarantine key reason.message (← Engine.now))
  Engine.emit (.ledgerCorrupted key reason.message)

/-- The job of a key, if it has one. -/
def get (key : JobKey) : Engine (Option Job) := do
  match ← Engine.jobs (.find key.text) with
  | none => pure none
  | some row => some <$> Engine.ofExcept row.toJob

/-- Counts the jobs state by state, one statement a state. -/
def stats : Engine QueueCount := do
  let queued ← Engine.jobs (.count .queued)
  let running ← Engine.jobs (.count .running)
  let retrying ← Engine.jobs (.count .retrying)
  let succeeded ← Engine.jobs (.count .succeeded)
  let abandoned ← Engine.jobs (.count .abandoned)
  pure ⟨queued, running, retrying, succeeded, abandoned⟩

end Queue

end MediaBackup
