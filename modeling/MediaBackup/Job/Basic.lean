import MediaBackup.Job.Constraints
import MediaBackup.Job.Retry
import MediaBackup.Time.Instant

/-
  Jobs, requests for jobs, and how an attempt ends.
-/

namespace MediaBackup

/-- A job as its row keeps it. -/
structure Job where
  key : JobKey
  state : JobState
  /-- How often the job was started. -/
  attempt : Nat
  constraints : Constraints
  /-- The job is due from here on. -/
  nextRunAt : Instant
  lastError : Option String
  abandonReason : Option AbandonReason
  createdAt : Instant
  updatedAt : Instant
deriving DecidableEq, Repr, Inhabited

/-- A wish for a job. -/
structure JobRequest where
  key : JobKey
  constraints : Constraints
deriving DecidableEq, Repr, Inhabited

/-- Why an attempt failed. -/
structure Failure where
  kind : FailureKind
  message : String
deriving DecidableEq, Repr, Inhabited

/-- The failure as a row keeps it. -/
def Failure.text (f : Failure) : String := f.kind.name ++ ": " ++ f.message

/-- How an attempt ended. -/
inductive Outcome where
  | success
  /-- Another attempt may succeed. -/
  | retryable (failure : Failure)
  /-- No attempt will succeed. -/
  | permanent (failure : Failure)
deriving DecidableEq, Repr, Inhabited

/-- The failure of an attempt that failed. -/
def Outcome.failure? : Outcome → Option Failure
  | .success => none
  | .retryable f | .permanent f => some f

namespace JobRequest

/-- A scan. -/
def scan : JobRequest := ⟨.scan, .none⟩

/-- A dispatch. -/
def dispatch : JobRequest := ⟨.dispatch, .none⟩

/-- An upload of an item. -/
def upload (id : String) (constraints : Constraints) : JobRequest := ⟨.upload id, constraints⟩

end JobRequest

namespace Job

/-- The job that a request asks for, due at once. -/
def fresh (r : JobRequest) (now : Instant) : Job where
  key := r.key
  state := .queued
  attempt := 0
  constraints := r.constraints
  nextRunAt := now
  lastError := none
  abandonReason := none
  createdAt := now
  updatedAt := now

/-- An upload that was given up for good: its row stays, so that the item is not sent again. -/
def isTombstone (j : Job) : Bool :=
  j.state == .abandoned && j.abandonReason == some .permanent && j.key.isUpload

end Job

end MediaBackup
