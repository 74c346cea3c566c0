import MediaBackup.Ledger.Basic
import MediaBackup.Queue.Basic

/-
  Putting a job into the queue.

  A key has one row, so a request meets the job that is there.  A running job, an upload that is still
  to come, and an item that was given up for good cover the request; any other job is replaced by a
  fresh one.  A lost race is run again, a bounded number of times.

  A dispatch queues an upload for every item that was not acknowledged yet.
-/

namespace MediaBackup

/-- What became of a request. -/
inductive Enqueued where
  | inserted
  | replaced
  /-- The job that is there covers the request. -/
  | dropped
deriving DecidableEq, Repr, Inhabited

namespace Enqueued

/-- The request gave a fresh job. -/
def isFresh : Enqueued → Bool
  | dropped => false
  | _ => true

/-- What became of the request, in a word. -/
def name : Enqueued → String
  | inserted => "Inserted"
  | replaced => "Replaced"
  | dropped => "Dropped"

end Enqueued

/-- A fresh job may take the place of this one. -/
def Job.isReplaceable (j : Job) : Bool :=
  match j.state with
  | .running => false
  | .queued | .retrying => !j.key.isUpload
  | .succeeded | .failed => true
  | .abandoned => !j.isTombstone

namespace Queue

/-- How often a request tries to win against other writers. -/
def enqueueRounds : Nat := 16

/-- Puts a job into the queue within the given number of tries. -/
def enqueueWithin (r : JobRequest) : Nat → Engine Enqueued
  | 0 => Engine.fail (.transition (.contended r.key enqueueRounds))
  | rounds + 1 => do
    let fresh := Job.fresh r (← Engine.now)
    match ← Engine.jobs (.find r.key.text) with
    | none =>
      if ← Engine.jobs (.insertIfAbsent fresh) then pure .inserted else enqueueWithin r rounds
    | some (.corrupt key reason) =>
      quarantine key reason
      enqueueWithin r rounds
    | some (.valid existing) =>
      if !existing.isReplaceable then pure .dropped
      else if ← Engine.jobs (.replaceIf fresh existing) then
        announce fresh.key existing.state .queued 0
        pure .replaced
      else enqueueWithin r rounds

/-- Puts a job into the queue, unless the job that is there covers it. -/
def enqueue (r : JobRequest) : Engine Enqueued := enqueueWithin r enqueueRounds

/-! ## Dispatch -/

/-- Queues an upload for each item; the number of fresh jobs is added to `count`. -/
def enqueueUploads (constraints : Constraints) : List Item → Nat → Engine Nat
  | [], count => pure count
  | i :: items, count => do
    let outcome ← enqueue (.upload i.id constraints)
    enqueueUploads constraints items (if outcome.isFresh then count + 1 else count)

/-- Queues an upload for every pending item; the number of fresh jobs. -/
def dispatch (constraints : Constraints) : Engine Nat := do
  enqueueUploads constraints (← Ledger.pending true) 0

end Queue

end MediaBackup
