import MediaBackup.Queue.Basic

/-
  The jobs whose time has come, and the upkeep of the queue.
-/

namespace MediaBackup

/-- The jobs that are due, and how many rows were given up on the way. -/
structure DueJobs where
  jobs : List Job
  quarantined : Nat
deriving DecidableEq, Repr, Inhabited

/-- Housekeeping comes first; within the two groups the order stays. -/
def DueJobs.arrange (d : DueJobs) : DueJobs :=
  { d with jobs := d.jobs.filter (·.key.isHousekeeping) ++ d.jobs.filter (fun j => !j.key.isHousekeeping) }

namespace Queue

/-- Queues the jobs whose wait for another attempt is over. -/
def promote : Engine Nat := do Engine.jobs (.promote (← Engine.now))

/-- Queues the jobs that were running when an earlier process ended. -/
def recover : Engine Nat := do Engine.jobs (.resetRunning (← Engine.now))

/-- Parts rows into jobs and rows that cannot be read, which are given up. -/
def sift : List Decoded → DueJobs → Engine DueJobs
  | [], d => pure d
  | .valid j :: rows, d => sift rows { d with jobs := d.jobs ++ [j] }
  | .corrupt key reason :: rows, d => do
    quarantine key reason
    sift rows { d with quarantined := d.quarantined + 1 }

/-- The jobs that are due, housekeeping first. -/
def due : Engine DueJobs := do
  let rows ← Engine.jobs (.listDue (← Engine.now))
  DueJobs.arrange <$> sift rows ⟨[], 0⟩

/-- Deletes the jobs that have been over for longer than `retention`. -/
def prune (retention : Duration) : Engine Nat := do
  Engine.jobs (.deleteTerminal ((← Engine.now).before retention))

end Queue

end MediaBackup
