import MediaBackup.Proofs.Life.Scene
import MediaBackup.Proofs.Workers.Basic

/-
  The life of a backup.

  A life starts with empty tables.  A process starts the backup, once; it runs passes, one at a time; and at any time,
  during a pass too, it puts a scan or a dispatch into the queue or prunes it.  Whatever is under way goes on call by
  call, in any order, and the world answers as it likes.  A pass may be given up between any two calls, and so may the
  whole process, after which a new one comes.  A pass that was given up, that ended with its process or that the
  database failed counts as INTERRUPTED.
-/

namespace MediaBackup

/-- The calls of a scene are answered as the table of jobs says. -/
theorem Scene.Answers.workers {s t : Scene} {c : Call} {x : c.Answer} (h : s.Answers c x t) :
    Workers.Answers s.jobs c x t.jobs := by
  cases c with
  | jobs st =>
    cases x with
    | ok x =>
      obtain ⟨hx, rfl⟩ := h
      exact ⟨hx, rfl⟩
    | error fault => exact h.imp (congrArg Scene.jobs) (congrArg Scene.jobs)
  | items st =>
    cases x with
    | ok x =>
      obtain ⟨_, rfl⟩ := h
      rfl
    | error fault =>
      rcases h with rfl | rfl
      · rfl
      · rfl
  | now =>
    obtain ⟨hd, rfl⟩ := h
    exact ⟨hd, rfl⟩
  | emit e => exact congrArg Scene.jobs h
  | network => exact congrArg Scene.jobs h
  | list =>
    cases x with
    | given l =>
      obtain rfl : t = { s with reported := l.ids ++ s.reported } := h
      rfl
    | failed e => exact congrArg Scene.jobs h
    | crashed words => exact congrArg Scene.jobs h
  | openItem id => exact congrArg Scene.jobs h
  | send request body =>
    obtain ⟨_, rfl⟩ := h
    rfl
  | await n =>
    replace h : s.Exchanges n x t := h
    unfold Scene.Exchanges at h
    split at h
    · obtain ⟨_, ⟨_, rfl⟩ | ⟨_, rfl⟩⟩ := h
      · rfl
      · rfl
    · exact congrArg Scene.jobs h

/-- A call runs one statement on the table of items, or none. -/
theorem Scene.Answers.items_eq {s t : Scene} {c : Call} {x : c.Answer} (h : s.Answers c x t) :
    t.items = s.items ∨ ∃ st, c = .items st ∧ t.items = (st.run s.items).2 := by
  cases c with
  | items st =>
    cases x with
    | ok x => exact .inr ⟨st, rfl, h.2 ▸ rfl⟩
    | error fault =>
      rcases h with rfl | rfl
      · exact .inl rfl
      · exact .inr ⟨st, rfl, rfl⟩
  | jobs st =>
    cases x with
    | ok x => exact .inl (h.2 ▸ rfl)
    | error fault => exact .inl (h.elim (fun h => h ▸ rfl) (fun h => h ▸ rfl))
  | now => exact .inl (h.2 ▸ rfl)
  | list =>
    cases x with
    | given l =>
      obtain rfl : t = { s with reported := l.ids ++ s.reported } := h
      exact .inl rfl
    | failed e => exact .inl (congrArg Scene.items h)
    | crashed words => exact .inl (congrArg Scene.items h)
  | send request body => exact .inl (h.2 ▸ rfl)
  | await n =>
    replace h : s.Exchanges n x t := h
    unfold Scene.Exchanges at h
    split at h
    · obtain ⟨_, ⟨_, rfl⟩ | ⟨_, rfl⟩⟩ := h
      · exact .inl rfl
      · exact .inl rfl
    · exact .inl (congrArg Scene.items h)
  | emit e => exact .inl (congrArg Scene.items h)
  | network => exact .inl (congrArg Scene.items h)
  | openItem id => exact .inl (congrArg Scene.items h)

/-- What a process is at, beside what it does to the queue. -/
inductive Stage where
  | quiet
  | starting (rest : Script Call Call.Answer (Except Stop Nat))
  | passing (crew : Crew (Except Stop PassReport))

/-- A moment in the life of a backup. -/
structure Life where
  scene : Scene
  /-- How many passes were interrupted. -/
  interrupted : Nat
  /-- The process started the backup. -/
  started : Bool
  stage : Stage
  /-- The operations on the queue that are under way beside the stage. -/
  errands : List Workers.Task

namespace Life

/-- The operations that may be run at any time. -/
def IsErrand : Workers.Operation → Prop
  | .enqueue r => r = .scan ∨ r = .dispatch
  | .prune _ => True
  | _ => False

/-- How many passes a pass that ended so counts as interrupted. -/
def lossOf : Except Stop PassReport → Nat
  | .error (.failed e) => if e.isFatal then 1 else 0
  | _ => 0

/-- A step of a life. -/
inductive Step (b : Backup) : Life → Life → Prop where
  /-- The process starts the backup. -/
  | start {s : Scene} {k : Nat} {started : Bool} {errands : List Workers.Task} :
    Step b ⟨s, k, started, .quiet, errands⟩ ⟨s, k, true, .starting (Backup.start started).run, errands⟩
  | startCall {s t : Scene} {k : Nat} {started : Bool} {errands : List Workers.Task} {c : Call}
      {next : c.Answer → Script Call Call.Answer (Except Stop Nat)} {x : c.Answer} (hx : s.Answers c x t) :
    Step b ⟨s, k, started, .starting (.ask c next), errands⟩ ⟨t, k, started, .starting (next x), errands⟩
  | startEnd {s : Scene} {k : Nat} {started : Bool} {errands : List Workers.Task} {r : Except Stop Nat} :
    Step b ⟨s, k, started, .starting (.done r), errands⟩ ⟨s, k, started, .quiet, errands⟩
  /-- An operation on the queue is begun beside whatever is under way. -/
  | errand {s : Scene} {k : Nat} {started : Bool} {stage : Stage} {errands : List Workers.Task}
      {op : Workers.Operation}
      (hop : IsErrand op) :
    Step b ⟨s, k, started, stage, errands⟩ ⟨s, k, started, stage,
      ⟨0, op, (op.program b.retry).run⟩ :: errands⟩
  | errandCall {s t : Scene} {k : Nat} {started : Bool} {stage : Stage}
      {left right : List Workers.Task} {n : Nat}
      {op : Workers.Operation} {c : Call}
      {next : c.Answer → Script Call Call.Answer (Except Stop op.Result)} {x : c.Answer}
      (hx : s.Answers c x t) :
    Step b ⟨s, k, started, stage, left ++ ⟨n, op, .ask c next⟩ :: right⟩
      ⟨t, k, started, stage, left ++ ⟨n, op, next x⟩ :: right⟩
  | errandEnd {s : Scene} {k : Nat} {started : Bool} {stage : Stage}
      {left right : List Workers.Task} {t : Workers.Task} :
    Step b ⟨s, k, started, stage, left ++ t :: right⟩ ⟨s, k, started, stage, left ++ right⟩
  /-- A pass is begun. -/
  | pass {s : Scene} {k : Nat} {started : Bool} {errands : List Workers.Task} :
    Step b ⟨s, k, started, .quiet, errands⟩
      ⟨s, k, started, .passing ⟨ExceptT.run (Pass.run b), [], [], b.permits⟩, errands⟩
  | passGoes {s t : Scene} {k : Nat} {started : Bool} {errands : List Workers.Task}
      {c d : Crew (Except Stop PassReport)}
      (h : Crew.Goes b Scene.Answers c s d t) :
    Step b ⟨s, k, started, .passing c, errands⟩ ⟨t, k, started, .passing d, errands⟩
  | passEnd {s : Scene} {k : Nat} {started : Bool} {errands : List Workers.Task}
      {c : Crew (Except Stop PassReport)}
      {r : Except Stop PassReport} (h : c.main = .done r) :
    Step b ⟨s, k, started, .passing c, errands⟩ ⟨s, k + lossOf r, started, .quiet, errands⟩
  /-- A pass is given up. -/
  | giveUp {s : Scene} {k : Nat} {started : Bool} {errands : List Workers.Task}
      {c : Crew (Except Stop PassReport)} :
    Step b ⟨s, k, started, .passing c, errands⟩ ⟨s, k + 1, started, .quiet, errands⟩
  /-- The process ends, and another one takes its place. -/
  | crash {s : Scene} {k : Nat} {started : Bool} {stage : Stage} {errands : List Workers.Task} :
    Step b ⟨s, k, started, stage, errands⟩
      ⟨s, (match stage with | .passing _ => k + 1 | _ => k), false, .quiet, []⟩

/-- The begin of a life: empty tables, nothing was sent. -/
def birth (clock : Instant) : Life := ⟨⟨[], [], clock, [], [], []⟩, 0, false, .quiet, []⟩

/-- The moments that a life can come to. -/
inductive Reachable (b : Backup) : Life → Prop where
  | birth (clock : Instant) : Reachable b (birth clock)
  | step {l l' : Life} (h : Reachable b l) (hs : Step b l l') : Reachable b l'

end Life

end MediaBackup
