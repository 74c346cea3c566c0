import MediaBackup.Pass.Basic

/-
  A pass under way: its main line, the uploads beside it, and the permits.

  One step of the crew is one answer to one of its members.  Any order of steps is a run of the pass;
  `Crew.run` takes turns, and lets a member that waits for the world stand back until nobody else can go
  on.  The crew comes to an end whatever the order, because every member does.
-/

namespace MediaBackup

/-- A pass under way. -/
structure Crew (α : Type) where
  main : Script PassCall PassCall.Answer α
  uploads : List (Script Call Call.Answer (Except Stop JobState))
  /-- How the uploads ended that were not joined yet. -/
  ended : List (Except Stop JobState)
  /-- Permits that nobody holds. -/
  free : Nat

namespace Crew

variable {α σ : Type}

/-- `d` is what is left of `c` after one step. -/
def Follows (d c : Crew α) : Prop :=
  Prod.Lex Script.Follows Script.RowFollows (d.main, d.uploads) (c.main, c.uploads)

theorem follows_wf : WellFounded (Follows (α := α)) :=
  InvImage.wf (fun c : Crew α => (c.main, c.uploads))
    (Prod.lex ⟨_, Script.follows_wf⟩ ⟨_, Script.rowFollows_wf⟩).wf

instance : WellFoundedRelation (Crew α) := ⟨Follows, follows_wf⟩

/-- A step of a crew: what is left of it, and the state of the world. -/
abbrev Step (c : Crew α) (σ : Type) := { d : Crew α // Follows d c } × σ

/-- The crew after an answer to its main line. -/
def answered {c : Crew α} {e : PassCall} {next : e.Answer → Script PassCall PassCall.Answer α}
    (h : c.main = .ask e next) (x : e.Answer) (d : Crew α) (hd : d.main = next x) : { d : Crew α // Follows d c } :=
  ⟨d, by unfold Follows; rw [h, hd]; exact .left _ _ (.mk e next x)⟩

/-- A step of the main line, unless it is at its end or has to wait. -/
def stepMain (b : Backup) (answer : (e : Call) → σ → e.Answer × σ) (c : Crew α) (s : σ) : Option (Step c σ) :=
  match h : c.main with
  | .done _ => none
  | .ask (.engine e) next =>
    let (x, s) := answer e s
    some (answered h x { c with main := next x } rfl, s)
  | .ask .tryPermit next =>
    if c.free = 0 then some (answered h false { c with main := next false } rfl, s)
    else some (answered h true { c with main := next true, free := c.free - 1 } rfl, s)
  | .ask .waitPermit next =>
    if c.free = 0 then none
    else some (answered h () { c with main := next (), free := c.free - 1 } rfl, s)
  | .ask .returnPermit next => some (answered h () { c with main := next (), free := c.free + 1 } rfl, s)
  | .ask (.start j) next =>
    some (answered h () { c with main := next (), uploads := c.uploads ++ [(b.work j).run] } rfl, s)
  | .ask .join next => match c.ended with
    | [] => none
    | r :: ended => some (answered h r { c with main := next r, ended := ended } rfl, s)

/-- A step of an upload.  One that is at its end leaves its result and its permit. -/
def stepUpload (answer : (e : Call) → σ → e.Answer × σ) (c : Crew α) (i : Nat) (s : σ) : Option (Step c σ) :=
  (Script.advanceAt answer c.uploads i s).map fun (p, result, s) =>
    let d := match result with
      | none => { c with uploads := p.1 }
      | some r => { c with uploads := p.1, ended := c.ended ++ [r], free := c.free + 1 }
    (⟨d, by
      have : d.main = c.main ∧ d.uploads = p.1 := by cases result <;> exact ⟨rfl, rfl⟩
      unfold Follows
      rw [this.1, this.2]
      exact .right _ p.2⟩, s)

/-- A step of a member: 0 is the main line, the others are the uploads. -/
def step (b : Backup) (answer : (e : Call) → σ → e.Answer × σ) (c : Crew α) (member : Nat) (s : σ) :
    Option (Step c σ) :=
  match member with
  | 0 => c.stepMain b answer s
  | i + 1 => c.stepUpload answer i s

/-- How long a script has to wait for the world. -/
def delayOf {β : Type} (delay : Call → σ → Nat) (s : σ) : Script Call Call.Answer β → Nat
  | .done _ => 0
  | .ask e _ => delay e s

/-- How long the main line has to wait for the world; none if it is at its end or waits for the crew. -/
def mainDelay (delay : Call → σ → Nat) (c : Crew α) (s : σ) : Option Nat :=
  match c.main with
  | .done _ => none
  | .ask (.engine e) _ => some (delay e s)
  | .ask .waitPermit _ => if c.free = 0 then none else some 0
  | .ask .join _ => if c.ended.isEmpty then none else some 0
  | .ask _ _ => some 0

/-- The members that can go on, each with how long it has to wait for the world. -/
def movers (delay : Call → σ → Nat) (c : Crew α) (s : σ) : List (Nat × Nat) :=
  let main := match c.mainDelay delay s with
    | some d => [(0, d)]
    | none => []
  main ++ c.uploads.mapIdx fun i u => (i + 1, delayOf delay s u)

/-- The first of the members with the shortest wait. -/
def soonest : List (Nat × Nat) → Option (Nat × Nat)
  | [] => none
  | m :: ms => match soonest ms with
    | some k => some (if k.2 < m.2 then k else m)
    | none => some m

/-- Who goes on after member `last`, those behind it first, and how long it has to wait. -/
def pick (delay : Call → σ → Nat) (c : Crew α) (last : Nat) (s : σ) : Option (Nat × Nat) :=
  let ms := c.movers delay s
  soonest (ms.filter (last < ·.1) ++ ms.filter (·.1 ≤ last))

/-- How a pass is run: who answers its calls, how long each has to wait, and whether the pass is given
    up when nobody can go on without waiting. -/
structure Conduct (σ : Type) where
  answer : (e : Call) → σ → e.Answer × σ
  delay : Call → σ → Nat
  givesUp : σ → Bool

/-- Runs a crew to its end, where the members take turns: the value of the main line and the state of the
    world.  None if the pass is given up, or if the members wait for each other. -/
def runFrom (b : Backup) (how : Conduct σ) (c : Crew α) (last : Nat) (s : σ) : Option α × σ :=
  match c.main with
  | .done a => (some a, s)
  | .ask _ _ =>
    match c.pick how.delay last s with
    | none => (none, s)
    | some (member, wait) =>
      if wait ≠ 0 ∧ how.givesUp s then (none, s)
      else match c.step b how.answer member s with
        | none => (none, s)
        | some (d, s) => runFrom b how d.1 member s
termination_by c
decreasing_by exact d.2

end Crew

/-- Runs a pass of a backup in a world; none if it is given up. -/
def Backup.runPass? {σ : Type} (b : Backup) (how : Crew.Conduct σ) (s : σ) :
    Option (Except Stop PassReport) × σ :=
  Crew.runFrom b how ⟨ExceptT.run (Pass.run b), [], [], b.permits⟩ 0 s

end MediaBackup
