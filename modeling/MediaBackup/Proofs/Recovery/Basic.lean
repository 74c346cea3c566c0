import MediaBackup.Proofs.Recovery.World

/-
  The recovery of a backup.

  A fresh process finds the tables as an earlier one left them.  It starts the backup, its clock comes to when the last
  job is due, and it runs three passes one after another.  Nobody else writes, and nothing fails: the world is the one
  of `Scene.Kindly`.  Its answers and the order in which the members of a pass go on are open.
-/

namespace MediaBackup

/-- However `step` goes on from here, it comes to what satisfies `P`. -/
inductive Comes {σ : Type} (step : σ → σ → Prop) (P : σ → Prop) : σ → Prop where
  | here {a : σ} (h : P a) : Comes step P a
  | goes {a : σ} (h : ∃ b, step a b) (hnext : ∀ b, step a b → Comes step P b) : Comes step P a

namespace Comes

variable {σ : Type} {step : σ → σ → Prop} {P Q : σ → Prop} {a : σ}

/-- What comes to `P`, and from each such place to `Q`, comes to `Q`. -/
theorem trans (h : Comes step P a) (hPQ : ∀ b, P b → Comes step Q b) : Comes step Q a := by
  induction h with
  | here h => exact hPQ _ h
  | goes hgo _ ih => exact .goes hgo ih

theorem mono (h : Comes step P a) (hPQ : ∀ b, P b → Q b) : Comes step Q a := h.trans fun b hb => .here (hPQ b hb)

/-- What every step preserves still holds there. -/
theorem preserved (h : Comes step P a) {I : σ → Prop} (hstep : ∀ b c, I b → step b c → I c) (ha : I a) :
    Comes step (fun b => P b ∧ I b) a := by
  induction h with
  | here h => exact .here ⟨h, ha⟩
  | goes hgo _ ih => exact .goes hgo fun b hb => ih b hb (hstep _ b ha hb)

end Comes

/-- The row of a key. -/
def JobTable.at? (t : JobTable) (k : JobKey) : Option JobRow := t.row? k.text

/-- The job was given up, and for good. -/
def JobRow.IsTombstone (r : JobRow) : Prop :=
  r.state = JobState.abandoned.name ∧ r.abandonReason = some AbandonReason.permanent.name

/-- The upload of an item was given up for good. -/
def Scene.Buried (s : Scene) (id : String) : Prop := ∃ r, s.jobs.at? (.upload id) = some r ∧ r.IsTombstone

/-- The tables can be read: no two rows have one key or one id, every row holds a job or an item, and every item has a
    name. -/
structure Scene.Readable (s : Scene) : Prop where
  jobs : s.jobs.Keyed
  items : s.items.Keyed
  jobRows : ∀ r ∈ s.jobs, ∃ j, r.job = .ok j
  itemRows : ∀ r ∈ s.items, ∃ i, r.item = .ok i
  named : ∀ r ∈ s.items, r.id ≠ ""
  clock : s.clock.IsDate

/-- What a recovery is at. -/
inductive Recovery.Stage where
  | starting (rest : Script Call Call.Answer (Except Stop Nat))
  /-- A pass is under way, and so many are left after it. -/
  | passing (crew : Crew (Except Stop PassReport)) (left : Nat)
  | ended

/-- A moment of a recovery. -/
structure Recovery where
  scene : Scene
  stage : Recovery.Stage

namespace Recovery

/-- A recovery begins with the start of the backup. -/
def begun (s : Scene) : Recovery := ⟨s, .starting (Backup.start false).run⟩

/-- A pass that is about to begin. -/
def fresh (b : Backup) : Crew (Except Stop PassReport) := ⟨ExceptT.run (Pass.run b), [], [], b.permits⟩

/-- A step of a recovery where the library lists `ids`. -/
inductive Step (b : Backup) (ids : List String) : Recovery → Recovery → Prop where
  | startCall {s t : Scene} {c : Call} {next : c.Answer → Script Call Call.Answer (Except Stop Nat)}
      {x : c.Answer}
      (hx : Scene.Kindly ids s c x t) : Step b ids ⟨s, .starting (.ask c next)⟩ ⟨t, .starting (next x)⟩
  /-- The backup is started, the clock goes on until every job is due, and the first of three passes begins. -/
  | started {s : Scene} {recovered : Nat} {clock : Instant} (hdate : clock.IsDate)
      (hle : s.clock.nanos ≤ clock.nanos)
      (hdue : ∀ r ∈ s.jobs, r.nextRunAt.le clock.cell = true) :
    Step b ids ⟨s, .starting (.done (.ok recovered))⟩ ⟨{ s with clock := clock }, .passing (fresh b) 2⟩
  | passGoes {s t : Scene} {c d : Crew (Except Stop PassReport)} {left : Nat}
      (h : Crew.Goes b (Scene.Kindly ids) c s d t) : Step b ids ⟨s, .passing c left⟩ ⟨t, .passing d left⟩
  /-- A pass ends without an error, and the next one begins. -/
  | passEnd {s : Scene} {c : Crew (Except Stop PassReport)} {report : PassReport} {left : Nat}
      (h : c.main = .done (.ok report)) : Step b ids ⟨s, .passing c (left + 1)⟩ ⟨s, .passing (fresh b) left⟩
  /-- The last pass ends without an error. -/
  | lastEnd {s : Scene} {c : Crew (Except Stop PassReport)} {report : PassReport}
      (h : c.main = .done (.ok report)) :
    Step b ids ⟨s, .passing c 0⟩ ⟨s, .ended⟩

/-- The recovery is over, and every item that was or is known or that the library lists is uploaded, except where its
    upload was given up for good. -/
def Done (ids : List String) (s : Scene) (r : Recovery) : Prop :=
  r.stage = .ended ∧ ∀ id, s.items.Knows id ∨ r.scene.items.Knows id ∨ id ∈ ids →
    r.scene.items.Uploaded id ∨ r.scene.Buried id

end Recovery

end MediaBackup
