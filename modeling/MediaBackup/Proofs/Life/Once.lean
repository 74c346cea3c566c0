import MediaBackup.Proofs.Life.Aboard
import MediaBackup.Proofs.Life.Basic

/-
  An item is acknowledged once, and once more for each interruption at most.

  The invariant of a life is `Alive`: between passes its scene is ashore, during one the crew is aboard.  Errands go on
  beside either, and spare uploads.  That what holds aboard survives the errands is seen from the guide of the pass, whose
  invariant only asks the tables to be changed sparingly.
-/

namespace MediaBackup.Life

open Script Workers

variable {b : Backup} {s t : Scene} {interrupted : Nat}

/-! ## Errands -/

/-- The statements of errands spare uploads. -/
theorem sparesUploads_of_errand (op : Operation) (hop : IsErrand op) {acts : List Act} {st : JobStatement}
    (h : op.MayRun acts st) : st.SparesUploads := by
  cases op with
  | enqueue r =>
    have hk : r.key.isHousekeeping = true := by
      rcases hop with rfl | rfl
      · rfl
      · rfl
    cases st with
    | find key => trivial
    | quarantine key reason now => exact h
    | insertIfAbsent job =>
      obtain ⟨hkey, _⟩ := h
      show job.key.isHousekeeping = true
      rw [hkey]
      exact hk
    | replaceIf job observed =>
      obtain ⟨hkey, _⟩ := h
      show job.key.isHousekeeping = true
      rw [hkey]
      exact hk
    | _ => exact h.elim
  | prune retention =>
    cases st with
    | deleteTerminal limit => trivial
    | _ => exact h.elim
  | _ => exact hop.elim

/-- The operation is an errand and keeps to its customs. -/
def Runs (task : Task) : Prop :=
  IsErrand task.op ∧ ∃ acts, task.rest.Keeps (customs task.number task.op) (fun _ _ => True) acts

/-- What a call of an errand does to a scene. -/
theorem answers_of_errand (hs : s.jobs.IsSound) {n : Nat} {op : Operation} (hop : IsErrand op)
    {acts : List Act} {c : Call}
    (hm : (customs n op).may acts c) {x : c.Answer} (hx : s.Answers c x t) :
    (∃ acts', (customs n op).answers acts c x acts') ∧ t.jobs.IsSound ∧ s.jobs.Spares t.jobs ∧
      t.items = s.items ∧
      t.sent = s.sent ∧ t.acknowledged = s.acknowledged := by
  refine ⟨⟨_, s.jobs, t.jobs, hs, hx.workers, rfl⟩, ?_⟩
  cases c with
  | jobs st =>
    obtain ⟨hproper, hmay⟩ := hm
    have hspares := sparesUploads_of_errand op hop hmay
    have hstay : s.jobs.IsSound ∧ s.jobs.Spares s.jobs ∧ s.items = s.items ∧ s.sent = s.sent ∧
        s.acknowledged = s.acknowledged := ⟨hs, JobTable.Spares.refl _, rfl, rfl, rfl⟩
    have hrun := JobTable.isSound_run hs hproper
    have hrun' := JobTable.spares_run hs.keyed hspares
    cases x with
    | ok x =>
      obtain ⟨_, rfl⟩ := hx
      exact ⟨hrun, hrun', rfl, rfl, rfl⟩
    | error fault =>
      rcases hx with rfl | rfl
      · exact hstay
      · exact ⟨hrun, hrun', rfl, rfl, rfl⟩
  | now =>
    obtain ⟨_, rfl⟩ := hx
    exact ⟨hs, JobTable.Spares.refl _, rfl, rfl, rfl⟩
  | emit e =>
    obtain rfl : t = s := hx
    exact ⟨hs, JobTable.Spares.refl _, rfl, rfl, rfl⟩
  | _ => exact hm.elim

/-! ## The start of a process -/

/-- The protocol of a start: it recovers jobs, and otherwise spares uploads. -/
def opening : Protocol Call Call.Answer Unit where
  may _ c := match c with
    | .jobs st => st.IsProper ∧ (st.SparesUploads ∨ ∃ now, st = .resetRunning now)
    | .now | .emit _ => True
    | _ => False
  answers _ c x _ := ∃ before after : JobTable, before.IsSound ∧ Answers before c x after

theorem start_keeps (started : Bool) : (Backup.start started).run.Keeps opening (fun _ _ => True) () := by
  have hop : ∀ op : Operation, op.IsProper →
      (∀ acts st, op.MayRun acts st → st.SparesUploads ∨ ∃ now, st = .resetRunning now) →
      Meets opening (fun _ _ => True) (fun _ _ => True) (op.program ⟨.upload, .housekeeping⟩) () := by
    intro op hproper hmay
    refine Meets.mono (fun _ _ _ => trivial) (fun _ _ _ => trivial)
      (Operation.meets_elsewhere (w := opening) _ hproper ?_ fun acts c x m' _ hx => ⟨rfl, hx⟩)
    intro acts c hc
    cases c with
    | jobs st => exact ⟨hc.1, hmay acts st hc.2⟩
    | now => trivial
    | emit e => trivial
    | _ => exact hc.elim
  suffices h : Meets opening (fun _ _ => True) (fun _ _ => True) (Backup.start started) () by
    refine Keeps.mono (fun _ _ _ => trivial) h
  have hrest : Meets opening (fun _ _ => True) (fun _ _ => True) (do
      let recovered ← Queue.recover
      let _ ← Queue.enqueue .scan
      let _ ← Queue.enqueue .dispatch
      pure recovered) () := by
    rw [meets_bind]
    refine Meets.mono (fun recovered _ _ => ?_) (fun _ _ _ => trivial)
      (hop .recover trivial fun acts st hst => ?_)
    · rw [meets_bind]
      refine Meets.mono (fun _ _ _ => ?_) (fun _ _ _ => trivial)
        (hop (.enqueue .scan) trivial
          fun acts st hst => .inl (sparesUploads_of_errand (.enqueue .scan) (Or.inl rfl) hst))
      rw [meets_bind]
      exact Meets.mono (fun _ _ _ => trivial) (fun _ _ _ => trivial)
        (hop (.enqueue .dispatch) trivial
          fun acts st hst => .inl (sparesUploads_of_errand (.enqueue .dispatch) (Or.inr rfl) hst))
    · cases st with
      | resetRunning now => exact .inr ⟨now, rfl⟩
      | _ => exact hst.elim
  unfold Backup.start
  split
  · trivial
  · exact hrest

/-- A call of a start leaves the scene ashore. -/
theorem ashore_of_opening (h : Ashore interrupted s) {c : Call} (hm : opening.may () c) {x : c.Answer}
    (hx : s.Answers c x t) : Ashore interrupted t := by
  cases c with
  | jobs st =>
    obtain ⟨hproper, hmay⟩ := hm
    have hrun : Ashore interrupted { s with jobs := (st.run s.jobs).2 } :=
      h.tame (JobTable.isSound_run h.sound hproper) (JobTable.tame_run h.sound.keyed hmay)
    cases x with
    | ok x =>
      obtain ⟨_, rfl⟩ := hx
      exact hrun
    | error fault =>
      rcases hx with rfl | rfl
      · exact h
      · exact hrun
  | now =>
    obtain ⟨_, rfl⟩ := hx
    exact h.same rfl rfl rfl
  | emit e =>
    obtain rfl : t = s := hx
    exact h
  | _ => exact hm.elim

/-! ## The invariant -/

/-- What holds at a stage. -/
def Holds (b : Backup) (interrupted : Nat) (s : Scene) : Stage → Prop
  | .quiet => Ashore interrupted s
  | .starting rest => Ashore interrupted s ∧ rest.Keeps opening (fun _ _ => True) ()
  | .passing crew => (guide b interrupted).Holds Line.Ends crew s

/-- What holds at every moment of a life. -/
structure Alive (b : Backup) (l : Life) : Prop where
  stage : Holds b l.interrupted l.scene l.stage
  errands : ∀ task ∈ l.errands, Runs task

theorem Holds.sound {stage : Stage} (h : Holds b interrupted s stage) : s.jobs.IsSound := by
  cases stage with
  | quiet => exact Ashore.sound h
  | starting rest => exact h.1.sound
  | passing crew =>
    obtain ⟨_, _, _, _, _, _, hinv⟩ := h
    exact hinv.afloat.sound

/-- At every moment every item is in balance, with some credit. -/
theorem Holds.balance {stage : Stage} (h : Holds b interrupted s stage) (id : String) :
    ∃ credit, s.Balanced interrupted credit id := by
  cases stage with
  | quiet => exact ⟨_, Ashore.balance h id⟩
  | starting rest => exact ⟨_, h.1.balance id⟩
  | passing crew =>
    obtain ⟨_, _, _, _, _, _, hinv⟩ := h
    exact ⟨_, hinv.afloat.balance id⟩

/-- Errands are no matter at any stage. -/
theorem Holds.spares {stage : Stage} (h : Holds b interrupted s stage) (hs : t.jobs.IsSound)
    (hj : s.jobs.Spares t.jobs)
    (hi : t.items = s.items) (hsent : t.sent = s.sent) (ha : t.acknowledged = s.acknowledged) :
    Holds b interrupted t stage := by
  have hashore : Ashore interrupted s → Ashore interrupted t := fun h =>
    (h.tame hs hj.tame).same rfl hi ha
  cases stage with
  | quiet => exact hashore h
  | starting rest => exact ⟨hashore h.1, h.2⟩
  | passing crew =>
    obtain ⟨m, row, hmain, hrow, hups, lost, hinv⟩ := h
    refine ⟨m, row, hmain, hrow, hups, lost, hinv.onward ?_ fun id hp => ?_⟩
    · exact (hinv.afloat.spares hs hj).same rfl hi (fun _ _ he => hsent ▸ he) ha
    · rw [hi]
      exact hp

/-- A pass that is given up costs one interruption. -/
theorem ashore_of_passing {crew : Crew (Except Stop PassReport)}
    (h : Holds b interrupted s (.passing crew)) :
    Ashore (interrupted + 1) s := by
  obtain ⟨_, _, _, _, _, _, hinv⟩ := h
  exact hinv.afloat.interrupt

/-- A pass that ends costs one if the database failed it, and else nothing. -/
theorem ashore_of_done {crew : Crew (Except Stop PassReport)} (h : Holds b interrupted s (.passing crew))
    {r : Except Stop PassReport} (hr : crew.main = .done r) : Ashore (interrupted + lossOf r) s := by
  cases r with
  | error e =>
    have hgivenUp := ashore_of_passing h
    obtain ⟨m, row, hmain, _⟩ := h
    rw [hr] at hmain
    obtain ⟨error, rfl, hf⟩ := hmain
    have hloss : lossOf (.error (.failed error)) = 1 := if_pos hf
    rw [hloss]
    exact hgivenUp
  | ok report =>
    obtain ⟨m, row, hmain, hrow, hups, lost, hinv⟩ := h
    rw [hr] at hmain
    obtain ⟨hhand, hopened, hsunk⟩ := hmain
    have hlen := hinv.opened
    rw [hopened] at hlen
    have hls : row.map Prod.snd = [] := List.eq_nil_of_length_eq_zero (by omega)
    have hended : crew.ended = [] := List.eq_nil_of_length_eq_zero (by omega)
    have hlost : lost = [] := by
      refine Classical.not_not.1 fun hne => ?_
      rcases hinv.sunk hne with hs | ⟨q, hq, _⟩ | ⟨l, hl, _⟩
      · rw [hsunk] at hs
        exact nomatch hs
      · rw [hended] at hq
        exact List.not_mem_nil hq
      · rw [hls] at hl
        exact List.not_mem_nil hl
    have hafloat := hinv.afloat
    rw [hls, hhand, hlost] at hafloat
    exact hafloat.ashore

theorem alive_birth (clock : Instant) : Alive b (birth clock) where
  stage := by
    refine ⟨JobTable.isSound_nil, ItemTable.keyed_nil, fun id => ?_⟩
    exact Scene.balanced_of_none rfl rfl rfl
  errands _ h := absurd h List.not_mem_nil

/-- Every step of a life keeps it alive. -/
theorem Alive.step {l l' : Life} (h : Alive b l) (hs : Step b l l') : Alive b l' := by
  obtain ⟨hstage, herrands⟩ := h
  cases hs with
  | @start s k started errands => exact ⟨⟨hstage, start_keeps started⟩, herrands⟩
  | startCall hx =>
    obtain ⟨hashore, hm, hn⟩ := hstage
    exact ⟨⟨ashore_of_opening hashore hm hx, hn _ () ⟨_, _, hashore.sound, hx.workers⟩⟩, herrands⟩
  | startEnd => exact ⟨hstage.1, herrands⟩
  | @errand s k started stage errands op hop =>
    refine ⟨hstage, fun task ht => ?_⟩
    rcases List.mem_cons.1 ht with rfl | ht
    · have hproper : op.IsProper := by
        cases op with
        | enqueue r => trivial
        | prune retention => trivial
        | _ => exact hop.elim
      exact ⟨hop, _, Keeps.mono (fun _ _ _ => trivial) (Operation.keeps b.retry hproper)⟩
    · exact herrands task ht
  | @errandCall s t k started stage left right n op c next x hx =>
    obtain ⟨hop, acts, hm, hn⟩ := herrands ⟨n, op, .ask c next⟩ (List.mem_append_right _ List.mem_cons_self)
    obtain ⟨⟨acts', hacts⟩, hsound, hspares, hi, hsent, ha⟩ := answers_of_errand hstage.sound hop hm hx
    refine ⟨hstage.spares hsound hspares hi hsent ha, fun task ht => ?_⟩
    rcases List.mem_append.1 ht with ht | ht
    · exact herrands task (List.mem_append_left _ ht)
    · rcases List.mem_cons.1 ht with rfl | ht
      · exact ⟨hop, acts', hn x acts' hacts⟩
      · exact herrands task (List.mem_append_right _ (List.mem_cons_of_mem _ ht))
  | errandEnd =>
    refine ⟨hstage, fun task ht => ?_⟩
    rcases List.mem_append.1 ht with ht | ht
    · exact herrands task (List.mem_append_left _ ht)
    · exact herrands task (List.mem_append_right _ (List.mem_cons_of_mem _ ht))
  | @pass s k started errands =>
    refine ⟨⟨Line.first, [], Line.run_keeps b, rfl, fun _ hp => absurd hp List.not_mem_nil, [], ?_⟩,
      herrands⟩
    exact ⟨Ashore.afloat hstage, fun _ => ⟨rfl, rfl, rfl⟩,
      fun id ⟨_, hp, hid⟩ => absurd (Option.some.inj hp ▸ hid) List.not_mem_nil,
      rfl, fun _ hr => absurd hr List.not_mem_nil, fun hne => absurd rfl hne⟩
  | passGoes hg => exact ⟨Guide.holds_of_goes hstage hg, herrands⟩
  | passEnd hr => exact ⟨ashore_of_done hstage hr, herrands⟩
  | giveUp => exact ⟨ashore_of_passing hstage, herrands⟩
  | @crash s k started stage errands =>
    refine ⟨?_, fun _ ht => absurd ht List.not_mem_nil⟩
    cases stage with
    | quiet => exact hstage
    | starting rest => exact hstage.1
    | passing crew => exact ashore_of_passing hstage

/-- So a life is alive at every moment. -/
theorem Reachable.alive {l : Life} (h : Reachable b l) : Alive b l := by
  induction h with
  | birth clock => exact alive_birth clock
  | step _ hs ih => exact ih.step hs

end MediaBackup.Life
