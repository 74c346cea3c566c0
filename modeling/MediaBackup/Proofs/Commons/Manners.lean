import MediaBackup.Proofs.Commons.Basic
import MediaBackup.Proofs.Pass.Working
import MediaBackup.Proofs.Workers.Conduct

/-
  What undertakings ask of the tables.

  MILD is a statement that treats rows gently: a row that was read gives way to a fresh one only if its job was
  replaceable, only the rows of keys that can be read are changed, and only where a job waits or runs, and a row
  is given up only under a key that cannot be read.  All that undertakings write is mild and can be read
  (`minds_program`), whatever others do to the tables between their calls.

  The operations of the queue keep to that by their conduct (`minds_operation`), and minor calls do; all undertakings
  are put together from the two.
-/

namespace MediaBackup

open Script Workers

/-- The statement treats rows gently. -/
def JobStatement.IsMild : JobStatement → Prop
  | insertIfAbsent job => job.state = .queued
  | replaceIf job observed => job.state = .queued ∧ observed.key = job.key ∧ observed.isReplaceable = true
  | updateIf observed _ => observed.key.IsProper ∧ (observed.state = .queued ∨ observed.state = .running)
  | quarantine key _ _ => JobKey.parse? key = none
  | find _ | listDue _ | promote _ | resetRunning _ | count _ | deleteTerminal _ => True

namespace Commons

/-- What undertakings may ask, and what they have to expect: the table of jobs is sound at every call. -/
def manners : Protocol Call Call.Answer Unit where
  may _ c := match c with
    | .jobs st => st.IsProper ∧ st.IsMild
    | .items st => st.IsDated
    | _ => True
  answers _ c x _ := ∃ before after : JobTable, before.IsSound ∧ Workers.Answers before c x after

/-- The program keeps to the manners. -/
def Minds {α : Type} (p : Engine α) : Prop := Meets manners (fun _ _ => True) (fun _ _ => True) p ()

/-! ## Operations of the queue -/

variable {rules : RetryRules} {op : Operation} {acts : List Act}

/-- What an operation came upon that cannot be read has a key that cannot be read. -/
def FindsNoKey (acts : List Act) : Prop :=
  ∀ a ∈ acts, ∀ key reason, a.FindsCorrupt key reason → JobKey.parse? key = none

/-- What an operation does that came upon no other corruption is mild, and can be read. -/
theorem mild_of_mayDo (hop : (Undertaking.operation op).IsProper) (hfinds : FindsNoKey acts) {s : JobStatement}
    (h : op.MayDo rules acts s) : s.IsProper ∧ s.IsMild := by
  have hquarantine : ∀ key words, Overwrites key words acts → JobKey.parse? key = none := by
    rintro key words ⟨since, read, before, reason, rfl, hread, _⟩
    exact hfinds read (List.mem_append_right _ List.mem_cons_self) key reason hread
  cases op with
  | enqueue r =>
    cases s with
    | find key => exact ⟨trivial, trivial⟩
    | insertIfAbsent job =>
      obtain ⟨now, hnow, rfl⟩ := h
      exact ⟨Job.fresh_isProper r hnow.1, rfl⟩
    | replaceIf job observed =>
      obtain ⟨⟨now, hnow, rfl⟩, hkey, hreplaceable⟩ := h
      exact ⟨Job.fresh_isProper r hnow.1, rfl, hkey, hreplaceable⟩
    | quarantine key words now => exact ⟨h.2.1, hquarantine key words h.1⟩
    | _ => exact h.elim
  | due =>
    cases s with
    | listDue now => exact ⟨trivial, trivial⟩
    | quarantine key words now => exact ⟨h.2.1, hquarantine key words h.1⟩
    | _ => exact h.elim
  | get key =>
    cases s with
    | find text => exact ⟨trivial, trivial⟩
    | _ => exact h.elim
  | claim j =>
    obtain ⟨hj, hk⟩ := hop
    cases s with
    | updateIf observed change =>
      obtain ⟨rfl, hq, _, now, hnow, rfl⟩ := h
      exact ⟨hj.claimChange hnow.1, hk, .inl hq⟩
    | _ => exact h.elim
  | complete c o =>
    obtain ⟨hc, hk⟩ := hop
    cases s with
    | updateIf observed change =>
      obtain ⟨rfl, hrun, _, now, hnow, rfl⟩ := h
      exact ⟨Verdict.change_isProper _ hc hnow.1 o, hk, .inr hrun⟩
    | _ => exact h.elim
  | promote =>
    cases s with
    | promote now => exact ⟨h.1, trivial⟩
    | _ => exact h.elim
  | recover =>
    cases s with
    | resetRunning now => exact ⟨h.1, trivial⟩
    | _ => exact h.elim
  | prune retention =>
    cases s with
    | deleteTerminal limit => exact ⟨trivial, trivial⟩
    | _ => exact h.elim

/-- A call that minds the manners leaves a sound table sound. -/
theorem isSound_of_may {c : Call} {x : c.Answer} {before after : JobTable} (hmay : manners.may () c)
    (hs : before.IsSound) (hx : Workers.Answers before c x after) : after.IsSound := by
  rcases hx.table_eq with rfl | ⟨st, rfl, rfl⟩
  · exact hs
  · exact JobTable.isSound_run hs hmay.1

/-- Every operation of the queue keeps to the manners: that is part of its conduct. -/
theorem minds_operation (rules : RetryRules) (op : Operation) (h : (Undertaking.operation op).IsProper) :
    Minds (op.program rules) := by
  have hconduct := @Operation.keeps_conduct 0 [] rules op rfl
  refine Keeps.weaken (fun acts _ => FindsNoKey acts) ?_ ?_ ?_ (fun _ ha => absurd ha List.not_mem_nil) hconduct
  · intro acts _ c hfinds hmay
    cases c with
    | jobs st => exact mild_of_mayDo h hfinds hmay
    | now => trivial
    | emit e => trivial
    | _ => exact hmay.elim
  · rintro acts _ c x _ hfinds hmay ⟨before, after, hs, hx⟩
    refine ⟨_, ⟨before, after, hs.keyed, hx, rfl⟩, ?_⟩
    -- a row of a sound table cannot be read only for its key
    intro a ha key reason hcorrupt
    rcases List.mem_cons.1 ha with rfl | ha
    · have hafter : after.IsSound := by
        cases c with
        | jobs st => exact isSound_of_may (c := .jobs st) (mild_of_mayDo h hfinds hmay) hs hx
        | now => exact isSound_of_may (c := .now) trivial hs hx
        | emit e => exact isSound_of_may (c := .emit e) trivial hs hx
        | _ => exact hmay.elim
      obtain ⟨row, hrow, hdecode⟩ := exists_corrupt_of_findsCorrupt hs.keyed hx hcorrupt
      exact ((hafter.readable row (JobTable.mem_of_row? hrow)).parse?_of_corrupt hdecode).2
    · exact hfinds a ha key reason hcorrupt
  · rintro (e | a) _ _ _ _ <;> trivial

/-! ## Everything else -/

/-- The manners say nothing about minor calls but that they are dated. -/
theorem manners_minor : Engine.Minor manners fun _ => True where
  call c hc _ _ := by
    refine Engine.meets_call.mpr ⟨?_, fun _ _ _ => trivial⟩
    cases c with
    | jobs st => exact hc.elim
    | items st => exact hc
    | _ => trivial
  date := by
    rintro _ x _ _ ⟨_, _, _, hdate, _⟩
    exact hdate

/-- A program that keeps to the manners does so in every state: there is only one. -/
theorem Minds.preserves {α : Type} {p : Engine α} (h : Minds p) : Engine.Preserves manners (fun _ => True) p :=
  fun _ _ => h

theorem preserves_enqueue (r : JobRequest) : Engine.Preserves manners (fun _ => True) (Queue.enqueue r) :=
  (minds_operation .standard (.enqueue r) trivial).preserves

theorem preserves_start (started : Bool) : Engine.Preserves manners (fun _ => True) (Backup.start started) := by
  unfold Backup.start
  have hrest : Engine.Preserves manners (fun _ => True) (do
      let recovered ← Queue.recover
      let _ ← Queue.enqueue .scan
      let _ ← Queue.enqueue .dispatch
      pure recovered) :=
    Engine.preserves_bind (minds_operation .standard .recover trivial).preserves fun recovered =>
      Engine.preserves_bind (preserves_enqueue _) fun _ => Engine.preserves_bind (preserves_enqueue _) fun _ =>
        Engine.preserves_pure recovered
  cases started with
  | true => exact Engine.preserves_bind (Engine.preserves_fail _) fun _ => hrest
  | false => exact hrest

/-- Every undertaking keeps to the manners. -/
theorem minds_program (b : Backup) {u : Undertaking} (h : u.IsProper) :
    Minds (u.program b) := by
  cases u with
  | operation op => exact minds_operation b.retry op h
  | start started => exact preserves_start started () trivial
  | dispatch => exact manners_minor.dispatch b.constraints (fun r _ => preserves_enqueue r) () trivial
  | discover id time => exact (manners_minor.answerable.discover id h).preserves () trivial
  | acknowledge id time => exact (manners_minor.answerable.markUploaded id h).preserves () trivial
  | work copy =>
    refine manners_minor.work b copy (fun r _ => preserves_enqueue r) (fun outcome => ?_) () trivial
    exact (minds_operation b.retry (.complete copy outcome) h).preserves

end Commons

end MediaBackup
