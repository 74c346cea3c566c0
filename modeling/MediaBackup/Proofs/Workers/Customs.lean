import MediaBackup.Proofs.Queue.Rules
import MediaBackup.Proofs.Workers.Basic

/-
  What each operation of the queue does to the table, told by its own acts.

  `Operation.MayRun` says which statements an operation may run after its acts so far, and
  `Operation.Ends` what its result tells about them.  Both speak about one operation only; that it keeps to
  them, whatever others do to the table between its calls, is `Operation.keeps`.  What a call finds in the
  table is all that is known of the others: the table is sound at every call.
-/

namespace MediaBackup.Workers

/-! ## Acts that update a row -/

/-- The act ran an update of a row. -/
def Act.isUpdate : Act → Bool
  | .called _ _ (.jobs (.updateIf _ _)) _ _ _ => true
  | _ => false

/-- The change that an act made to a row by updating it. -/
def Act.granted? : Act → Option Change
  | .called _ _ (.jobs (.updateIf _ change)) (.ok true) _ _ => some change
  | _ => none

namespace Operation

/-- The running job that an operation has in its charge: one that it claimed and did not return yet, or
    one that it did not complete yet. -/
def charge : Operation → List Act → Option Job
  | claim j, acts => (acts.findSome? Act.granted?).map j.claimed
  | complete c _, acts => if acts.any Act.isUpdate then none else some c
  | _, _ => none

/-- The running job that an operation returns. -/
def returned : (op : Operation) → Except Stop op.Result → Option Job
  | claim _, .ok o => o
  | _, _ => none

/-- The copies that an operation is given can be held by a row. -/
def IsProper : Operation → Prop
  | claim j => j.IsProper
  | complete c _ => c.IsProper
  | _ => True

/-- What an operation may run on the table after its acts so far. -/
def MayRun : Operation → List Act → JobStatement → Prop
  | enqueue r, _, .find key => key = r.key.text
  | enqueue _, _, .quarantine key _ _ => JobKey.parse? key = none
  | enqueue r, _, .insertIfAbsent job => job.key = r.key ∧ job.state = .queued
  | enqueue r, _, .replaceIf job observed => job.key = r.key ∧ job.state = .queued ∧
      observed.isReplaceable = true
  | due, _, .listDue _ => True
  | due, _, .quarantine key _ _ => JobKey.parse? key = none
  | get key, _, .find text => text = key.text
  | claim j, acts, .updateIf observed change =>
    observed = j ∧ j.state = .queued ∧ change.state = .running ∧ acts.any Act.isUpdate = false
  | complete c o, acts, .updateIf observed change =>
    observed = c ∧ o.Gives change.state ∧ acts.any Act.isUpdate = false
  | promote, _, .promote _ => True
  | recover, _, .resetRunning _ => True
  | prune _, _, .deleteTerminal _ => True
  | _, _, _ => False

end Operation

/-! ## What the dedup table says -/

/-- A fresh job takes the place of this one: a scan or dispatch that waits, and every job that is over but
    the tombstone of an upload. -/
def GivesWay (j : Job) : Prop :=
  (j.key.isHousekeeping = true ∧ (j.state = .queued ∨ j.state = .retrying)) ∨ j.state = .succeeded ∨
    (j.state = .abandoned ∧ ¬ (j.key.isUpload = true ∧ j.abandonReason = some .permanent))

/-- The job covers a request for its key: it is running, or an upload that waits or is a tombstone. -/
def Covers (j : Job) : Prop :=
  j.state = .running ∨ (j.key.isUpload = true ∧ (j.state = .queued ∨ j.state = .retrying)) ∨
    (j.state = .abandoned ∧ j.key.isUpload = true ∧ j.abandonReason = some .permanent)

theorem isTombstone_iff {j : Job} :
    j.isTombstone = true ↔ j.state = .abandoned ∧ j.abandonReason = some .permanent ∧
      j.key.isUpload = true := by
  unfold Job.isTombstone
  rw [Bool.and_eq_true, Bool.and_eq_true, beq_iff_eq, beq_iff_eq, and_assoc]

theorem isUpload_eq_not (k : JobKey) : k.isUpload = !k.isHousekeeping := by cases k <;> rfl

theorem givesWay_of_isReplaceable {j : Job} (h : j.isReplaceable = true) (hf : j.state ≠ .failed) :
    GivesWay j := by
  unfold Job.isReplaceable at h
  rw [isUpload_eq_not] at h
  cases hs : j.state with
  | running => rw [hs] at h; exact nomatch h
  | failed => exact absurd hs hf
  | queued =>
    rw [hs, Bool.not_not] at h
    exact .inl ⟨h, .inl hs⟩
  | retrying =>
    rw [hs, Bool.not_not] at h
    exact .inl ⟨h, .inr hs⟩
  | succeeded => exact .inr (.inl hs)
  | abandoned =>
    rw [hs] at h
    refine .inr (.inr ⟨hs, ?_⟩)
    rintro ⟨hu, hr⟩
    rw [isTombstone_iff.2 ⟨hs, hr, hu⟩] at h
    exact nomatch h

theorem covers_of_not_isReplaceable {j : Job} (h : j.isReplaceable = false) : Covers j := by
  unfold Job.isReplaceable at h
  cases hs : j.state with
  | running => exact .inl hs
  | failed => rw [hs] at h; exact nomatch h
  | succeeded => rw [hs] at h; exact nomatch h
  | queued =>
    rw [hs, Bool.not_eq_false'] at h
    exact .inr (.inl ⟨h, .inl hs⟩)
  | retrying =>
    rw [hs, Bool.not_eq_false'] at h
    exact .inr (.inl ⟨h, .inr hs⟩)
  | abandoned =>
    rw [hs, Bool.not_eq_false'] at h
    obtain ⟨_, hr, hu⟩ := isTombstone_iff.1 h
    exact .inr (.inr ⟨hs, hu, hr⟩)

/-! ## What a result tells -/

/-- The act is a write of a fresh job under `key` that was refused. -/
def Act.IsRefused (n : Nat) (key : String) : Act → Prop
  | .called m _ (.jobs (.insertIfAbsent job)) (.ok false) _ _ => m = n ∧ job.key.text = key
  | .called m _ (.jobs (.replaceIf job _)) (.ok false) _ _ => m = n ∧ job.key.text = key
  | _ => False

/-- The act read the row of `key`. -/
def Act.Reads (n : Nat) (key : String) : Act → Prop
  | .called m _ (.jobs (.find k)) (.ok _) _ _ => m = n ∧ k = key
  | _ => False

/-- The table that an act found and the one that it left. -/
def Act.before? : Act → Option JobTable
  | .called _ _ _ _ before _ => some before
  | _ => none

/-- The table that an act left. -/
def Act.after? : Act → Option JobTable
  | .called _ _ _ _ _ after => some after
  | _ => none

/-- The acts of a request that lost `k` rounds: in each it looked at the clock, read the row and was
    refused its write, because the row had become another one in between. -/
inductive LostRounds (n : Nat) (key : String) : Nat → List Act → Prop where
  | none (acts : List Act) : LostRounds n key 0 acts
  | round {k : Nat} {acts : List Act} {clock read write : Act} {before after : JobTable}
      (h : LostRounds n key k acts) (hread : read.Reads n key) (hwrite : write.IsRefused n key)
      (hafter : read.after? = some after) (hbefore : write.before? = some before)
      (hrow : JobTable.row? after key ≠ JobTable.row? before key) :
    LostRounds n key (k + 1) (write :: read :: clock :: acts)

/-- What the outcome of a request tells, where `saw` tells which acts happened meanwhile and `lost` how many
    rounds were lost: at one of its acts the row of the key was as the outcome says. -/
def RequestEnds (n : Nat) (r : JobRequest) (saw : Act → Prop) (lost : Nat → Prop) :
    Except Stop Enqueued → Prop
  | .ok .inserted => ∃ time before after,
      saw (.called n (.enqueue r) (.jobs (.insertIfAbsent (Job.fresh r time))) (.ok true) before after) ∧
      before.row? r.key.text = none ∧
      after.row? r.key.text = some (JobRow.ofJob (Job.fresh r time))
  | .ok .replaced => ∃ time observed before after,
      saw (.called n (.enqueue r) (.jobs (.replaceIf (Job.fresh r time) observed))
        (.ok true) before after) ∧
      (∃ row j, before.row? r.key.text = some row ∧ row.Says j ∧ GivesWay j) ∧
      after.row? r.key.text = some (JobRow.ofJob (Job.fresh r time))
  | .ok .dropped => ∃ found before after,
      saw (.called n (.enqueue r) (.jobs (.find r.key.text)) found before after) ∧
      ∃ row j, before.row? r.key.text = some row ∧ row.Says j ∧ Covers j
  | .error e => (∃ fault, e = .failed (.database fault)) ∨
      (e = .failed (.transition (.contended r.key Queue.enqueueRounds)) ∧ lost Queue.enqueueRounds)

theorem RequestEnds.imp {n : Nat} {r : JobRequest} {saw saw' : Act → Prop} {lost lost' : Nat → Prop}
    (hs : ∀ op c x before after, saw (.called n op c x before after) → saw' (.called n op c x before after))
    (hl : ∀ k, lost k → lost' k) {result : Except Stop Enqueued} (h : RequestEnds n r saw lost result) :
    RequestEnds n r saw' lost' result := by
  rcases result with e | (_ | _ | _)
  · exact Or.imp id (And.imp_right (hl _)) h
  · obtain ⟨time, before, after, ha, h⟩ := h
    exact ⟨time, before, after, hs _ _ _ _ _ ha, h⟩
  · obtain ⟨time, observed, before, after, ha, h⟩ := h
    exact ⟨time, observed, before, after, hs _ _ _ _ _ ha, h⟩
  · obtain ⟨found, before, after, ha, h⟩ := h
    exact ⟨found, before, after, hs _ _ _ _ _ ha, h⟩

/-- The jobs that are due: proper ones, housekeeping first. -/
structure Arranged (jobs : List Job) : Prop where
  isProper : ∀ j ∈ jobs, j.IsProper ∧ j.key.IsProper
  order : ∃ first rest, jobs = first ++ rest ∧ (∀ j ∈ first, j.key.isHousekeeping = true) ∧
    ∀ j ∈ rest, j.key.isUpload = true

/-- Where housekeeping comes first, behind an upload there are only uploads. -/
theorem pairwise_of_order {first rest : List Job} (hfirst : ∀ j ∈ first, j.key.isHousekeeping = true)
    (hrest : ∀ j ∈ rest, j.key.isUpload = true) :
    (first ++ rest).Pairwise fun i j => i.key.isUpload = true → j.key.isUpload = true := by
  refine List.pairwise_append.2 ⟨?_, ?_, fun i _ j hj _ => hrest j hj⟩
  · refine List.Pairwise.imp_of_mem ?_
      (List.pairwise_of_forall (R := fun _ _ => True) (l := first) fun _ _ => trivial)
    intro i j hi _ _ hu
    rw [isUpload_eq_not, hfirst i hi] at hu
    exact nomatch hu
  · refine List.Pairwise.imp_of_mem ?_
      (List.pairwise_of_forall (R := fun _ _ => True) (l := rest) fun _ _ => trivial)
    exact fun _ hj _ _ => hrest _ hj

theorem Arranged.pairwise {jobs : List Job} (h : Arranged jobs) :
    jobs.Pairwise fun i j => i.key.isUpload = true → j.key.isUpload = true := by
  obtain ⟨first, rest, rfl, hfirst, hrest⟩ := h.order
  exact pairwise_of_order hfirst hrest

theorem pairwise_arrange (d : DueJobs) :
    d.arrange.jobs.Pairwise fun i j => i.key.isUpload = true → j.key.isUpload = true := by
  refine pairwise_of_order (fun j hj => (List.mem_filter.1 hj).2) fun j hj => ?_
  rw [isUpload_eq_not]
  exact (List.mem_filter.1 hj).2

/-- What the result of an operation tells about its acts. -/
def Operation.Ends (n : Nat) : (op : Operation) → List Act → Except Stop op.Result → Prop
  | enqueue r, acts, result =>
    r.key.IsProper → RequestEnds n r (· ∈ acts) (LostRounds n r.key.text · acts) result
  | claim j, acts, result =>
    (claim j).charge acts = (claim j).returned result ∧ ∀ e, result = .error e → e.IsError
  | complete c o, acts, result =>
    (c.state = .running → acts.any Act.isUpdate = true ∧
      ((∃ s t, result = .error (.failed (.transition (.changedWhileRunning s t)))) →
        ∃ change before after,
          .called n (.complete c o) (.jobs (.updateIf c change)) (.ok false) before after ∈ acts)) ∧
    (∀ e, result = .error e → e.IsError) ∧ ∀ j, result = .ok j → o.Gives j.state
  | due, _, result => (∀ e, result = .error e → e.IsOfDatabase) ∧ ∀ d, result = .ok d → Arranged d.jobs
  | promote, _, result => ∀ e, result = .error e → e.IsOfDatabase
  | _, _, _ => True

/-- What an operation may ask after its acts so far, and what it has to expect: whatever a call can be
    answered on a sound table. -/
def customs (n : Nat) (op : Operation) : Protocol Call Call.Answer (List Act) where
  may acts c := match c with
    | .jobs s => s.IsProper ∧ op.MayRun acts s
    | .now | .emit _ => True
    | _ => False
  answers acts c x acts' := ∃ before after, before.IsSound ∧ Answers before c x after ∧
    acts' = .called n op c x before after :: acts

end MediaBackup.Workers
