import MediaBackup.Proofs.Commons.Tombstones
import MediaBackup.Proofs.Queue.Listing

/-
  What pruning deletes.

  The statement that deletes looks at columns: at two names of states, at the name of a reason, and at how a key begins.
  Of a row that holds a job this finds just what is said of the job: that it is over and no tombstone, and that it was
  last changed more than the retention ago, in whole milliseconds (`isPrunable_eq`).  Where the time is so early that
  the calendar has no such instant, the limit stops at the first one, and no job was changed before it.
-/

namespace MediaBackup

open Script

/-- The job is over and no tombstone, and by its milliseconds it was changed before `now - retention`. -/
def Job.isExpired (j : Job) (now : Instant) (retention : Duration) : Bool :=
  j.state.isTerminal && !j.isTombstone && decide (j.updatedAt.millis < (now.nanos - retention.nanos) / 1000000)

/-- The row holds such a job. -/
def JobRow.isExpired (row : JobRow) (now : Instant) (retention : Duration) : Bool :=
  row.job.toOption.any (·.isExpired now retention)

namespace JobRow

variable {row : JobRow} {j : Job} {now : Instant} {retention : Duration}

theorem looksLikeUpload_key (k : JobKey) : looksLikeUpload k.text = k.isUpload := by
  cases k with
  | upload id => exact looksLikeUpload_text id
  | scan => decide
  | dispatch => decide

theorem isExpired_eq (h : row.Says j) : row.isExpired now retention = j.isExpired now retention := by
  unfold isExpired
  rw [job_eq_ok_iff.mpr h]
  rfl

/-- A date comes before the limit exactly if it comes before it by exact arithmetic. -/
theorem lt_before_iff {t : Instant} (ht : t.IsDate) :
    t.millis < (now.before retention).millis ↔ t.millis < (now.nanos - retention.nanos) / 1000000 := by
  have hfirst := ht.le_millis
  show t.millis < max (now.nanos - retention.nanos) (Instant.firstMillis * 1000000) / 1000000 ↔ _
  omega

/-- By its columns the row is that of a job that is over and no tombstone. -/
theorem over_eq (h : row.Says j) :
    (row.state == "succeeded" ||
      (row.state == "abandoned" && (row.abandonReason != some "permanent" || !looksLikeUpload row.key))) =
    (j.state.isTerminal && !j.isTombstone) := by
  have hreason : (j.abandonReason.map AbandonReason.name != some "permanent") =
      !(j.abandonReason == some .permanent) := by
    cases j.abandonReason with
    | none => rfl
    | some reason => cases reason <;> decide
  unfold Job.isTombstone
  rw [h.state, h.abandonReason, h.key, looksLikeUpload_key, hreason]
  cases j.state with
  | abandoned =>
    show (!_ || !_) = !(true && _ && _)
    rw [Bool.true_and, Bool.not_and]
  | _ => rfl

/-- What the statement finds is that the job is expired. -/
theorem isPrunable_eq (h : row.Says j) : row.isPrunable (now.before retention) = j.isExpired now retention := by
  have htime : row.updatedAt.lt (now.before retention).cell =
      decide (j.updatedAt.millis < (now.nanos - retention.nanos) / 1000000) := by
    rw [h.updatedAt.eq_cell, Bool.eq_iff_iff, decide_eq_true_iff, ← lt_before_iff h.updatedAt.isDate]
    exact Cell.lt_int
  unfold isPrunable Job.isExpired
  rw [htime, over_eq h, Bool.and_comm]

/-- Where the calendar has no instant that is so early, no job is expired. -/
theorem isExpired_eq_false (h : row.Says j) (hdate : now.IsDate)
    (hearly : ¬(Instant.mk (now.nanos - retention.nanos)).IsDate) : row.isExpired now retention = false := by
  rw [isExpired_eq h]
  have hfirst := h.updatedAt.isDate.le_millis
  have hlimit : now.nanos - retention.nanos < Instant.firstMillis * 1000000 := by
    refine Int.not_le.mp fun hle => hearly ⟨hle, ?_⟩
    exact (Int.sub_le_self _ (Int.natCast_nonneg _)).trans hdate.2
  have hlate : ¬j.updatedAt.millis < (now.nanos - retention.nanos) / 1000000 := by omega
  unfold Job.isExpired
  rw [decide_eq_false hlate, Bool.and_false]

end JobRow

namespace Desk

variable {s : Desk} {retention : Duration}

theorem meets_prune (hs : ∀ row ∈ s.jobs, ∃ j, row.Says j) {good : Nat → Desk → Prop} {bad : Stop → Desk → Prop}
    (h : ∀ now : Instant, now.IsDate → good (s.jobs.countP (·.isExpired now retention))
      ⟨s.jobs.filter (!·.isExpired now retention), now :: s.shown, s.told⟩) :
    Meets alone good bad (Queue.prune retention) s := by
  unfold Queue.prune
  rw [meets_bind]
  refine meets_now fun now hdate => meets_jobs ?_
  have hsame : ∀ row ∈ s.jobs, row.isPrunable (now.before retention) = row.isExpired now retention := by
    intro row hrow
    obtain ⟨j, hj⟩ := hs row hrow
    rw [JobRow.isPrunable_eq hj, JobRow.isExpired_eq hj]
  have hcount : s.jobs.countP (·.isPrunable (now.before retention)) = s.jobs.countP (·.isExpired now retention) :=
    List.countP_congr fun row hrow => by rw [hsame row hrow]
  have hfilter : s.jobs.filter (!·.isPrunable (now.before retention)) = s.jobs.filter (!·.isExpired now retention) :=
    List.filter_congr fun row hrow => by rw [hsame row hrow]
  have hgood := h now hdate
  rw [← hcount, ← hfilter] at hgood
  exact hgood

/-- **What pruning deletes.**  From a table whose rows all hold jobs the expired jobs are deleted and counted, and
    nothing else is changed.  If `now - retention` is not in the calendar nothing is deleted. -/
theorem prune_exact (hs : ∀ row ∈ s.jobs, ∃ j, row.Says j) (retention : Duration) :
    Comes (Script.Goes Goes) (fun a => ∃ (now : Instant) (n : Nat), a.1 = .done (.ok n) ∧
        a.2 = ⟨s.jobs.filter (!·.isExpired now retention), now :: s.shown, s.told⟩ ∧
        n = s.jobs.countP (·.isExpired now retention) ∧
        (¬(Instant.mk (now.nanos - retention.nanos)).IsDate → n = 0 ∧ a.2.jobs = s.jobs))
      ((Queue.prune retention).run, s) := by
  have hmeets : Meets alone (fun n t => ∃ now : Instant, now.IsDate ∧ n = s.jobs.countP (·.isExpired now retention) ∧
      t = ⟨s.jobs.filter (!·.isExpired now retention), now :: s.shown, s.told⟩) (fun _ _ => False)
      (Queue.prune retention) s := meets_prune hs fun now hdate => ⟨now, hdate, rfl, rfl⟩
  refine (Script.comes_of_keeps exists_goes hmeets).mono ?_
  rintro ⟨p, t⟩ ⟨result, rfl, hend⟩
  cases result with
  | error e => exact hend.elim
  | ok n =>
    obtain ⟨now, hdate, rfl, rfl⟩ := hend
    refine ⟨now, _, rfl, rfl, rfl, fun hearly => ?_⟩
    have hnone : ∀ row ∈ s.jobs, row.isExpired now retention = false := by
      intro row hrow
      obtain ⟨j, hj⟩ := hs row hrow
      exact JobRow.isExpired_eq_false hj hdate hearly
    refine ⟨List.countP_eq_zero.mpr fun row hrow => ne_true_of_eq_false (hnone row hrow), ?_⟩
    exact List.filter_eq_self.mpr fun row hrow => by rw [hnone row hrow]; rfl

/-- An upload that succeeded at the epoch. -/
def sentUpload : Job := { Job.fresh (.upload "a" .none) .epoch with state := .succeeded }

/-- An upload that was given up for good at the epoch. -/
def buriedUpload : Job :=
  { Job.fresh (.upload "b" .none) .epoch with state := .abandoned, abandonReason := some .permanent }

/-- Of both the one that succeeded is deleted, and the tombstone stays. -/
theorem prune_exact_tombstone : Comes (Script.Goes Goes)
    (fun a => ∃ now : Instant, a.2.shown = [now] ∧
      (0 < now.millis → a.1 = .done (.ok 1) ∧ a.2.jobs = [.ofJob buriedUpload]))
    ((Queue.prune ⟨0⟩).run, ⟨[.ofJob sentUpload, .ofJob buriedUpload], [], []⟩) := by
  have hepoch : Instant.epoch.IsDate := by decide
  have hsent : (JobRow.ofJob sentUpload).Says (JobRow.stored sentUpload) :=
    JobRow.ofJob_says ⟨JobState.noConfusion, Nat.zero_lt_succ _, hepoch, hepoch, hepoch⟩ (by decide)
  have hburied : (JobRow.ofJob buriedUpload).Says (JobRow.stored buriedUpload) :=
    JobRow.ofJob_says ⟨JobState.noConfusion, Nat.zero_lt_succ _, hepoch, hepoch, hepoch⟩ (by decide)
  have hsays : ∀ row ∈ [JobRow.ofJob sentUpload, .ofJob buriedUpload], ∃ j, row.Says j := by
    intro row hrow
    rcases List.mem_pair.mp hrow with rfl | rfl
    · exact ⟨_, hsent⟩
    · exact ⟨_, hburied⟩
  refine (prune_exact (s := ⟨[.ofJob sentUpload, .ofJob buriedUpload], [], []⟩) hsays ⟨0⟩).mono ?_
  rintro ⟨p, t⟩ ⟨now, n, hp, ht, hn, -⟩
  dsimp only at hp ht
  subst hp ht
  refine ⟨now, rfl, fun hlate => ?_⟩
  have hgone : (JobRow.ofJob sentUpload).isExpired now ⟨0⟩ = true := by
    rw [JobRow.isExpired_eq hsent]
    have hmillis : (0 : Int) < (now.nanos - (0 : Nat)) / 1000000 := by
      rw [Nat.cast_zero, sub_zero]
      exact hlate
    exact decide_eq_true hmillis
  have hkept : (JobRow.ofJob buriedUpload).isExpired now ⟨0⟩ = false := by
    rw [JobRow.isExpired_eq hburied]
    rfl
  have hcount : [JobRow.ofJob sentUpload, .ofJob buriedUpload].countP (·.isExpired now ⟨0⟩) = 1 := by
    rw [List.countP_cons, List.countP_singleton, hgone, hkept]
    rfl
  have hfilter : [JobRow.ofJob sentUpload, .ofJob buriedUpload].filter (!·.isExpired now ⟨0⟩) =
      [.ofJob buriedUpload] := by
    rw [List.filter_cons, List.filter_singleton, hgone, hkept]
    rfl
  obtain rfl : n = 1 := hn.trans hcount
  refine ⟨rfl, ?_⟩
  dsimp only
  rw [hfilter]

end Desk

end MediaBackup
