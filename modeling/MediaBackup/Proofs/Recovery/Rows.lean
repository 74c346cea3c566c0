import MediaBackup.Proofs.Life.Tame
import MediaBackup.Proofs.Recovery.Basic
import MediaBackup.Proofs.Workers.Keeping

/-
  The rows of a table whose rows can all be read.

  In a LEGIBLE table every row says a job, so a key is all that is needed to speak of a row: `JobTable.at?` is the row
  of a key.  A write that is not refused sets one row and leaves the others (`Sets`), and keeps the table legible.
-/

namespace MediaBackup

namespace JobTable

variable {t t' : JobTable} {k : JobKey} {r : JobRow}

/-- The row of a key is this one now, and those of all other keys are what they were. -/
structure Sets (t : JobTable) (k : JobKey) (r : JobRow) (t' : JobTable) : Prop where
  own : t'.at? k = some r
  others : ∀ k', k' ≠ k → t'.at? k' = t.at? k'

theorem sets_insertIfAbsent (h : Keyed t) {job : Job} (hr : t.at? job.key = none) :
    t.Sets job.key (JobRow.ofJob job) ((JobStatement.insertIfAbsent job).run t).2 where
  own := by
    unfold at? at hr ⊢
    rw [row?_run h, hr]
    exact if_pos rfl
  others k' hk := row?_run_of_target h rfl fun e => hk (JobKey.text_injective e)

theorem sets_replaceIf (h : Keyed t) {job observed : Job} (hk : observed.key = job.key)
    (hr : t.at? job.key = some r)
    (ho : r.isObserved observed = true) :
    t.Sets job.key (JobRow.ofJob job) ((JobStatement.replaceIf job observed).run t).2 where
  own := by
    unfold at? at hr ⊢
    rw [row?_run h, hr]
    show some (if r.isObserved { observed with key := job.key } then _ else r) = _
    rw [← hk, if_pos ho]
  others k' hk' := row?_run_of_target h rfl fun e => hk' (JobKey.text_injective e)

theorem sets_updateIf (h : Keyed t) {j : Job} (hr : t.at? j.key = some r)
    (hc : r.isCurrent j = true) (change : Change) :
    t.Sets j.key (r.apply change) ((JobStatement.updateIf j change).run t).2 where
  own := by
    unfold at? at hr ⊢
    rw [row?_run h, hr]
    exact congrArg some (if_pos hc)
  others k' hk' := row?_run_of_target h rfl fun e => hk' (JobKey.text_injective e)

/-! ## Legible tables -/

/-- No two rows have one key, and every row says a job. -/
structure Legible (t : JobTable) : Prop extends IsSound t where
  keys : ∀ r ∈ t, ∃ k : JobKey, k.IsProper ∧ r.key = k.text

theorem legible_of_says (hk : Keyed t) (h : ∀ r ∈ t, ∃ j, r.Says j) : t.Legible where
  keyed := hk
  readable r hr := by
    obtain ⟨j, hj⟩ := h r hr
    exact hj.isReadable
  keys r hr := by
    obtain ⟨j, hj⟩ := h r hr
    exact ⟨j.key, hj.isProper, hj.key⟩

/-- A row of a legible table is the row of the job that it says. -/
theorem Legible.says (h : t.Legible) (hr : r ∈ t) : ∃ j, r.Says j ∧ t.at? j.key = some r := by
  obtain ⟨k, hp, hk⟩ := h.keys r hr
  obtain ⟨j, hj, rfl⟩ := (h.readable r hr).exists_job hk hp
  refine ⟨j, hj, ?_⟩
  unfold at?
  rw [← hk]
  exact row?_of_mem h.keyed hr

/-- The row of a key says a job of that key. -/
theorem Legible.says_at (h : t.Legible) (hr : t.at? k = some r) : ∃ j, r.Says j ∧ j.key = k := by
  obtain ⟨j, hj, _⟩ := h.says (mem_of_row? hr)
  exact ⟨j, hj, JobKey.text_injective (hj.key.symm.trans (key_of_row? hr))⟩

/-- A proper statement that adds no row with an improper key keeps a table legible. -/
theorem Legible.run (h : t.Legible) {s : JobStatement} (hs : s.IsProper)
    (hkey : ∀ job, s = .insertIfAbsent job → job.key.IsProper) : Legible (s.run t).2 where
  toIsSound := isSound_run h.toIsSound hs
  keys r hr := by
    have hrow := row?_of_mem (keyed_run h.keyed s) hr
    rw [row?_run h.keyed] at hrow
    cases ho : row? t r.key with
    | some q =>
      obtain ⟨k, hp, hk⟩ := h.keys q (mem_of_row? ho)
      exact ⟨k, hp, (key_of_row? ho).symm.trans hk⟩
    | none =>
      rw [ho] at hrow
      cases s with
      | insertIfAbsent job =>
        change (if job.key.text = r.key then some (JobRow.ofJob job) else none) = some r at hrow
        split at hrow
        · rename_i hk
          exact ⟨job.key, hkey job rfl, hk.symm⟩
        · exact nomatch hrow
      | _ => exact nomatch hrow

end JobTable

/-! ## What a row asks for -/

namespace JobRow

open Workers

/-- A row says one job only. -/
theorem Says.job_unique {r : JobRow} {i j : Job} (hi : r.Says i) (hj : r.Says j) : i = j :=
  Except.ok.inj ((job_eq_ok_iff.2 hi).symm.trans (job_eq_ok_iff.2 hj))

/-- A row that covers a request runs, is the one of an upload that waits, or is a tombstone. -/
theorem Says.of_covers {r : JobRow} {j : Job} (h : r.Says j) (hc : Covers j) :
    r.state = JobState.running.name ∨ (j.key.isUpload = true ∧ (r.Waits ∨ r.IsTombstone)) := by
  have hstate : ∀ s, j.state = s → r.state = s.name := fun s hs => h.state.trans (congrArg JobState.name hs)
  rcases hc with hs | ⟨hu, hs | hs⟩ | ⟨hs, hu, hreason⟩
  · exact .inl (hstate _ hs)
  · exact .inr ⟨hu, .inl (.inl (hstate _ hs))⟩
  · exact .inr ⟨hu, .inl (.inr (hstate _ hs))⟩
  · refine .inr ⟨hu, .inr ⟨hstate _ hs, ?_⟩⟩
    rw [h.abandonReason, hreason]
    rfl

/-- A row that gives way to an upload neither waits nor is a tombstone. -/
theorem Says.of_givesWay {r : JobRow} {j : Job} (h : r.Says j) (hu : j.key.isUpload = true)
    (hg : GivesWay j) :
    ¬ r.Waits ∧ ¬ r.IsTombstone := by
  have hstate : ∀ s, r.state = s.name → j.state = s :=
    fun s hs => JobState.name_injective (h.state.symm.trans hs)
  have hover : j.state = .succeeded ∨
    (j.state = .abandoned ∧ ¬ (j.key.isUpload = true ∧ j.abandonReason = some .permanent)) := by
    rcases hg with ⟨hk, _⟩ | hg
    · rw [isUpload_eq_not, hk] at hu
      exact nomatch hu
    · exact hg
  constructor
  · rintro (hw | hw)
    · rw [hstate .queued hw] at hover
      rcases hover with hs | ⟨hs, _⟩ <;> exact nomatch hs
    · rw [hstate .retrying hw] at hover
      rcases hover with hs | ⟨hs, _⟩ <;> exact nomatch hs
  · rintro ⟨hs, hreason⟩
    have hj := AbandonReason.map_name_injective (b := some .permanent) (h.abandonReason.symm.trans hreason)
    rw [hstate .abandoned hs] at hover
    rcases hover with hs' | ⟨_, hno⟩
    · exact nomatch hs'
    · exact hno ⟨hu, hj⟩

end JobRow

end MediaBackup
