import MediaBackup.Proofs.Store.Table

/-
  Writing a job and reading it back.

  Two statements write the row of a whole job, one where its key has no row and one in the place of a row
  that was observed; a third reads it.  `JobTable.Keeps` says of a table what the three of them come to: the
  write goes through wherever its guard holds, and after it the key is found to hold a given job.  The crux
  is `keeps_of_says`: all of this follows from what the ROW of the job says, so that the columns are looked
  at in `JobRow.ofJob_says` only.

  A table keeps a job as its row keeps it (`JobRow.stored`, the dates down to their millisecond), and a job
  that was read from a row just as it is (`stored_of_says`).
-/

namespace MediaBackup

namespace JobTable

/-- Writing `job` goes through wherever its guard holds, and its key is found to hold `found` after it. -/
structure Keeps (t : JobTable) (job found : Job) : Prop where
  /-- A key without a row gets the one of the job. -/
  inserts : t.row? job.key.text = none → ((JobStatement.insertIfAbsent job).run t).1 = true
  inserted : ((JobStatement.insertIfAbsent job).run t).1 = true →
    ((JobStatement.find job.key.text).run ((JobStatement.insertIfAbsent job).run t).2).1 = some (.valid found)
  /-- The row that was read gives way. -/
  replaces : ∀ row observed, t.row? job.key.text = some row → row.decode = .valid observed →
    ((JobStatement.replaceIf job observed).run t).1 = true
  replaced : ∀ observed, ((JobStatement.replaceIf job observed).run t).1 = true →
    ((JobStatement.find job.key.text).run ((JobStatement.replaceIf job observed).run t).2).1 =
      some (.valid found)

variable {t : JobTable} {job found : Job}

/-- A key is found to hold what its row says. -/
theorem find_of_says {row : JobRow} (hrow : t.row? job.key.text = some row) (h : row.Says found) :
    ((JobStatement.find job.key.text).run t).1 = some (.valid found) := by
  show (t.row? job.key.text).map JobRow.decode = some (.valid found)
  rw [hrow, Option.map_some, JobRow.decode_eq_valid_iff.2 h]

/-- An insertion that went through left the row of the job under its key. -/
theorem row?_of_inserted (ht : t.Keyed) (h : ((JobStatement.insertIfAbsent job).run t).1 = true) :
    ((JobStatement.insertIfAbsent job).run t).2.row? job.key.text = some (JobRow.ofJob job) := by
  have hnone : t.row? job.key.text = none := by
    rw [answer_insertIfAbsent] at h
    exact Option.isNone_iff_eq_none.1 h
  rw [row?_run ht, hnone]
  show (none : Option JobRow).or (if job.key.text = job.key.text then some (JobRow.ofJob job) else none) = _
  rw [if_pos rfl, Option.none_or]

/-- So did a replacement that went through. -/
theorem row?_of_replaced (ht : t.Keyed) {observed : Job}
    (h : ((JobStatement.replaceIf job observed).run t).1 = true) :
    ((JobStatement.replaceIf job observed).run t).2.row? job.key.text = some (JobRow.ofJob job) := by
  rw [answer_replaceIf ht, Option.any_eq_true] at h
  obtain ⟨row, hrow, hobserved⟩ := h
  rw [row?_run ht, hrow]
  show some (if row.isObserved { observed with key := job.key } then JobRow.ofJob job else row) = _
  rw [if_pos hobserved]

/-- A table keeps what the row of the job says. -/
theorem keeps_of_says (ht : t.Keyed) (h : (JobRow.ofJob job).Says found) : t.Keeps job found where
  inserts := by
    intro hnone
    rw [answer_insertIfAbsent, hnone]
    rfl
  inserted := fun hinsert => find_of_says (row?_of_inserted ht hinsert) h
  replaces := by
    intro row observed hrow hdecode
    have hread := JobRow.decode_eq_valid_iff.1 hdecode
    -- the copy has the key of the row, so putting the key of the job in its place changes nothing
    have hkey : observed.key = job.key := JobKey.text_injective (hread.key.symm.trans (key_of_row? hrow))
    have hcopy : ({ observed with key := job.key } : Job) = observed := by rw [← hkey]
    rw [answer_replaceIf ht, hrow, hcopy]
    exact hread.isObserved
  replaced := fun _ hreplace => find_of_says (row?_of_replaced ht hreplace) h

end JobTable

/-- What was read from a row loses nothing when it is written again. -/
theorem JobRow.stored_of_says {row : JobRow} {job : Job} (h : row.Says job) : stored job = job := by
  show ({ job with
    nextRunAt := job.nextRunAt.floor, createdAt := job.createdAt.floor
    updatedAt := job.updatedAt.floor } : Job) = job
  rw [h.nextRunAt.floor_eq, h.createdAt.floor_eq, h.updatedAt.floor_eq]

/-- Every job with a proper key is kept, its dates down to their millisecond; and a job that was read from a
    row is kept as it was read. -/
theorem JobTable.keeps_jobs {t : JobTable} (ht : t.Keyed) :
    (∀ job : Job, job.IsProper → job.key.IsProper → t.Keeps job (JobRow.stored job)) ∧
      ∀ (row : JobRow) (job : Job), row.decode = .valid job → t.Keeps job job := by
  have hproper : ∀ job : Job, job.IsProper → job.key.IsProper → t.Keeps job (JobRow.stored job) :=
    fun job hj hk => keeps_of_says ht (JobRow.ofJob_says hj hk)
  refine ⟨hproper, fun row job hdecode => ?_⟩
  have hread := JobRow.decode_eq_valid_iff.1 hdecode
  have hkept := hproper job hread.isProper_job hread.isProper
  rwa [JobRow.stored_of_says hread] at hkept

/-! ## A job from before 1970 -/

/-- An upload given up at the greatest count of attempts, due a nanosecond before 1970. -/
def Job.beforeEpoch : Job where
  key := .upload "a"
  state := .abandoned
  attempt := 4294967295
  constraints := .unmetered
  nextRunAt := ⟨-1⟩
  lastError := some "network: reset"
  abandonReason := some .exhausted
  createdAt := ⟨-1000001⟩
  updatedAt := ⟨1999999⟩

theorem JobTable.keeps_jobs_before_epoch :
    JobTable.Keyed [JobRow.ofJob .beforeEpoch] ∧
      JobTable.Keeps [JobRow.ofJob .beforeEpoch] .beforeEpoch
        { Job.beforeEpoch with nextRunAt := ⟨-1000000⟩, createdAt := ⟨-2000000⟩, updatedAt := ⟨1000000⟩ } := by
  have hkeyed : JobTable.Keyed [JobRow.ofJob .beforeEpoch] := List.pairwise_singleton _ _
  have hjob : Job.beforeEpoch.IsProper := ⟨by decide, by decide, by decide, by decide, by decide⟩
  exact ⟨hkeyed, (JobTable.keeps_jobs hkeyed).1 _ hjob (by decide)⟩

end MediaBackup
