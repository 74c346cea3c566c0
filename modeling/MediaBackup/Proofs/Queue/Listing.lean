import Mathlib.Data.List.Sort
import MediaBackup.Proofs.Queue.Gathering
import MediaBackup.Proofs.Queue.Solo
import MediaBackup.Proofs.Store.Order
import MediaBackup.Proofs.Text.Order

/-
  What is handed out as due.

  A row is TAKEN if it is queued and the cell of its next run is a number up to the time, or if its state is none that
  a row can hold.  The taken rows that hold a job are handed out: they wait in the queue and their time has come.  The
  others are SPOILED: each is given up with one report.  All other rows stay (`HandedOut`).

  What is handed out is in a strict order, so it is told by its members (`HandedOut.jobs_eq`).  So spoiled rows make no
  difference to it, and since a row that was given up is not taken again, handing out a second time gives the same.
-/

namespace MediaBackup

open Script

/-! ## The rows that are taken -/

/-- Housekeeping comes before uploads.  Of jobs of one kind the one whose time comes earlier is first, and if it is
    the same millisecond the one whose key has the smaller bytes. -/
def Job.ComesBefore (i j : Job) : Prop :=
  i.key.isHousekeeping = true ∧ j.key.isHousekeeping = false ∨
    i.key.isHousekeeping = j.key.isHousekeeping ∧
      (i.nextRunAt.millis < j.nextRunAt.millis ∨
        i.nextRunAt.millis = j.nextRunAt.millis ∧ Text.encode i.key.text.toList < Text.encode j.key.text.toList)

theorem Job.ComesBefore.asymm {i j : Job} (h : i.ComesBefore j) : ¬j.ComesBefore i := by
  rintro (⟨hj, hi⟩ | ⟨hkind, hback⟩)
  · rcases h with ⟨hi', -⟩ | ⟨hsame, -⟩
    · exact nomatch hi.symm.trans hi'
    · exact nomatch (hi.symm.trans hsame).trans hj
  · rcases h with ⟨hi, hj⟩ | ⟨-, hlt | ⟨hsame, hlt⟩⟩
    · exact nomatch (hj.symm.trans hkind).trans hi
    · omega
    · rcases hback with hgt | ⟨-, hgt⟩
      · omega
      · exact List.lt_asymm hlt hgt

instance : Std.Irrefl Job.ComesBefore := ⟨fun _ h => h.asymm h⟩

instance : Std.Antisymm Job.ComesBefore := ⟨fun _ _ h h' => absurd h' h.asymm⟩

namespace JobRow

variable {row : JobRow} {now : Instant}

/-- The row is queued and its next run is a number up to the time, or its state is none that a row can hold. -/
def IsTaken (row : JobRow) (now : Instant) : Prop :=
  row.state = "queued" ∧ row.nextRunAt.IsAtMost now.millis ∨ ∀ s : JobState, s ≠ .failed → row.state ≠ s.name

/-- The row is taken and holds no job. -/
def IsSpoiled (row : JobRow) (now : Instant) : Prop := row.IsTaken now ∧ ∀ j, ¬row.Says j

theorem isDue_iff (hdate : now.IsDate) : row.isDue now = true ↔ row.IsTaken now := by
  have hknown : (["queued", "running", "retrying", "succeeded", "abandoned"].contains row.state = true) ↔
      ∃ s : JobState, s ≠ .failed ∧ row.state = s.name := by
    rw [List.contains_iff_mem]
    constructor
    · intro hmem
      simp only [List.mem_cons, List.not_mem_nil, or_false] at hmem
      rcases hmem with h | h | h | h | h
      · exact ⟨.queued, JobState.noConfusion, h⟩
      · exact ⟨.running, JobState.noConfusion, h⟩
      · exact ⟨.retrying, JobState.noConfusion, h⟩
      · exact ⟨.succeeded, JobState.noConfusion, h⟩
      · exact ⟨.abandoned, JobState.noConfusion, h⟩
    · rintro ⟨s, hs, h⟩
      rw [h]
      cases s <;> first | exact absurd rfl hs | decide
  unfold isDue IsTaken
  rw [Bool.or_eq_true, Bool.and_eq_true, beq_iff_eq, Cell.le_cell_iff hdate, Bool.not_eq_true', ← Bool.not_eq_true, hknown]
  refine or_congr_right ⟨fun h s hs e => h ⟨s, hs, e⟩, fun h => ?_⟩
  rintro ⟨s, hs, e⟩
  exact h s hs e

theorem isTaken_congr {again : Instant} (h : again.millis = now.millis) : row.IsTaken again = row.IsTaken now := by
  unfold IsTaken
  rw [h]

/-- Of the rows that hold a job those are taken whose job waits in the queue and whose time has come. -/
theorem Says.isTaken_iff {j : Job} (h : row.Says j) :
    row.IsTaken now ↔ j.state = .queued ∧ j.nextRunAt.millis ≤ now.millis := by
  unfold IsTaken
  rw [h.nextRunAt.eq_cell, h.state]
  constructor
  · rintro (⟨hqueued, hle⟩ | hunknown)
    · exact ⟨JobState.name_injective hqueued, hle⟩
    · exact absurd rfl (hunknown _ h.isStorable)
  · rintro ⟨hqueued, hle⟩
    exact .inl ⟨congrArg _ hqueued, hle⟩

/-- What was given up is not taken. -/
theorem not_isTaken_quarantined (row : JobRow) (words : String) (at' : Instant) :
    ¬(row.quarantined words at').IsTaken now := by
  rintro (⟨hqueued, -⟩ | hunknown)
  · exact absurd (show "abandoned" = "queued" from hqueued) (by decide)
  · exact hunknown .abandoned JobState.noConfusion rfl

/-- What is wrong with a row that holds no job. -/
theorem exists_decode (h : ∀ j, ¬row.Says j) : ∃ reason, row.decode = .corrupt row.key reason := by
  cases hdecode : row.decode with
  | valid j => exact absurd (decode_eq_valid_iff.mp hdecode) (h j)
  | corrupt key reason => exact ⟨reason, by rw [key_of_decode hdecode]⟩

theorem isOk_job_iff : row.job.isOk = true ↔ ∃ j, row.Says j := by
  cases hjob : row.job with
  | ok j => exact iff_of_true rfl ⟨j, job_eq_ok_iff.mp hjob⟩
  | error reason =>
    refine iff_of_false Bool.false_ne_true fun ⟨j, hj⟩ => ?_
    exact nomatch hjob.symm.trans (job_eq_ok_iff.mpr hj)

theorem not_says_of_decode {key : String} {reason : RowFault} (h : row.decode = .corrupt key reason) (j : Job) :
    ¬row.Says j := by
  intro hj
  rw [decode_eq_valid_iff.mpr hj] at h
  exact nomatch h

/-- The jobs of rows with different keys come in the order of the rows. -/
theorem millis_of_dueBefore {other : JobRow} {i j : Job} (h : dueBefore row other = true) (hne : row.key ≠ other.key)
    (hi : row.Says i) (hj : other.Says j) : i.nextRunAt.millis < j.nextRunAt.millis ∨
      i.nextRunAt.millis = j.nextRunAt.millis ∧ Text.encode i.key.text.toList < Text.encode j.key.text.toList := by
  unfold dueBefore at h
  rw [hi.nextRunAt.eq_cell, hj.nextRunAt.eq_cell, Instant.cell, Instant.cell, Cell.order_int] at h
  rcases Int.lt_trichotomy i.nextRunAt.millis j.nextRunAt.millis with hlt | heq | hgt
  · exact .inl hlt
  · rw [Int.compare_eq_eq.mpr heq] at h
    have hkeys : row.key < other.key := lt_of_le_of_ne (of_decide_eq_true h) hne
    rw [hi.key, hj.key] at hkeys
    exact .inr ⟨heq, Text.encode_lt (String.lt_iff.mp hkeys)⟩
  · rw [Int.compare_eq_gt.mpr hgt] at h
    exact nomatch h

end JobRow

/-! ## What is handed out -/

namespace Desk

variable {s t u : Desk} {now again : Instant} {d e : DueJobs}

/-- What is left when the jobs that are due at an instant were handed out. -/
structure HandedOut (now : Instant) (d : DueJobs) (s t : Desk) : Prop where
  /-- The jobs that wait in the queue and whose time has come, -/
  jobs : ∀ j, j ∈ d.jobs ↔ j.state = .queued ∧ j.nextRunAt.millis ≤ now.millis ∧ ∃ row ∈ s.jobs, row.Says j
  /-- each once, and in their order. -/
  order : d.jobs.Pairwise Job.ComesBefore
  /-- Each spoiled row is reported once, -/
  reports : ∃ reports, t.told = reports ++ s.told ∧ reports.length = d.quarantined ∧ reports.Nodup ∧
    ∀ e, e ∈ reports ↔ ∃ row ∈ s.jobs, row.IsSpoiled now ∧
      ∃ reason, row.decode = .corrupt row.key reason ∧ e = .ledgerCorrupted row.key reason.message
  /-- and given up, -/
  givenUp : ∀ row ∈ s.jobs, row.IsSpoiled now → ∃ reason, ∃ at' : Instant, row.decode = .corrupt row.key reason ∧
    at'.IsDate ∧ t.jobs.row? row.key = some (row.quarantined reason.message at')
  /-- and every other row is as it was. -/
  spared : ∀ key, (∀ row ∈ s.jobs, row.IsSpoiled now → row.key ≠ key) → t.jobs.row? key = s.jobs.row? key
  keyed : t.jobs.Keyed

/-- The jobs of rows in the order of due rows, no two with one key, come in the order of jobs once housekeeping is
    moved to the front. -/
theorem pairwise_arrange {rows : List JobRow} {given : Nat}
    (hrows : rows.Pairwise fun r r' => JobRow.dueBefore r r' = true ∧ r.key ≠ r'.key) :
    (DueJobs.arrange ⟨Gating.validJobs (rows.map JobRow.decode), given⟩).jobs.Pairwise Job.ComesBefore := by
  have hjobs : (Gating.validJobs (rows.map JobRow.decode)).Pairwise fun i j =>
      i.nextRunAt.millis < j.nextRunAt.millis ∨ i.nextRunAt.millis = j.nextRunAt.millis ∧
        Text.encode i.key.text.toList < Text.encode j.key.text.toList := by
    unfold Gating.validJobs
    rw [List.pairwise_filterMap, List.pairwise_map]
    refine hrows.imp fun hbefore i hi j hj => ?_
    split at hi
    case h_2 => exact nomatch hi
    split at hj
    case h_2 => exact nomatch hj
    rename_i i' hi' _ j' hj'
    obtain rfl := Option.some.inj hi
    obtain rfl := Option.some.inj hj
    exact JobRow.millis_of_dueBefore hbefore.1 hbefore.2 (JobRow.decode_eq_valid_iff.mp hi')
      (JobRow.decode_eq_valid_iff.mp hj')
  unfold DueJobs.arrange
  rw [List.pairwise_append]
  refine ⟨?_, ?_, fun i hi j hj => .inl ?_⟩
  · refine (hjobs.sublist List.filter_sublist).imp_of_mem fun hi hj hlt => .inr ⟨?_, hlt⟩
    rw [(List.mem_filter.mp hi).2, (List.mem_filter.mp hj).2]
  · refine (hjobs.sublist List.filter_sublist).imp_of_mem fun hi hj hlt => .inr ⟨?_, hlt⟩
    have hi := (List.mem_filter.mp hi).2
    have hj := (List.mem_filter.mp hj).2
    rw [Bool.not_eq_true'] at hi hj
    rw [hi, hj]
  · exact ⟨(List.mem_filter.mp hi).2, Bool.not_eq_true' _ ▸ (List.mem_filter.mp hj).2⟩

/-- The rows that are found due, in their order. -/
theorem pairwise_mergeSort_due (hk : s.jobs.Keyed) (now : Instant) :
    ((s.jobs.filter (·.isDue now)).mergeSort JobRow.dueBefore).Pairwise fun r r' =>
      JobRow.dueBefore r r' = true ∧ r.key ≠ r'.key := by
  refine (List.pairwise_mergeSort ?_ ?_ _).and (List.pairwise_map.mp (JobTable.keyed_sorted hk _ _))
  · intro a b c hab hbc
    exact JobRow.dueBefore_iff.mpr ((JobRow.dueBefore_iff.mp hab).trans (JobRow.dueBefore_iff.mp hbc))
  · intro a b
    rw [Bool.or_eq_true, JobRow.dueBefore_iff, JobRow.dueBefore_iff]
    exact le_total _ _

/-- A row is seen as corrupt when the jobs are listed exactly if it is spoiled. -/
theorem corrupt_mem_listDue_iff {key : String} {reason : RowFault} (hdate : now.IsDate) :
    .corrupt key reason ∈ ((JobStatement.listDue now).run s.jobs).1 ↔
      ∃ row ∈ s.jobs, row.IsSpoiled now ∧ row.key = key ∧ row.decode = .corrupt key reason := by
  constructor
  · intro h
    obtain ⟨row, hrow, hdue, hdecode⟩ := Gating.exists_row_of_listDue h
    refine ⟨row, hrow, ⟨(JobRow.isDue_iff hdate).mp hdue, JobRow.not_says_of_decode hdecode⟩, ?_, hdecode⟩
    exact (JobRow.key_of_decode hdecode).symm
  · rintro ⟨row, hrow, ⟨htaken, -⟩, -, hdecode⟩
    refine List.mem_map.mpr ⟨row, List.mem_mergeSort.mpr (List.mem_filter.mpr ⟨hrow, ?_⟩), hdecode⟩
    exact (JobRow.isDue_iff hdate).mpr htaken

theorem valid_mem_listDue_iff {j : Job} (hdate : now.IsDate) :
    .valid j ∈ ((JobStatement.listDue now).run s.jobs).1 ↔
      j.state = .queued ∧ j.nextRunAt.millis ≤ now.millis ∧ ∃ row ∈ s.jobs, row.Says j := by
  constructor
  · intro h
    obtain ⟨row, hrow, hdue, hdecode⟩ := Gating.exists_row_of_listDue h
    have hsaid := JobRow.decode_eq_valid_iff.mp hdecode
    obtain ⟨hqueued, hle⟩ := hsaid.isTaken_iff.mp ((JobRow.isDue_iff hdate).mp hdue)
    exact ⟨hqueued, hle, row, hrow, hsaid⟩
  · rintro ⟨hqueued, hle, row, hrow, hsaid⟩
    refine List.mem_map.mpr ⟨row, List.mem_mergeSort.mpr (List.mem_filter.mpr ⟨hrow, ?_⟩),
      JobRow.decode_eq_valid_iff.mpr hsaid⟩
    exact (JobRow.isDue_iff hdate).mpr (hsaid.isTaken_iff.mpr ⟨hqueued, hle⟩)

/-- What is told when the jobs are listed. -/
theorem mem_reports_iff {e : SyncEvent} (hdate : now.IsDate) :
    e ∈ ((JobStatement.listDue now).run s.jobs).1.filterMap Decoded.report? ↔
      ∃ row ∈ s.jobs, row.IsSpoiled now ∧
        ∃ reason, row.decode = .corrupt row.key reason ∧ e = .ledgerCorrupted row.key reason.message := by
  rw [List.mem_filterMap]
  constructor
  · rintro ⟨found, hfound, hreport⟩
    cases found with
    | valid j => exact nomatch hreport
    | corrupt key reason =>
      obtain ⟨row, hrow, hspoiled, rfl, hdecode⟩ := (corrupt_mem_listDue_iff hdate).mp hfound
      exact ⟨row, hrow, hspoiled, reason, hdecode, (Option.some.inj hreport).symm⟩
  · rintro ⟨row, hrow, hspoiled, reason, hdecode, rfl⟩
    exact ⟨_, (corrupt_mem_listDue_iff hdate).mpr ⟨row, hrow, hspoiled, rfl, hdecode⟩, rfl⟩

theorem nodup_reports {rows : List Decoded} (h : (Workers.corruptKeys rows).Nodup) :
    (rows.filterMap Decoded.report?).Nodup := by
  unfold Workers.corruptKeys at h
  rw [List.nodup_iff_pairwise_ne, List.pairwise_filterMap] at h ⊢
  refine h.imp fun {a a'} hne e he e' he' heq => ?_
  cases a with
  | valid j => exact nomatch he
  | corrupt key reason =>
    cases a' with
    | valid j => exact nomatch he'
    | corrupt key' reason' =>
      obtain ⟨hkey, -⟩ := SyncEvent.ledgerCorrupted.inj (Option.some.inj ((he.trans (congrArg some heq)).trans he'.symm))
      exact hne key rfl key' rfl hkey

theorem meets_due (hk : s.jobs.Keyed) {good : DueJobs → Desk → Prop} {bad : Stop → Desk → Prop}
    (h : ∀ now d t, now.IsDate → (∃ later, t.shown = later ++ now :: s.shown) → HandedOut now d s t → good d t) :
    Meets alone good bad Queue.due s := by
  unfold Queue.due
  rw [meets_bind]
  refine meets_now fun now hdate => ?_
  rw [meets_bind]
  refine meets_jobs ?_
  rw [meets_map]
  have hlisted : (Desk.mk s.jobs (now :: s.shown) s.told).jobs.Keyed := hk
  refine meets_sift hlisted (Workers.nodup_corruptKeys hk _ _) _ fun given t ht => ?_
  refine h now _ t hdate ht.shown ⟨fun j => ?_, ?_, ?_, ?_, ?_, ht.keyed⟩
  · exact (Gating.arrange_perm _).mem_iff.trans (Gating.mem_validJobs.trans (valid_mem_listDue_iff hdate))
  · exact pairwise_arrange (pairwise_mergeSort_due hk now)
  · refine ⟨_, ht.told, ?_, ?_, fun e => List.mem_reverse.trans (mem_reports_iff hdate)⟩
    · rw [List.length_reverse, ← ht.count]
      exact (Nat.zero_add given).symm
    · exact (List.reverse_perm _).nodup_iff.mpr (nodup_reports (Workers.nodup_corruptKeys hk _ _))
  · intro row hrow hspoiled
    obtain ⟨reason, hdecode⟩ := JobRow.exists_decode hspoiled.2
    have hmem := (corrupt_mem_listDue_iff hdate).mpr ⟨row, hrow, hspoiled, rfl, hdecode⟩
    obtain ⟨at', hat, hgiven⟩ := ht.givenUp _ reason row hmem (JobTable.row?_of_mem hk hrow)
    exact ⟨reason, at', hdecode, hat, hgiven⟩
  · intro key hspared
    refine ht.spared key fun reason hmem => ?_
    obtain ⟨row, hrow, hspoiled, hkey, -⟩ := (corrupt_mem_listDue_iff hdate).mp hmem
    exact hspared row hrow hspoiled hkey

/-! ## Handing out again, and without the spoiled rows -/

namespace HandedOut

/-- Where the same queued jobs are said, the same jobs are handed out. -/
theorem jobs_eq {s' t' : Desk} (h : HandedOut now d s t) (h' : HandedOut again e s' t')
    (hsame : again.millis = now.millis)
    (hrows : ∀ j : Job, j.state = .queued → ((∃ row ∈ s'.jobs, row.Says j) ↔ ∃ row ∈ s.jobs, row.Says j)) :
    e.jobs = d.jobs := by
  refine h'.order.eq_of_mem_iff h.order fun j => ?_
  rw [h'.jobs, h.jobs, hsame]
  exact and_congr_right fun hqueued => and_congr_right fun _ => hrows j hqueued

/-- Without spoiled rows nothing is given up. -/
theorem of_not_isSpoiled (h : HandedOut now d s t) (hnone : ∀ row ∈ s.jobs, ¬row.IsSpoiled now) :
    d.quarantined = 0 ∧ t.told = s.told ∧ ∀ key, t.jobs.row? key = s.jobs.row? key := by
  obtain ⟨reports, htold, hlength, -, hmem⟩ := h.reports
  have hempty : reports = [] := by
    refine List.eq_nil_iff_forall_not_mem.mpr fun e he => ?_
    obtain ⟨row, hrow, hspoiled, -⟩ := (hmem e).mp he
    exact hnone row hrow hspoiled
  rw [hempty] at htold hlength
  exact ⟨hlength.symm, htold, fun key => h.spared key fun row hrow hspoiled => absurd hspoiled (hnone row hrow)⟩

/-- A row that is left was there and is not spoiled, or was given up. -/
theorem mem_jobs (h : HandedOut now d s t) {row : JobRow} (hrow : row ∈ t.jobs) :
    row ∈ s.jobs ∧ ¬row.IsSpoiled now ∨ ∃ old words, ∃ at' : Instant, row = JobRow.quarantined old words at' := by
  have hleft : t.jobs.row? row.key = some row := JobTable.row?_of_mem h.keyed hrow
  by_cases hgone : ∃ old ∈ s.jobs, old.IsSpoiled now ∧ old.key = row.key
  · obtain ⟨old, hold, hspoiled, hkey⟩ := hgone
    obtain ⟨reason, at', -, -, hgiven⟩ := h.givenUp old hold hspoiled
    rw [hkey, hleft] at hgiven
    exact .inr ⟨old, _, at', Option.some.inj hgiven⟩
  · have hnone : ∀ old ∈ s.jobs, old.IsSpoiled now → old.key ≠ row.key :=
      fun old hold hspoiled hkey => hgone ⟨old, hold, hspoiled, hkey⟩
    rw [h.spared row.key hnone] at hleft
    have hin := JobTable.mem_of_row? hleft
    exact .inl ⟨hin, fun hspoiled => hnone row hin hspoiled rfl⟩

/-- A row that holds a job is left. -/
theorem mem_of_says (h : HandedOut now d s t) (hk : s.jobs.Keyed) {row : JobRow} {j : Job} (hrow : row ∈ s.jobs)
    (hj : row.Says j) : row ∈ t.jobs := by
  have hat : s.jobs.row? row.key = some row := JobTable.row?_of_mem hk hrow
  have hleft : t.jobs.row? row.key = some row := by
    refine (h.spared row.key fun old hold hspoiled hkey => ?_).trans hat
    have hsame := JobTable.row?_of_mem hk hold
    rw [hkey, hat] at hsame
    exact hspoiled.2 j (Option.some.inj hsame ▸ hj)
  exact JobTable.mem_of_row? hleft

/-- Handing out again at the same time gives the same, and gives nothing up. -/
theorem repeats (h : HandedOut now d s t) (hk : s.jobs.Keyed) (h' : HandedOut again e t u)
    (hsame : again.millis = now.millis) :
    e = ⟨d.jobs, 0⟩ ∧ u.told = t.told ∧ ∀ key, u.jobs.row? key = t.jobs.row? key := by
  have hnone : ∀ row ∈ t.jobs, ¬row.IsSpoiled again := by
    rintro row hrow ⟨htaken, hsays⟩
    rcases h.mem_jobs hrow with ⟨-, hsound⟩ | ⟨old, words, at', rfl⟩
    · exact hsound ⟨JobRow.isTaken_congr hsame ▸ htaken, hsays⟩
    · exact JobRow.not_isTaken_quarantined old words at' htaken
  have hjobs : e.jobs = d.jobs := by
    refine h.jobs_eq h' hsame fun j hqueued => ⟨?_, fun ⟨row, hrow, hj⟩ => ⟨row, h.mem_of_says hk hrow hj, hj⟩⟩
    rintro ⟨row, hrow, hj⟩
    rcases h.mem_jobs hrow with ⟨hin, -⟩ | ⟨old, words, at', rfl⟩
    · exact ⟨row, hin, hj⟩
    · have hstate : "abandoned" = JobState.queued.name := hqueued ▸ hj.state
      exact absurd hstate (by decide)
  obtain ⟨hcount, htold, hrows⟩ := h'.of_not_isSpoiled hnone
  exact ⟨by rw [← hjobs, ← hcount], htold, hrows⟩

/-- Without the rows that hold no job the same is handed out. -/
theorem without (h : HandedOut now d s t) {s' : Desk} (hrows : s'.jobs = s.jobs.filter (·.job.isOk))
    (h' : HandedOut again e s' u) (hsame : again.millis = now.millis) : e = ⟨d.jobs, 0⟩ := by
  have hmem : ∀ row, row ∈ s'.jobs ↔ row ∈ s.jobs ∧ ∃ j, row.Says j := by
    intro row
    rw [hrows, List.mem_filter, JobRow.isOk_job_iff]
  have hjobs : e.jobs = d.jobs := by
    refine h.jobs_eq h' hsame fun j _ => exists_congr fun row => ?_
    rw [hmem]
    exact ⟨fun ⟨⟨hrow, _⟩, hj⟩ => ⟨hrow, hj⟩, fun ⟨hrow, hj⟩ => ⟨⟨hrow, j, hj⟩, hj⟩⟩
  have hcount := (h'.of_not_isSpoiled fun row hrow hspoiled => by
    obtain ⟨-, j, hj⟩ := (hmem row).mp hrow
    exact hspoiled.2 j hj).1
  rw [← hjobs, ← hcount]

end HandedOut

/-- There is an answer to every call. -/
theorem exists_goes (s : Desk) (c : Call) : ∃ x t, Goes s c x t := by
  cases c with
  | jobs st => exact ⟨.ok _, _, rfl, rfl⟩
  | items st => exact ⟨.error .closed, _, rfl⟩
  | now => exact ⟨.epoch, _, by decide, rfl⟩
  | emit e => cases e <;> exact ⟨(), _, rfl⟩
  | network => exact ⟨none, _, rfl⟩
  | list => exact ⟨.crashed none, _, rfl⟩
  | openItem id => exact ⟨.crashed none, _, rfl⟩
  | send request body => exact ⟨(0 : Nat), _, rfl⟩
  | await n => exact ⟨.late, _, rfl⟩

/-- The jobs that are due are handed out, whatever is answered, and what then holds: of the instant that the clock
    showed first, and of the table that is left. -/
def HandsOut (s : Desk) (post : Instant → DueJobs → Desk → Prop) : Prop :=
  Comes (Script.Goes Goes) (fun a => ∃ now d, a.1 = .done (.ok d) ∧ (∃ later, a.2.shown = later ++ now :: s.shown) ∧
    post now d a.2) (Queue.due.run, s)

theorem handsOut (hk : s.jobs.Keyed) : s.HandsOut fun now d t => HandedOut now d s t := by
  have hmeets : Meets alone (fun d t => ∃ now, (∃ later, t.shown = later ++ now :: s.shown) ∧ HandedOut now d s t)
      (fun _ _ => False) Queue.due s := meets_due hk fun now d t _ hshown h => ⟨now, hshown, h⟩
  refine (Script.comes_of_keeps exists_goes hmeets).mono ?_
  rintro ⟨p, t⟩ ⟨r, rfl, hend⟩
  cases r with
  | error e => exact hend.elim
  | ok d =>
    obtain ⟨now, hshown, h⟩ := hend
    exact ⟨now, d, rfl, hshown, h⟩

theorem HandsOut.mono {post post' : Instant → DueJobs → Desk → Prop} (h : s.HandsOut post)
    (hpost : ∀ now d t, post now d t → post' now d t) : s.HandsOut post' :=
  Comes.mono h fun _ ⟨now, d, hend, hshown, hd⟩ => ⟨now, d, hend, hshown, hpost now d _ hd⟩

end Desk

end MediaBackup
