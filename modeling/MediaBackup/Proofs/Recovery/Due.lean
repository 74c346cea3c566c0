import MediaBackup.Proofs.Recovery.Queue

/-
  The upkeep of the queue and the jobs that are due, in a world in which nothing fails.

  If every job that waits is due (`Scene.Timely`), promoting leaves no job that waits for another attempt, and the jobs
  that are due are those that are queued: one for each such row, housekeeping first.
-/

namespace MediaBackup

namespace Instant

theorem millis_mono {t u : Instant} (h : t.nanos ≤ u.nanos) : t.millis ≤ u.millis := by
  unfold millis
  omega

end Instant

namespace Scene

open Script Workers

/-- Every job that waits is due. -/
def Timely (s : Scene) : Prop :=
  ∀ k r, s.jobs.at? k = some r → r.Waits → ∃ m, r.nextRunAt = .int m ∧ m ≤ s.clock.millis

variable {ids : List String} {s t : Scene} {bad : Stop → Scene → Prop}

theorem Timely.le (h : s.Timely) {k : JobKey} {r : JobRow} (hr : s.jobs.at? k = some r)
    (hw : r.Waits) {c : Instant}
    (hc : s.clock.nanos ≤ c.nanos) : r.nextRunAt.le c.cell = true := by
  obtain ⟨m, hm, hle⟩ := h k r hr hw
  rw [hm]
  exact Cell.le_int.2 (Int.le_trans hle (Instant.millis_mono hc))

/-! ## Upkeep -/

/-- Recovering queues every job that was left running, due at once. -/
theorem meets_recover (h : s.Fit) {good : Nat → Scene → Prop}
    (hdone : ∀ n t, Later s t → t.jobs.Legible →
      (∀ k, t.jobs.at? k = (s.jobs.at? k).map fun r =>
        if r.state == "running" then r.reset t.clock else r) → good n t) :
    Meets (alone ids) good bad Queue.recover s := by
  unfold Queue.recover
  rw [meets_bind, meets_now]
  intro c hdate hle
  refine meets_jobs.2
    (hdone _ _ ⟨rfl, hle, hdate⟩ ?_ fun k => JobTable.row?_run h.jobs.keyed (.resetRunning c) k.text)
  exact h.jobs.run hdate fun job he => (nomatch he)

/-- Promoting queues every job whose wait is over. -/
theorem meets_promote (h : s.Fit) {good : Nat → Scene → Prop}
    (hdone : ∀ n t, Later s t → t.jobs.Legible →
      (∀ k, t.jobs.at? k = (s.jobs.at? k).map fun r =>
        if r.isPromotable t.clock then r.promoted t.clock else r) → good n t) :
    Meets (alone ids) good bad Queue.promote s := by
  unfold Queue.promote
  rw [meets_bind, meets_now]
  intro c hdate hle
  refine meets_jobs.2
    (hdone _ _ ⟨rfl, hle, hdate⟩ ?_ fun k => JobTable.row?_run h.jobs.keyed (.promote c) k.text)
  exact h.jobs.run hdate fun job he => (nomatch he)

/-! ## Jobs that are due -/

/-- The jobs that are due: one for each row that is queued, housekeeping first. -/
structure Lists (t : JobTable) (jobs : List Job) : Prop where
  arranged : Arranged jobs
  nodup : (jobs.map Job.key).Nodup
  copies : ∀ j ∈ jobs, j.state = .queued ∧ ∃ r, t.at? j.key = some r ∧ r.Says j
  complete : ∀ k r, t.at? k = some r → r.state = JobState.queued.name → ∃ j ∈ jobs, j.key = k

/-- Rows that say jobs are seen as these jobs. -/
theorem exists_jobs {rows : List JobRow} (h : ∀ r ∈ rows, ∃ j, r.Says j) :
    ∃ jobs : List Job, rows.map JobRow.decode = jobs.map Decoded.valid ∧
      jobs.map (fun j => j.key.text) = rows.map JobRow.key ∧ (∀ j ∈ jobs, ∃ r ∈ rows, r.Says j) ∧
      ∀ r ∈ rows, ∃ j ∈ jobs, r.Says j := by
  induction rows with
  | nil => exact ⟨[], rfl, rfl, fun _ hj => absurd hj List.not_mem_nil,
      fun _ hr => absurd hr List.not_mem_nil⟩
  | cons r rows ih =>
    obtain ⟨j, hj⟩ := h r List.mem_cons_self
    obtain ⟨jobs, hmap, htext, hjob, hrow⟩ := ih fun q hq => h q (List.mem_cons_of_mem _ hq)
    refine ⟨j :: jobs, ?_, ?_, fun i hi => ?_, fun q hq => ?_⟩
    · rw [List.map_cons, List.map_cons, hmap, JobRow.decode_eq_valid_iff.2 hj]
    · rw [List.map_cons, List.map_cons, htext, hj.key]
    · rcases List.mem_cons.1 hi with rfl | hi
      · exact ⟨r, List.mem_cons_self, hj⟩
      · obtain ⟨q, hq, hi⟩ := hjob i hi
        exact ⟨q, List.mem_cons_of_mem _ hq, hi⟩
    · rcases List.mem_cons.1 hq with rfl | hq
      · exact ⟨j, List.mem_cons_self, hj⟩
      · obtain ⟨i, hi, hq⟩ := hrow q hq
        exact ⟨i, List.mem_cons_of_mem _ hi, hq⟩

/-- No row is given up where all say jobs. -/
theorem sift_valid (jobs : List Job) (d : DueJobs) :
    Queue.sift (jobs.map Decoded.valid) d = pure { d with jobs := d.jobs ++ jobs } := by
  induction jobs generalizing d with
  | nil =>
    rw [List.append_nil]
    rfl
  | cons j jobs ih =>
    show Queue.sift (jobs.map Decoded.valid) { d with jobs := d.jobs ++ [j] } = _
    rw [ih, List.append_assoc]
    rfl

theorem lists_arrange {t : JobTable} (ht : t.Legible) {p : JobRow → Bool} {rows : List JobRow}
    (hrows : rows.Perm (t.filter p)) (hp : ∀ r ∈ t, p r = true ↔ r.state = JobState.queued.name)
    {jobs : List Job}
    (htext : jobs.map (fun j => j.key.text) = rows.map JobRow.key) (hjob : ∀ j ∈ jobs, ∃ r ∈ rows, r.Says j)
    (hrow : ∀ r ∈ rows, ∃ j ∈ jobs, r.Says j) : Lists t (DueJobs.arrange ⟨jobs, 0⟩).jobs := by
  have hmem : ∀ {r}, r ∈ rows ↔ r ∈ t ∧ r.state = JobState.queued.name := by
    intro r
    rw [hrows.mem_iff, List.mem_filter]
    exact and_congr_right fun hr => hp r hr
  have hperm : (DueJobs.arrange ⟨jobs, 0⟩).jobs.Perm jobs := List.filter_append_perm _ jobs
  refine ⟨arranged_arrange fun j hj => ?_, (hperm.map Job.key).nodup_iff.2 ?_, ?_, ?_⟩
  · obtain ⟨r, _, hr⟩ := hjob j hj
    exact ⟨hr.isProper_job, hr.isProper⟩
  · -- the texts of the keys are the keys of rows, of which no two are the same
    have hkeys : (rows.map JobRow.key).Nodup := by
      rw [(hrows.map JobRow.key).nodup_iff]
      exact Rows.keyed_filter ht.keyed p
    rw [← htext] at hkeys
    exact List.pairwise_map.2 ((List.pairwise_map.1 hkeys).imp fun hne e => hne (congrArg JobKey.text e))
  · intro j hj
    obtain ⟨r, hr, hsay⟩ := hjob j (hperm.mem_iff.1 hj)
    obtain ⟨hrt, hstate⟩ := hmem.1 hr
    obtain ⟨j', hj', hat⟩ := ht.says hrt
    obtain rfl := hsay.job_unique hj'
    exact ⟨JobState.name_injective (hsay.state.symm.trans hstate), r, hat, hsay⟩
  · intro k r hr hstate
    obtain ⟨j, hj, hsay⟩ := hrow r (hmem.2 ⟨JobTable.mem_of_row? hr, hstate⟩)
    obtain ⟨j', hj', hk⟩ := ht.says_at hr
    obtain rfl := hsay.job_unique hj'
    exact ⟨j, hperm.mem_iff.2 hj, hk⟩

/-- Where every job that waits is due, the jobs that are due are those that are queued. -/
theorem meets_due (h : s.Fit) (htimely : s.Timely) {good : DueJobs → Scene → Prop}
    (hdone : ∀ d t, Later s t → t.jobs = s.jobs → Lists s.jobs d.jobs → good d t) :
    Meets (alone ids) good bad Queue.due s := by
  unfold Queue.due
  rw [meets_bind, meets_now]
  intro c hdate hle
  rw [meets_bind, meets_jobs]
  dsimp only
  let rows := (s.jobs.filter (·.isDue c)).mergeSort JobRow.dueBefore
  have hperm : rows.Perm (s.jobs.filter (·.isDue c)) := List.mergeSort_perm _ _
  have hsays : ∀ r ∈ rows, ∃ j, r.Says j := by
    intro r hr
    obtain ⟨j, hj, _⟩ := h.jobs.says (List.mem_filter.1 (hperm.mem_iff.1 hr)).1
    exact ⟨j, hj⟩
  obtain ⟨jobs, hmap, htext, hjob, hrow⟩ := exists_jobs hsays
  show Meets (alone ids) good bad (DueJobs.arrange <$> Queue.sift (rows.map JobRow.decode) ⟨[], 0⟩) _
  rw [hmap, sift_valid, meets_map]
  refine hdone _ _ ⟨rfl, hle, hdate⟩ rfl (lists_arrange h.jobs hperm (fun r hr => ?_) htext hjob hrow)
  obtain ⟨j, hj, hat⟩ := h.jobs.says hr
  unfold JobRow.isDue
  have hknown : ["queued", "running", "retrying", "succeeded", "abandoned"].contains r.state = true := by
    have hstorable := hj.isStorable
    rw [hj.state]
    cases hs : j.state with
    | failed => exact absurd hs hstorable
    | _ => decide
  rw [hknown, Bool.not_true, Bool.or_false, Bool.and_eq_true, beq_iff_eq]
  exact ⟨fun hd => hd.1, fun hq => ⟨hq, htimely.le hat (.inl hq) hle⟩⟩

end Scene

end MediaBackup
