import MediaBackup.Proofs.Recovery.Due

/-
  A scene while the main line of a pass looks after it.

  It is TIDY if every job that waits is due, no job runs but the one in hand, none waits for another attempt, and a
  scan or dispatch that waits is as good as fresh.  The main line holds copies of the jobs that it has still to run;
  they are current (`Copies`).  Both are kept by every write that housekeeping makes.
-/

namespace MediaBackup

namespace Scene

variable {s t : Scene} {hand : Option JobKey} {jobs : List Job} {k : JobKey} {r : JobRow}

/-- The job of a key waits. -/
def Waits (s : Scene) (k : JobKey) : Prop := ∃ r, s.jobs.at? k = some r ∧ r.Waits

/-- Every known item is uploaded, or its upload waits or was given up for good. -/
def Covered (s : Scene) : Prop :=
  ∀ id, s.items.Knows id → s.items.Uploaded id ∨ s.Waits (.upload id) ∨ s.Buried id

/-- All items of the library are known. -/
def Known (ids : List String) (s : Scene) : Prop := ∀ id ∈ ids, s.items.Knows id

/-- The scene is tidy while the job in hand runs. -/
structure Tidy (hand : Option JobKey) (s : Scene) : Prop where
  fit : s.Fit
  timely : s.Timely
  quiet : ∀ k r, s.jobs.at? k = some r → hand ≠ some k → r.state ≠ JobState.running.name ∧
    r.state ≠ JobState.retrying.name
  fresh : ∀ k r, k.isHousekeeping = true → s.jobs.at? k = some r → r.Waits →
    r.state = JobState.queued.name ∧ r.attempt = .int 0

/-- The copies are those of jobs that wait, and are current. -/
def Copies (jobs : List Job) (s : Scene) : Prop :=
  ∀ j ∈ jobs, j.state = .queued ∧ j.IsProper ∧ ∃ r, s.jobs.at? j.key = some r ∧ r.isCurrent j = true

/-! ## The rows after a write -/

theorem Writes.at?_cases {k' : JobKey} {r' : JobRow} (h : Writes k r s t) (hr : t.jobs.at? k' = some r') :
    (k' = k ∧ r' = r) ∨ (k' ≠ k ∧ s.jobs.at? k' = some r') := by
  by_cases hk : k' = k
  · subst hk
    exact .inl ⟨rfl, Option.some.inj (hr.symm.trans h.sets.own)⟩
  · exact .inr ⟨hk, (h.sets.others k' hk).symm.trans hr⟩

theorem Writes.waits_iff {k' : JobKey} (h : Writes k r s t) (hk : k' ≠ k) : t.Waits k' ↔ s.Waits k' := by
  unfold Waits
  rw [h.sets.others k' hk]

theorem Writes.waits (h : Writes k r s t) (hr : r.Waits) : t.Waits k := ⟨r, h.sets.own, hr⟩

theorem Writes.not_waits (h : Writes k r s t) (hr : ¬ r.Waits) : ¬ t.Waits k := by
  rintro ⟨r', hr', hw⟩
  rw [h.sets.own] at hr'
  exact hr (Option.some.inj hr' ▸ hw)

theorem Writes.buried_iff {id : String} (h : Writes k r s t) (hk : .upload id ≠ k) :
    t.Buried id ↔ s.Buried id := by
  unfold Buried
  rw [h.sets.others _ hk]

theorem upload_ne_of_isHousekeeping (hk : k.isHousekeeping = true) (id : String) :
    JobKey.upload id ≠ k := by
  rintro rfl
  exact nomatch hk

theorem known_iff {ids : List String} (h : t.items = s.items) : Known ids t ↔ Known ids s := by
  unfold Known
  rw [h]

/-- A write about housekeeping changes nothing about uploads. -/
theorem Writes.covered_iff (h : Writes k r s t) (hk : k.isHousekeeping = true) : t.Covered ↔ s.Covered := by
  have hiff : ∀ id, (t.items.Knows id → t.items.Uploaded id ∨ t.Waits (.upload id) ∨ t.Buried id) ↔
      (s.items.Knows id → s.items.Uploaded id ∨ s.Waits (.upload id) ∨ s.Buried id) := by
    intro id
    rw [h.items, h.waits_iff (upload_ne_of_isHousekeeping hk id),
      h.buried_iff (upload_ne_of_isHousekeeping hk id)]
  exact forall_congr' hiff

/-! ## What keeps a scene tidy -/

theorem Tidy.same (h : Tidy hand s) (hf : t.Fit) (hle : s.clock.nanos ≤ t.clock.nanos)
    (hj : t.jobs = s.jobs) :
    Tidy hand t where
  fit := hf
  timely := by
    intro k r hr hw
    rw [hj] at hr
    obtain ⟨m, hm, hle'⟩ := h.timely k r hr hw
    exact ⟨m, hm, Int.le_trans hle' (Instant.millis_mono hle)⟩
  quiet := by
    rw [hj]
    exact h.quiet
  fresh := by
    rw [hj]
    exact h.fresh

theorem Tidy.later (h : Tidy hand s) (hl : Later s t) (hj : t.jobs = s.jobs) : Tidy hand t :=
  h.same (h.fit.later hl (hj ▸ h.fit.jobs)) hl.le hj

/-- A write keeps a scene tidy if the new row is: where the job is not in hand it neither runs nor waits for another
    attempt, and if it waits it is due. -/
theorem Tidy.writes {hand' : Option JobKey} (h : Tidy hand s) (hw : Writes k r s t)
    (hhand : ∀ k', k' ≠ k → hand' ≠ some k' → hand ≠ some k')
    (hquiet : hand' ≠ some k → r.state ≠ JobState.running.name ∧ r.state ≠ JobState.retrying.name)
    (htimely : r.Waits → r.nextRunAt = t.clock.cell)
    (hfresh : k.isHousekeeping = true → r.Waits → r.state = JobState.queued.name ∧
      r.attempt = .int 0) : Tidy hand' t where
  fit := hw.fit h.fit
  timely := by
    intro k' r' hr' hwaits
    rcases hw.at?_cases hr' with ⟨_, rfl⟩ | ⟨_, hr'⟩
    · exact ⟨t.clock.millis, htimely hwaits, Int.le_refl _⟩
    · obtain ⟨m, hm, hle⟩ := h.timely k' r' hr' hwaits
      exact ⟨m, hm, Int.le_trans hle (Instant.millis_mono hw.le)⟩
  quiet := by
    intro k' r' hr' hne
    rcases hw.at?_cases hr' with ⟨rfl, rfl⟩ | ⟨hk', hr'⟩
    · exact hquiet hne
    · exact h.quiet k' r' hr' (hhand k' hk' hne)
  fresh := by
    intro k' r' hk hr' hwaits
    rcases hw.at?_cases hr' with ⟨rfl, rfl⟩ | ⟨_, hr'⟩
    · exact hfresh hk hwaits
    · exact h.fresh k' r' hk hr' hwaits

/-- A fresh row keeps a scene tidy. -/
theorem Tidy.freshens (h : Tidy hand s) {q : JobRequest}
    (hw : Writes q.key (JobRow.ofJob (Job.fresh q t.clock)) s t) :
    Tidy hand t := by
  refine h.writes hw (fun _ _ hne => hne) (fun _ => ?_) (fun _ => rfl) fun _ _ => ⟨rfl, rfl⟩
  show JobState.queued.name ≠ JobState.running.name ∧ JobState.queued.name ≠ JobState.retrying.name
  decide

theorem Copies.later (h : Copies jobs s) (hj : t.jobs = s.jobs) : Copies jobs t := by
  unfold Copies
  rw [hj]
  exact h

theorem Copies.writes (h : Copies jobs s) (hw : Writes k r s t) (hk : ∀ j ∈ jobs, j.key ≠ k) :
    Copies jobs t := by
  intro j hj
  obtain ⟨hq, hp, r', hr', hc⟩ := h j hj
  exact ⟨hq, hp, r', (hw.sets.others j.key (hk j hj)).trans hr', hc⟩

/-- The job of a copy waits. -/
theorem Copies.waits (h : Copies jobs s) {j : Job} (hj : j ∈ jobs) : s.Waits j.key := by
  obtain ⟨hq, _, r, hr, hc⟩ := h j hj
  refine ⟨r, hr, .inl ?_⟩
  rw [(JobRow.isCurrent_iff.1 hc).2.1, hq]

/-- A fresh row of housekeeping leaves the copies current: the row that it replaces was as good as fresh. -/
theorem Copies.freshens (h : Copies jobs s) (htidy : Tidy hand s) {q : JobRequest}
    (hq : q.key.isHousekeeping = true)
    (hw : Writes q.key (JobRow.ofJob (Job.fresh q t.clock)) s t) : Copies jobs t := by
  intro j hj
  obtain ⟨hqueued, hp, r', hr', hc⟩ := h j hj
  by_cases hk : j.key = q.key
  · refine ⟨hqueued, hp, _, hk ▸ hw.sets.own, ?_⟩
    obtain ⟨_, hstate, hattempt⟩ := JobRow.isCurrent_iff.1 hc
    rw [hqueued] at hstate
    have hzero : r'.attempt = .int 0 := (htidy.fresh _ r' (hk ▸ hq) hr' (.inl hstate)).2
    refine JobRow.isCurrent_iff.2 ⟨congrArg JobKey.text hk.symm, congrArg JobState.name hqueued.symm, ?_⟩
    exact hzero.symm.trans hattempt
  · exact ⟨hqueued, hp, r', (hw.sets.others j.key hk).trans hr', hc⟩

end Scene

end MediaBackup
