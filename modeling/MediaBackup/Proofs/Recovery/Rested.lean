import MediaBackup.Proofs.Recovery.Agenda
import MediaBackup.Proofs.Recovery.Uploading

/-
  The scene between two passes.

  `Rested` says what is reached when so many of three passes are still to come: before the first a scan and a dispatch
  wait; after it the library is known, and a dispatch waits or all items are covered; after the second no dispatch
  waits; and after the third nothing is left.  It is where a pass begins (`Rested.looks`), once what waits for another
  attempt is promoted, and where it ends (`Arrived.rested`).
-/

namespace MediaBackup

namespace Scene

open Workers

/-- The scene before `n` further passes. -/
structure Rested (ids : List String) (n : Nat) (s : Scene) : Prop where
  fit : s.Fit
  timely : s.Timely
  idle : ∀ k r, s.jobs.at? k = some r → r.state ≠ JobState.running.name
  fresh : ∀ k r, k.isHousekeeping = true → s.jobs.at? k = some r → r.Waits →
    r.state = JobState.queued.name ∧ r.attempt = .int 0
  first : n = 3 → s.Waits .scan ∧ s.Waits .dispatch
  second : n ≤ 2 → Known ids s ∧ ¬ s.Waits .scan ∧ (s.Waits .dispatch ∨ s.Covered)
  third : n ≤ 1 → ¬ s.Waits .dispatch
  last : n = 0 → ∀ id, s.items.Knows id → s.items.Uploaded id ∨ s.Buried id

variable {ids : List String} {n : Nat} {s t : Scene} {uploads : List String} {jobs : List Job}

/-! ## The begin of a pass -/

/-- Promoting takes a scene that is rested to a tidy one, where the same jobs wait. -/
theorem Rested.promoted (h : Rested ids n s) (hl : Later s t) (ht : t.jobs.Legible)
    (hp : ∀ k, t.jobs.at? k = (s.jobs.at? k).map fun r =>
      if r.isPromotable t.clock then r.promoted t.clock else r) :
    Tidy none t ∧ Rested ids n t := by
  -- every row is as it was, or waited for another attempt and is queued
  have hrow : ∀ k r, t.jobs.at? k = some r →
      (s.jobs.at? k = some r ∧ r.state ≠ JobState.retrying.name) ∨
        ∃ q, s.jobs.at? k = some q ∧ q.state = JobState.retrying.name ∧ r = q.promoted t.clock := by
    intro k r hr
    rw [hp] at hr
    obtain ⟨q, hq, rfl⟩ := Option.map_eq_some_iff.1 hr
    by_cases hretrying : q.state = JobState.retrying.name
    · have hpromotable : q.isPromotable t.clock = true := by
        unfold JobRow.isPromotable
        rw [h.timely.le hq (.inr hretrying) hl.le, hretrying]
        rfl
      rw [if_pos hpromotable]
      exact .inr ⟨q, hq, hretrying, rfl⟩
    · have hno : ¬ q.isPromotable t.clock = true := by
        unfold JobRow.isPromotable
        rw [Bool.and_eq_true, beq_iff_eq]
        exact fun hp => hretrying hp.1
      rw [if_neg hno]
      exact .inl ⟨hq, hretrying⟩
  have hsame : ∀ k r, s.jobs.at? k = some r → r.state ≠ JobState.retrying.name → t.jobs.at? k = some r := by
    intro k r hr hretrying
    rw [hp, hr, Option.map_some, if_neg]
    unfold JobRow.isPromotable
    rw [Bool.and_eq_true, beq_iff_eq]
    exact fun hp => hretrying hp.1
  have hwaits : ∀ k, t.Waits k ↔ s.Waits k := by
    intro k
    constructor
    · rintro ⟨r, hr, hw⟩
      rcases hrow k r hr with ⟨hr, _⟩ | ⟨q, hq, hretrying, _⟩
      · exact ⟨r, hr, hw⟩
      · exact ⟨q, hq, .inr hretrying⟩
    · rintro ⟨r, hr, hw⟩
      rcases hw with hw | hw
      · exact ⟨r, hsame k r hr (by rw [hw]; decide), .inl hw⟩
      · have hpromotable : r.isPromotable t.clock = true := by
          unfold JobRow.isPromotable
          rw [h.timely.le hr (.inr hw) hl.le, hw]
          rfl
        refine ⟨r.promoted t.clock, ?_, .inl rfl⟩
        rw [hp, hr, Option.map_some, if_pos hpromotable]
  have hburied : ∀ id, t.Buried id ↔ s.Buried id := by
    intro id
    constructor
    · rintro ⟨r, hr, hw⟩
      rcases hrow _ r hr with ⟨hr, _⟩ | ⟨q, _, _, rfl⟩
      · exact ⟨r, hr, hw⟩
      · exact absurd hw.1 (by show "queued" ≠ _; decide)
    · rintro ⟨r, hr, hw⟩
      exact ⟨r, hsame _ r hr (by rw [hw.1]; decide), hw⟩
  have hcovered : t.Covered ↔ s.Covered := by
    refine forall_congr' fun id => ?_
    rw [hl.items, hwaits, hburied]
  have hfit := h.fit.later hl ht
  have htimely : t.Timely := by
    intro k r hr hw
    have hold : ∃ q, s.jobs.at? k = some q ∧ q.Waits ∧ r.nextRunAt = q.nextRunAt := by
      rcases hrow k r hr with ⟨hr, _⟩ | ⟨q, hq, hretrying, rfl⟩
      · exact ⟨r, hr, hw, rfl⟩
      · exact ⟨q, hq, .inr hretrying, rfl⟩
    obtain ⟨q, hq, hw, he⟩ := hold
    obtain ⟨m, hm, hle⟩ := h.timely k q hq hw
    exact ⟨m, he.trans hm, Int.le_trans hle (Instant.millis_mono hl.le)⟩
  have hquiet : ∀ k r, t.jobs.at? k = some r → r.state ≠ JobState.running.name ∧
    r.state ≠ JobState.retrying.name := by
    intro k r hr
    rcases hrow k r hr with ⟨hr, hretrying⟩ | ⟨q, _, _, rfl⟩
    · exact ⟨h.idle k r hr, hretrying⟩
    · show "queued" ≠ JobState.running.name ∧ "queued" ≠ JobState.retrying.name
      decide
  have hfresh : ∀ k r, k.isHousekeeping = true → t.jobs.at? k = some r → r.Waits →
      r.state = JobState.queued.name ∧ r.attempt = .int 0 := by
    intro k r hk hr hw
    rcases hrow k r hr with ⟨hr, _⟩ | ⟨q, hq, hretrying, _⟩
    · exact h.fresh k r hk hr hw
    · have := (h.fresh k q hk hq (.inr hretrying)).1
      rw [hretrying] at this
      exact absurd this (by decide)
  refine ⟨⟨hfit, htimely, fun k r hr _ => hquiet k r hr, hfresh⟩, hfit, htimely,
    fun k r hr => (hquiet k r hr).1, hfresh, ?_, ?_, ?_, ?_⟩
  · intro hn
    exact (and_congr (hwaits _) (hwaits _)).2 (h.first hn)
  · intro hn
    obtain ⟨hknown, hscan, hdispatch⟩ := h.second hn
    exact ⟨(known_iff hl.items).2 hknown, fun hw => hscan ((hwaits _).1 hw),
      (or_congr (hwaits _) hcovered).2 hdispatch⟩
  · exact fun hn hw => h.third hn ((hwaits _).1 hw)
  · intro hn id hk
    rw [hl.items] at hk ⊢
    exact (h.last hn id hk).imp_right (hburied id).2

theorem item_eq_some {k : JobKey} {id : String} (h : k.item? = some id) : k = .upload id := by
  cases k with
  | upload id' => exact congrArg JobKey.upload (Option.some.inj h)
  | scan => exact nomatch h
  | dispatch => exact nomatch h

/-- With the jobs that are due, a pass has an agenda. -/
theorem Rested.looks (h : Rested ids (n + 1) s) (hn : n ≤ 2) (htidy : Tidy none s) (hl : Later s t)
    (hj : t.jobs = s.jobs) (hlist : Lists s.jobs jobs) :
    Looks ids (n + 1) (jobs.filterMap (·.key.item?)) jobs t := by
  have hcopies : Copies jobs s := by
    intro j hj
    obtain ⟨hq, r, hr, hsay⟩ := hlist.copies j hj
    exact ⟨hq, (hlist.arranged.isProper j hj).1, r, hr, hsay.isCurrent⟩
  have hmem : ∀ {k}, k ∈ jobs.map Job.key → s.Waits k := by
    intro k hk
    obtain ⟨j, hj, rfl⟩ := List.mem_map.1 hk
    exact hcopies.waits hj
  have hdue : ∀ {k}, s.Waits k → k ∈ jobs.map Job.key := by
    rintro k ⟨r, hr, hw⟩
    have hq : r.state = JobState.queued.name := hw.resolve_right (htidy.quiet k r hr nofun).2
    obtain ⟨j, hj, rfl⟩ := hlist.complete k r hr hq
    exact List.mem_map_of_mem hj
  refine ⟨htidy.later hl hj, hcopies.later hj, hlist.nodup, Agenda.same ?_ hj hl.items⟩
  refine ⟨?_, ?_, ?_, ?_, ?_⟩
  · intro id hid
    obtain ⟨j, hj, he⟩ := List.mem_filterMap.1 hid
    exact item_eq_some he ▸ List.mem_map_of_mem hj
  · rcases Nat.lt_or_ge n 2 with hlt | hge
    · obtain ⟨hknown, hscan, _⟩ := h.second (by omega)
      exact .inr ⟨hknown, hscan⟩
    · exact .inl (hdue (h.first (by omega)).1)
  · by_cases hw : s.Waits .dispatch
    · exact .inl (hdue hw)
    · rcases Nat.lt_or_ge n 2 with hlt | hge
      · exact .inr (.inr ((h.second (by omega)).2.2.resolve_left hw))
      · exact absurd (h.first (by omega)).2 hw
  · intro hn
    refine ⟨fun hk => (h.second hn).2.1 (hmem hk), ?_⟩
    by_cases hw : s.Waits .dispatch
    · exact .inl (hdue hw)
    · exact .inr hw
  · intro hn
    refine ⟨fun k hk => ?_, fun id hw => ?_⟩
    · cases k with
      | scan => exact absurd (hmem hk) (h.second (by omega)).2.1
      | dispatch => exact absurd (hmem hk) (h.third hn)
      | upload id => rfl
    · obtain ⟨j, hj, he⟩ := List.mem_map.1 (hdue hw)
      exact List.mem_filterMap.2 ⟨j, hj, by rw [he]; rfl⟩

/-! ## The end of a pass -/

/-- All uploads that were taken from a scene are delivered, and no other row was changed. -/
structure Arrived (frozen : Scene) (taken : List String) (s : Scene) : Prop where
  fit : s.Fit
  le : frozen.clock.nanos ≤ s.clock.nanos
  known : ∀ id, s.items.Knows id ↔ frozen.items.Knows id
  uploaded : ∀ id, frozen.items.Uploaded id → s.items.Uploaded id
  others : ∀ k, (∀ id ∈ taken, k ≠ .upload id) → s.jobs.at? k = frozen.jobs.at? k
  delivered : ∀ id ∈ taken, s.Delivered id

theorem Arrived.refl (h : s.Fit) : Arrived s [] s where
  fit := h
  le := Int.le_refl _
  known _ := Iff.rfl
  uploaded _ hu := hu
  others _ _ := rfl
  delivered _ hid := absurd hid List.not_mem_nil

/-- A row is as it was, or the upload was taken and has succeeded. -/
theorem Arrived.row {frozen : Scene} {taken : List String} (h : Arrived frozen taken s) {k : JobKey}
    {r : JobRow}
    (hr : s.jobs.at? k = some r) : frozen.jobs.at? k = some r ∨ r.state = JobState.succeeded.name := by
  by_cases hk : ∃ id ∈ taken, k = .upload id
  · obtain ⟨id, hid, rfl⟩ := hk
    obtain ⟨⟨q, hq, hstate⟩, _⟩ := h.delivered id hid
    rw [hr] at hq
    exact .inr (Option.some.inj hq ▸ hstate)
  · refine .inl ((h.others k fun id hid he => hk ⟨id, hid, he⟩).symm.trans hr)

/-- The rows of housekeeping are as they were. -/
theorem Arrived.housekeeping {frozen : Scene} {taken : List String} (h : Arrived frozen taken s)
    {k : JobKey}
    (hk : k.isHousekeeping = true) : s.jobs.at? k = frozen.jobs.at? k :=
  h.others k fun id _ he => upload_ne_of_isHousekeeping hk id he.symm

/-- What a pass leaves once all that it had to upload is delivered. -/
theorem Arrived.rested {frozen : Scene} {taken : List String} (h : Arrived frozen taken s)
    (hl : Looks ids (n + 1) uploads jobs frozen) (hjobs : ∀ j ∈ jobs, j.key.isUpload = true)
    (hall : ∀ id ∈ uploads, id ∈ taken) (hn : n ≤ 2) : Rested ids n s := by
  obtain ⟨htidy, _, _, hagenda⟩ := hl
  have htodo : ∀ k, k.isHousekeeping = true → k ∉ jobs.map Job.key := by
    intro k hk hmem
    obtain ⟨j, hj, rfl⟩ := List.mem_map.1 hmem
    have := hjobs j hj
    rw [isUpload_eq_not, hk] at this
    exact nomatch this
  obtain ⟨hknown, hscan⟩ := hagenda.scan.resolve_left (htodo _ rfl)
  have hdispatch := hagenda.dispatch.resolve_left (htodo _ rfl)
  have hwaits : ∀ {k}, k.isHousekeeping = true → (s.Waits k ↔ frozen.Waits k) := by
    intro k hk
    unfold Waits
    rw [h.housekeeping hk]
  -- an item whose upload was taken is uploaded; of any other the row is as it was
  have hcases : ∀ {id}, s.items.Knows id → s.items.Uploaded id ∨
    s.jobs.at? (.upload id) = frozen.jobs.at? (.upload id) := by
    intro id hk
    by_cases hid : id ∈ taken
    · exact .inl ((h.delivered id hid).2 hk)
    · exact .inr (h.others _ fun id' hid' he => hid (JobKey.upload.inj he ▸ hid'))
  have hcovered : frozen.Covered → s.Covered := by
    intro hc id hk
    rcases hcases hk with hu | hrow
    · exact .inl hu
    · unfold Waits Buried
      rw [hrow]
      exact (hc id ((h.known id).1 hk)).imp_left (h.uploaded id)
  refine ⟨h.fit, ?_, ?_, ?_, ?_, ?_, ?_, ?_⟩
  · intro k r hr hw
    rcases h.row hr with hr | hstate
    · obtain ⟨m, hm, hle⟩ := htidy.timely k r hr hw
      exact ⟨m, hm, Int.le_trans hle (Instant.millis_mono h.le)⟩
    · exact absurd hw (JobRow.IsOver.not_waits (.inl hstate))
  · intro k r hr
    rcases h.row hr with hr | hstate
    · exact (htidy.quiet k r hr nofun).1
    · rw [hstate]
      decide
  · intro k r hk hr hw
    rw [h.housekeeping hk] at hr
    exact htidy.fresh k r hk hr hw
  · exact fun he => absurd hn (by omega)
  · intro _
    refine ⟨fun id hid => (h.known id).2 (hknown id hid), fun hw => hscan ((hwaits rfl).1 hw), ?_⟩
    exact hdispatch.imp (hwaits rfl).2 hcovered
  · intro hn' hw
    exact ((hagenda.second (by omega)).2.resolve_left (htodo _ rfl)) ((hwaits rfl).1 hw)
  · intro hn' id hk
    have hno := (hagenda.second (by omega)).2.resolve_left (htodo _ rfl)
    have hlisted := (hagenda.third (by omega)).2
    rcases (hdispatch.resolve_left hno) id ((h.known id).1 hk) with hu | hw | ⟨r, hr, hburied⟩
    · exact .inl (h.uploaded id hu)
    · exact .inl ((h.delivered id (hall id (hlisted id hw))).2 hk)
    · exact (hcases hk).imp_right fun hrow => ⟨r, hrow.trans hr, hburied⟩

end Scene

end MediaBackup
