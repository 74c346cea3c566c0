import MediaBackup.Proofs.Recovery.Upkeep

/-
  What a pass has still to do, and what it has done for the passes to come.

  Of three passes the first scans, the second dispatches what the scan found, and the third uploads what was
  dispatched; but a first pass may well dispatch before it scans or after it, so the second has a dispatch to run or
  none.  `Agenda` says this of a pass under way that is the last but `n`: what its jobs that are still `todo` are for,
  or else what was reached without them.  Running one of them takes it off the agenda (`meets_turn`).
-/

namespace MediaBackup

namespace Scene

open Script Workers

variable {ids : List String} {n : Nat} {uploads : List String} {todo : List JobKey} {s t u : Scene}
  {jobs : List Job}
  {r : JobRow}

/-- The agenda of a pass that is followed by less than `n` others: `todo` are the jobs that it has still to run, and
    `uploads` the items that it uploads. -/
structure Agenda (ids : List String) (n : Nat) (uploads : List String) (todo : List JobKey)
    (s : Scene) : Prop where
  listed : ∀ id ∈ uploads, .upload id ∈ todo
  scan : .scan ∈ todo ∨ (Known ids s ∧ ¬ s.Waits .scan)
  dispatch : .dispatch ∈ todo ∨ s.Waits .dispatch ∨ s.Covered
  second : n ≤ 2 → .scan ∉ todo ∧ (.dispatch ∈ todo ∨ ¬ s.Waits .dispatch)
  third : n ≤ 1 → (∀ k ∈ todo, k.isHousekeeping = false) ∧ ∀ id, s.Waits (.upload id) → id ∈ uploads

theorem Agenda.same (h : Agenda ids n uploads todo s) (hj : t.jobs = s.jobs) (hi : t.items = s.items) :
    Agenda ids n uploads todo t := by
  obtain ⟨hlisted, hscan, hdispatch, hsecond, hthird⟩ := h
  unfold Known Covered Waits Buried at *
  rw [← hj, ← hi] at hscan hdispatch
  rw [← hj] at hsecond hthird
  exact ⟨hlisted, hscan, hdispatch, hsecond, hthird⟩

/-- A scan or dispatch of the agenda that is claimed stays on it. -/
theorem Agenda.claimed {k : JobKey} (h : Agenda ids n uploads todo s) (hw : Writes k r s t)
    (hk : k.isHousekeeping = true)
    (hmem : k ∈ todo) : Agenda ids n uploads todo t where
  listed := h.listed
  scan := by
    rcases h.scan with hscan | ⟨hknown, hwaits⟩
    · exact .inl hscan
    · by_cases he : JobKey.scan = k
      · exact .inl (he ▸ hmem)
      · exact .inr ⟨(known_iff hw.items).2 hknown, fun hw' => hwaits ((hw.waits_iff he).1 hw')⟩
  dispatch := by
    rcases h.dispatch with hdispatch | hwaits | hcovered
    · exact .inl hdispatch
    · by_cases he : JobKey.dispatch = k
      · exact .inl (he ▸ hmem)
      · exact .inr (.inl ((hw.waits_iff he).2 hwaits))
    · exact .inr (.inr ((hw.covered_iff hk).2 hcovered))
  second hn := by
    obtain ⟨hscan, hdispatch⟩ := h.second hn
    refine ⟨hscan, ?_⟩
    by_cases he : JobKey.dispatch = k
    · exact .inl (he ▸ hmem)
    · exact hdispatch.imp_right fun hwaits hw' => hwaits ((hw.waits_iff he).1 hw')
  third hn := by
    have := (h.third hn).1 k hmem
    rw [hk] at this
    exact nomatch this

/-- A scan that was run is off the agenda. -/
theorem Agenda.scanned (h : Agenda ids n uploads (.scan :: todo) s) (hs : Scanned ids jobs s t)
    (hw : Writes .scan r t u) (hr : ¬ r.Waits) : Agenda ids n uploads todo u where
  listed id hid := List.mem_of_ne_of_mem JobKey.noConfusion (h.listed id hid)
  scan := .inr ⟨(known_iff hw.items).2 hs.known, hw.not_waits hr⟩
  dispatch := by
    have hwaits : t.Waits .dispatch → u.Waits .dispatch := (hw.waits_iff JobKey.noConfusion).2
    rcases h.dispatch with hdispatch | hbefore
    · exact .inl (List.mem_of_ne_of_mem JobKey.noConfusion hdispatch)
    · rcases hs.asked with hasked | ⟨hj, hi⟩
      · exact .inr (.inl (hwaits hasked))
      · have hafter : t.Waits .dispatch ∨ t.Covered := by
          unfold Covered Waits Buried at *
          rw [hj, hi]
          exact hbefore
        exact .inr (hafter.imp hwaits (hw.covered_iff rfl).2)
  second hn := absurd List.mem_cons_self (h.second hn).1
  third hn := nomatch (h.third hn).1 .scan List.mem_cons_self

/-- A dispatch that was run is off the agenda. -/
theorem Agenda.dispatched {list : List String} (h : Agenda ids n uploads (.dispatch :: todo) s)
    (hq : Queued list jobs (some .dispatch) s t) (hc : t.Covered) (hw : Writes .dispatch r t u)
    (hr : ¬ r.Waits) :
    Agenda ids n uploads todo u where
  listed id hid := List.mem_of_ne_of_mem JobKey.noConfusion (h.listed id hid)
  scan := by
    rcases h.scan with hscan | ⟨hknown, hwaits⟩
    · exact .inl (List.mem_of_ne_of_mem JobKey.noConfusion hscan)
    · refine .inr ⟨(known_iff (hw.items.trans hq.items)).2 hknown, fun hw' => hwaits ?_⟩
      have hw'' : t.Waits .scan := (hw.waits_iff JobKey.noConfusion).1 hw'
      unfold Waits at hw'' ⊢
      rw [← hq.others .scan rfl]
      exact hw''
  dispatch := .inr (.inr ((hw.covered_iff rfl).2 hc))
  second hn := ⟨fun hscan => (h.second hn).1 (List.mem_cons_of_mem _ hscan), .inr (hw.not_waits hr)⟩
  third hn := nomatch (h.third hn).1 .dispatch List.mem_cons_self

/-! ## The turn of a scan or dispatch -/

/-- Work that succeeds is marked as succeeded. -/
theorem meets_work (b : Backup) {c : Job} {row : JobRow} {P : Scene → Prop}
    (hr : c.state = .running) (hp : c.IsProper)
    (hperform : Meets (alone ids) (fun o t => o = .success ∧ P t) never (b.perform c.key) s)
    (hP : ∀ t, P t → t.Fit ∧ t.jobs.at? c.key = some row) (hc : row.isCurrent c = true) :
    Meets (alone ids) (fun _ u => ∃ t r, P t ∧ Writes c.key r t u ∧ r.state = JobState.succeeded.name) never
      (b.work c) s := by
  unfold Backup.work
  rw [meets_bind, Engine.meets_observe]
  refine Meets.mono ?_ (fun _ _ hf => hf.elim) hperform
  rintro _ t ⟨rfl, ht⟩
  obtain ⟨hfit, hrow⟩ := hP t ht
  dsimp only
  rw [meets_bind, meets_pure, meets_bind, Engine.meets_observe]
  refine meets_complete hfit hr hp hrow hc ?_
  intro change u _ hgives hw
  refine ⟨t, _, ht, hw, ?_⟩
  show change.state.name = _
  rw [show change.state = .succeeded from hgives]

/-- What the main line has when it comes to a job. -/
structure Looks (ids : List String) (n : Nat) (uploads : List String) (jobs : List Job)
    (s : Scene) : Prop where
  tidy : Tidy none s
  copies : Copies jobs s
  nodup : (jobs.map Job.key).Nodup
  agenda : Agenda ids n uploads (jobs.map Job.key) s

/-- A scan or dispatch is claimed and run, which takes it off the agenda. -/
theorem meets_turn (b : Backup) (hids : ∀ id ∈ ids, id ≠ "") {j : Job}
    (h : Looks ids n uploads (j :: jobs) s)
    (hj : j.key.isHousekeeping = true) :
    Meets (alone ids) (fun o t => ∃ c, o = some c ∧
      Meets (alone ids) (fun _ u => Looks ids n uploads jobs u) never (b.work c) t) never
        (Queue.claim j) s := by
  obtain ⟨htidy, hcopies, hnodup, hagenda⟩ := h
  obtain ⟨hq, hp, row, hrow, hcur⟩ := hcopies j List.mem_cons_self
  obtain ⟨hother, hnodup'⟩ := List.nodup_cons.1 hnodup
  have hne : ∀ i ∈ jobs, i.key ≠ j.key := fun i hi he => hother (he ▸ List.mem_map_of_mem hi)
  refine meets_claim htidy.fit hq hp hrow hcur fun now t hdate hw => ⟨_, rfl, ?_⟩
  -- the row runs now, and is current for the copy that the claim returned
  have hrunning : ¬ (row.apply (j.claimChange now)).Waits := JobRow.not_waits_of_running rfl
  have hcur' : (row.apply (j.claimChange now)).isCurrent (j.claimed (j.claimChange now)) = true :=
    JobRow.isCurrent_iff.2 ⟨(JobRow.isCurrent_iff.1 hcur).1, rfl, rfl⟩
  have hproper : (j.claimed (j.claimChange now)).IsProper := hp.claimed (hp.claimChange hdate)
  have htidy' : Tidy (some j.key) t :=
    htidy.writes hw (fun _ _ _ => nofun) (fun hne => absurd rfl hne) (fun hw' => absurd hw' hrunning)
      fun _ hw' => absurd hw' hrunning
  have hcopies' : Copies jobs t := by
    refine Copies.writes (fun i hi => hcopies i (List.mem_cons_of_mem _ hi)) hw hne
  have hagenda' := hagenda.claimed hw hj List.mem_cons_self
  -- what remains once the work is marked as succeeded
  have hdone : ∀ {t u : Scene} {r : JobRow}, Tidy (some j.key) t → Copies jobs t → Writes j.key r t u →
      r.state = JobState.succeeded.name → Tidy none u ∧ Copies jobs u ∧ ¬ r.Waits := by
    intro t u r htidy hcopies hw hstate
    have hover : ¬ r.Waits := JobRow.IsOver.not_waits (.inl hstate)
    refine ⟨htidy.writes hw ?_ ?_ (fun hw' => absurd hw' hover) fun _ hw' => absurd hw' hover,
      hcopies.writes hw hne, hover⟩
    · intro k' hk' _ he
      exact hk' (Option.some.inj he).symm
    · intro _
      rw [hstate]
      decide
  cases hkey : j.key with
  | upload id =>
    rw [hkey] at hj
    exact nomatch hj
  | scan =>
    rw [hkey] at hdone htidy' hw
    rw [List.map_cons, hkey] at hagenda'
    refine Meets.mono ?_ (fun _ _ hf => hf) (meets_work b rfl hproper (P := Scanned ids jobs t) ?_ ?_ hcur')
    · rintro _ u ⟨v, r, hv, hw', hstate⟩
      replace hw' : Writes .scan r v u := hkey ▸ hw'
      obtain ⟨htidy, hcopies, hover⟩ := hdone hv.tidy hv.copies hw' hstate
      exact ⟨htidy, hcopies, hnodup', hagenda'.scanned hv hw' hover⟩
    · show Meets _ _ never (b.perform j.key) t
      rw [hkey]
      exact meets_perform_scan b hids htidy' hcopies'
    · intro v hv
      refine ⟨hv.tidy.fit, ?_⟩
      show v.jobs.at? j.key = _
      rw [hkey, hv.own]
      exact hw.sets.own
  | dispatch =>
    rw [hkey] at hdone htidy' hw
    rw [List.map_cons, hkey] at hagenda'
    refine Meets.mono ?_ (fun _ _ hf => hf)
      (meets_work b rfl hproper
        (P := fun v => v.Covered ∧ ∃ list, Queued list jobs (some .dispatch) t v) ?_ ?_ hcur')
    · rintro _ u ⟨v, r, ⟨hcovered, list, hv⟩, hw', hstate⟩
      replace hw' : Writes .dispatch r v u := hkey ▸ hw'
      obtain ⟨htidy, hcopies, hover⟩ := hdone hv.tidy hv.copies hw' hstate
      exact ⟨htidy, hcopies, hnodup', hagenda'.dispatched hv hcovered hw' hover⟩
    · show Meets _ _ never (b.perform j.key) t
      rw [hkey]
      exact meets_perform_dispatch b htidy' hcopies'
    · rintro v ⟨_, list, hv⟩
      refine ⟨hv.tidy.fit, ?_⟩
      show v.jobs.at? j.key = _
      rw [hkey, hv.others .dispatch rfl]
      exact hw.sets.own

end Scene

end MediaBackup
