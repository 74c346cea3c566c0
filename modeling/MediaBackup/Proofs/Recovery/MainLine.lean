import MediaBackup.Proofs.Recovery.Crew
import MediaBackup.Proofs.Recovery.Rested

/-
  The main line of a pass in a world in which nothing fails.

  It runs the housekeeping of its agenda alone.  When it comes to the first upload, nothing but uploads is left to run,
  and what they need was settled: their rows are as they were, so every claim is won.  At the end all uploads that were
  due are taken and joined.
-/

namespace MediaBackup

namespace Helm

open Script Scene

variable {ids : List String} {n : Nat} {uploads : List String} {m m' : Helm} {s : Scene} {u : Uploading}
  {j : Job} {jobs : List Job} {seen : Option NetworkInfo} {p : Pass.Progress} {α : Type}

/-- A program that is run alone in the world is run so in the main line, before the first upload. -/
theorem meets_alone {program : Engine α} {good : α → Helm → Prop} {bad : Stop → Helm → Prop}
    (h : Meets (Scene.alone ids) (fun a t => good a (.alone t)) (fun e t => bad e (.alone t)) program s) :
    Meets (course ids).engine good bad program (.alone s) := by
  refine Keeps.weaken (v := (course ids).engine) (fun s m => m = .alone s) ?_ ?_ ?_ rfl h
  · rintro s _ c rfl _
    trivial
  · rintro s _ c x m rfl _ ⟨t, hx, rfl⟩
    exact ⟨t, hx, rfl⟩
  · rintro (e | a) s _ rfl hp <;> exact hp

/-- Nothing stops the main line. -/
abbrev never : Stop → Helm → Prop := fun _ _ => False

/-- The clock and the listeners do not matter to what follows the main line. -/
def Stays : Helm → Helm → Prop
  | alone _, m => ∃ t, m = alone t
  | uploading u, m => m = uploading u

theorem course_silent : (course ids).engine.Silent Stays where
  trans m m' m'' h h' := by
    cases m with
    | alone s =>
      obtain ⟨t, rfl⟩ := h
      exact h'
    | uploading u =>
      obtain rfl := h
      exact h'
  mayNow m := by cases m <;> trivial
  now m x m' h := by
    cases m with
    | alone s =>
      obtain ⟨t, ⟨⟨hdate, _⟩, _⟩, rfl⟩ := h
      exact ⟨hdate, t, rfl⟩
    | uploading u => exact h
  mayEmit m e := by cases m <;> trivial
  emit m e m' h := by
    cases m with
    | alone s =>
      obtain ⟨t, _, rfl⟩ := h
      exact ⟨t, rfl⟩
    | uploading u => exact h

/-! ## The loop through the jobs -/

/-- What the main line knows while uploads are under way and `jobs` are still to be run. -/
structure Sails (ids : List String) (n : Nat) (uploads : List String) (jobs : List Job)
    (opened : Nat) (u : Uploading) :
    Prop where
  hand : u.hand = none
  opened : u.opened = opened
  /-- The jobs are left of those that were to be run before the first upload. -/
  looks : ∃ all, Looks ids n uploads all u.frozen ∧ (∀ j ∈ all, j.key.isUpload = true) ∧ ∀ j ∈ jobs, j ∈ all
  nodup : (jobs.map Job.key).Nodup
  ahead : ∀ j ∈ jobs, ∀ id ∈ u.taken, j.key ≠ .upload id
  listed : ∀ id ∈ uploads, id ∈ u.taken ∨ ∃ j ∈ jobs, j.key = .upload id

/-- What the main line knows before it comes to the next job. -/
structure Turns (ids : List String) (n : Nat) (uploads : List String) (holds : Bool) (jobs : List Job)
    (seen : Option NetworkInfo) (p : Pass.Progress) (m : Helm) : Prop where
  fatal : p.fatal = none
  free : ∀ info, seen = some info → info.IsFree
  order : jobs.Pairwise fun i j => i.key.isUpload = true → j.key.isUpload = true
  stage : match m with
    | .alone s => holds = false ∧ p.uploads = 0 ∧ Looks ids n uploads jobs s
    | .uploading u => u.holds = holds ∧ Sails ids n uploads jobs p.uploads u

theorem Sails.permit {opened : Nat} (h : Sails ids n uploads jobs opened u) (holds : Bool) :
    Sails ids n uploads jobs opened { u with holds := holds } :=
  ⟨h.hand, h.opened, h.looks, h.nodup, h.ahead, h.listed⟩

/-- Where the next job is an upload, all jobs are. -/
theorem isUpload_of_pairwise
    (h : (j :: jobs).Pairwise fun i j => i.key.isUpload = true → j.key.isUpload = true)
    (hj : j.key.isUpload = true) : ∀ i ∈ j :: jobs, i.key.isUpload = true := by
  intro i hi
  rcases List.mem_cons.1 hi with rfl | hi
  · exact hj
  · exact (List.pairwise_cons.1 h).1 i hi hj

/-- The main line comes to its first upload. -/
theorem Sails.begin (h : Looks ids n uploads jobs s) (hjobs : ∀ j ∈ jobs, j.key.isUpload = true)
    (holds : Bool) :
    Sails ids n uploads jobs 0 ⟨s, [], holds, none, 0⟩ where
  hand := rfl
  opened := rfl
  looks := ⟨jobs, h, hjobs, fun _ hj => hj⟩
  nodup := h.nodup
  ahead _ _ _ hid := absurd hid List.not_mem_nil
  listed id hid := by
    obtain ⟨j, hj, he⟩ := List.mem_map.1 (h.agenda.listed id hid)
    exact .inr ⟨j, hj, he⟩

/-- A permit is taken for the next upload. -/
theorem Turns.permit (h : Turns ids n uploads false (j :: jobs) seen p m) (hj : j.key.isUpload = true) :
    Meets (course ids)
      (fun waited m' => if waited then Meets (course ids).engine
          (fun seen m'' => Turns ids n uploads true (j :: jobs) seen p m'') never Pass.look m'
        else Turns ids n uploads true (j :: jobs) seen p m') never Pass.takePermit m := by
  obtain ⟨hfatal, hfree, horder, hstage⟩ := h
  cases m with
  | alone s =>
    obtain ⟨_, hzero, hlooks⟩ := hstage
    have hsails := Sails.begin hlooks (isUpload_of_pairwise horder hj) true
    refine Pass.meets_takePermit hlooks.tidy.fit ?_ ?_
    · rintro _ ⟨_, rfl⟩
      exact ⟨hfatal, hfree, horder, rfl, hzero ▸ hsails⟩
    · rintro _ ⟨hfalse, _⟩
      exact nomatch hfalse
  | uploading u =>
    obtain ⟨hholds, hsails⟩ := hstage
    refine Pass.meets_takePermit hholds ?_ ?_
    · rintro _ rfl
      exact ⟨hfatal, hfree, horder, rfl, hsails.permit true⟩
    · rintro _ rfl
      refine ⟨rfl, ?_⟩
      rintro _ rfl
      rw [if_pos rfl]
      refine Pass.meets_look trivial ?_ ?_ ?_
      · rintro _ ⟨_, rfl⟩
        exact ⟨hfatal, fun _ he => (nomatch he), horder, rfl, hsails.permit true⟩
      · rintro info _ ⟨hnone | ⟨info', he, hinfo⟩, rfl⟩
        · exact nomatch hnone
        · obtain rfl := Except.ok.inj (Option.some.inj he)
          exact ⟨hfatal, fun _ he => Option.some.inj he ▸ hinfo, horder, rfl, hsails.permit true⟩
      · rintro e _ ⟨hnone | ⟨info, he, _⟩, _⟩
        · exact nomatch hnone
        · exact nomatch he

/-- The next upload is claimed, and started. -/
theorem Turns.upload (h : Turns ids n uploads true (j :: jobs) seen p m) :
    Meets (course ids) (fun r m' => ∃ c, r = .won c ∧
      Meets (course ids) (fun _ m'' => Turns ids n uploads false jobs seen p.uploading m'') never
        (Pass.call (.start c)) m')
      never (Pass.tryClaim j) m := by
  obtain ⟨hfatal, hfree, horder, hstage⟩ := h
  cases m with
  | alone s => exact nomatch hstage.1
  | uploading u =>
  obtain ⟨hholds, hhand, hopened, ⟨all, hlooks, hall, hsub⟩, hnodup, hahead, hlisted⟩ := hstage
  obtain ⟨hq, hp, r, hr, hc⟩ := hlooks.copies j (hsub j List.mem_cons_self)
  have hkey : ∃ id, j.key = .upload id := by
    have hj := hall j (hsub j List.mem_cons_self)
    cases hk : j.key with
    | upload id => exact ⟨id, rfl⟩
    | _ =>
      rw [hk] at hj
      exact nomatch hj
  obtain ⟨id, hkey⟩ := hkey
  have hid : id ∉ u.taken := fun hmem => hahead j List.mem_cons_self id hmem hkey
  obtain ⟨hother, hnodup'⟩ := List.nodup_cons.1 hnodup
  have hclaim : Meets (course ids).engine (fun o m' => ∃ c, o = some c ∧
      m' = .uploading { u with hand := some c, taken := id :: u.taken }) never (Queue.claim j)
        (.uploading u) := by
    refine Queue.meets_claim course_silent (fun hn => absurd hq hn) ?_
    rintro _ now _ hdate rfl
    refine ⟨⟨hhand, hp, id, now, r, hdate, rfl, hkey, hid, hr, hc⟩, ?_, ?_, ?_⟩
    · rintro _ ⟨_, id', hkey', rfl⟩ _ rfl
      obtain rfl := JobKey.upload.inj (hkey.symm.trans hkey')
      exact ⟨_, rfl, rfl⟩
    · rintro _ ⟨hfalse, _⟩
      exact nomatch hfalse
    · intro _ _ hf
      exact hf.elim
  refine Pass.meets_tryClaim hclaim ?_ ?_ (fun _ _ hf => hf.elim) (fun _ _ hf => hf.elim)
    fun _ _ hf => hf.elim
  · rintro c _ ⟨_, he, rfl⟩
    obtain rfl := Option.some.inj he
    refine ⟨c, rfl, Pass.meets_call.2 ⟨⟨rfl, hholds⟩, ?_⟩⟩
    rintro _ _ rfl
    refine ⟨hfatal, hfree, (List.pairwise_cons.1 horder).2, rfl, rfl, congrArg (· + 1) hopened, ?_,
      hnodup', ?_, ?_⟩
    · exact ⟨all, hlooks, hall, fun i hi => hsub i (List.mem_cons_of_mem _ hi)⟩
    · intro i hi id' hid' he
      rcases List.mem_cons.1 hid' with rfl | hid'
      · exact hother ((he.trans hkey.symm) ▸ List.mem_map_of_mem hi)
      · exact hahead i (List.mem_cons_of_mem _ hi) id' hid' he
    · intro id' hid'
      rcases hlisted id' hid' with hmem | ⟨i, hi, he⟩
      · exact .inl (List.mem_cons_of_mem _ hmem)
      · rcases List.mem_cons.1 hi with rfl | hi
        · exact .inl (JobKey.upload.inj (hkey.symm.trans he) ▸ List.mem_cons_self)
        · exact .inr ⟨i, hi, he⟩
  · rintro _ ⟨_, he, _⟩
    exact nomatch he

/-- The next scan or dispatch is claimed, and run. -/
theorem Turns.housekeeping (b : Backup) (hids : ∀ id ∈ ids, id ≠ "")
    (h : Turns ids n uploads false (j :: jobs) seen p m)
    (hj : j.key.isUpload = false) :
    Meets (course ids) (fun r m' => ∃ c, r = .won c ∧
      Meets (course ids).engine
        (fun state m'' => Turns ids n uploads false jobs seen (p.started.recorded state) m'') never
        (b.work c) m') never (Pass.tryClaim j) m := by
  obtain ⟨hfatal, hfree, horder, hstage⟩ := h
  have hk : j.key.isHousekeeping = true := by
    rw [Workers.isUpload_eq_not] at hj
    simpa using hj
  cases m with
  | uploading u =>
    obtain ⟨_, _, hall, hsub⟩ := hstage.2.looks
    have := hall j (hsub j List.mem_cons_self)
    rw [hj] at this
    exact nomatch this
  | alone s =>
    obtain ⟨_, hzero, hlooks⟩ := hstage
    have hclaim : Meets (course ids).engine (fun o m' => ∃ c t, o = some c ∧ m' = .alone t ∧
        Meets (Scene.alone ids) (fun _ v => Looks ids n uploads jobs v) Scene.never (b.work c) t)
          never (Queue.claim j)
        (.alone s) := by
      refine meets_alone (Meets.mono ?_ (fun _ _ hf => hf) (meets_turn b hids hlooks hk))
      rintro o t ⟨c, rfl, hwork⟩
      exact ⟨c, t, rfl, rfl, hwork⟩
    refine Pass.meets_tryClaim hclaim ?_ ?_ (fun _ _ hf => hf.elim) (fun _ _ hf => hf.elim)
      fun _ _ hf => hf.elim
    · rintro c _ ⟨_, t, he, rfl, hwork⟩
      obtain rfl := Option.some.inj he
      refine ⟨c, rfl, meets_alone (Meets.mono (fun state v hv => ?_) (fun _ _ hf => hf) hwork)⟩
      exact ⟨hfatal, hfree, (List.pairwise_cons.1 horder).2, rfl, hzero, hv⟩
    · rintro _ ⟨_, _, he, _⟩
      exact nomatch he

/-- The turns of the loop. -/
theorem loop (b : Backup) (hids : ∀ id ∈ ids, id ≠ "") :
    Pass.Loop (course ids) b (Turns ids n uploads false)
      (fun j jobs => Turns ids n uploads true (j :: jobs))
      (fun p m => ∃ seen, Turns ids n uploads false [] seen p m) never where
  ended h := ⟨_, h⟩
  deferred {j jobs seen p m} h hmet := by
    rw [j.constraints.satisfiedBy_of_isFree h.free] at hmet
    exact nomatch hmet
  housekeeping {j jobs seen p m} h _ hj := by
    refine Meets.mono ?_ (fun _ _ hf => hf) (h.housekeeping b hids hj)
    rintro _ m' ⟨c, rfl, hwork⟩
    exact Meets.mono (fun _ _ hv => hv) (fun _ _ hf => hf.elim) hwork
  permit {j jobs seen p m} h _ hj := h.permit hj
  returned {j jobs seen p m} h hmet := by
    rw [j.constraints.satisfiedBy_of_isFree h.free] at hmet
    exact nomatch hmet
  upload {j jobs seen p m} h _ := by
    refine Meets.mono ?_ (fun _ _ hf => hf) h.upload
    rintro _ m' ⟨c, rfl, hstart⟩
    exact hstart

/-! ## The end of the main line -/

/-- What the main line knows while it joins uploads. -/
structure Joins (ids : List String) (n : Nat) (uploads : List String) (left : Nat)
    (p : Pass.Progress) (m : Helm) : Prop where
  fatal : p.fatal = none
  stage : match m with
    | .alone s => left = 0 ∧ Looks ids n uploads [] s
    | .uploading u => u.holds = false ∧ Sails ids n uploads [] left u

/-- After the last turn every upload is still to be joined. -/
theorem Turns.joins {seen : Option NetworkInfo} {p : Pass.Progress} {m : Helm}
    (h : Turns ids n uploads false [] seen p m) :
    Joins ids n uploads p.uploads p m := by
  refine ⟨h.fatal, ?_⟩
  have hstage := h.stage
  cases m with
  | alone s => exact hstage.2
  | uploading u => exact hstage

/-- The loop that joins the uploads. -/
theorem Joins.meets_joinUploads {left : Nat} (h : Joins ids n uploads left p m) :
    Meets (course ids) (Joins ids n uploads 0) never (Pass.joinUploads left p) m := by
  refine Pass.meets_joinUploads (fun {left q m'} hq => ?_) h
  obtain ⟨hfatal, hstage⟩ := hq
  cases m' with
  | alone s => exact absurd hstage.1 (Nat.succ_ne_zero left)
  | uploading u =>
    obtain ⟨hholds, hhand, hopened, hlooks, hnodup, hahead, hlisted⟩ := hstage
    refine ⟨?_, ?_⟩
    · show u.opened ≠ 0
      rw [hopened]
      exact Nat.succ_ne_zero left
    · rintro _ _ ⟨rfl, rfl⟩
      refine ⟨hfatal, hholds, hhand, ?_, hlooks, hnodup, hahead, hlisted⟩
      show u.opened - 1 = left
      rw [hopened]
      rfl

/-- How the main line of a pass ends: without an error, and with nothing left to run or to join. -/
def Ends (ids : List String) (n : Nat) (r : Except Stop PassReport) (m : Helm) : Prop :=
  ∃ report uploads p, r = .ok report ∧ Joins ids n uploads 0 p m

/-- The main line of a pass keeps to its course. -/
theorem run_keeps (b : Backup) (hids : ∀ id ∈ ids, id ≠ "") (hn : n ≤ 2) (h : Rested ids (n + 1) s) :
    (ExceptT.run (Pass.run b)).Keeps (course ids) (Ends ids (n + 1)) (.alone s) := by
  suffices hmeets :
    Meets (course ids) (fun _ m => ∃ uploads p, Joins ids (n + 1) uploads 0 p m) never (Pass.run b)
      (.alone s) by
    refine Keeps.mono ?_ hmeets
    rintro (e | report) m he
    · exact he.elim
    · obtain ⟨uploads, p, hjoins⟩ := he
      exact ⟨report, uploads, p, rfl, hjoins⟩
  refine Pass.meets_run (fun p m => ∃ uploads, Joins ids (n + 1) uploads p.uploads p m)
    (fun p m => ∃ uploads, Joins ids (n + 1) uploads 0 p m) ?_ (fun p m hp => ?_) fun q m hq => ?_
  · refine meets_alone (meets_promote h.fit fun promoted t hl ht hp => ?_)
    obtain ⟨htidy, hrested⟩ := h.promoted hl ht hp
    refine meets_alone (meets_due htidy.fit htidy.timely fun due v hl hj hlist => ?_)
    have hlooks := hrested.looks hn htidy hl hj hlist
    refine ⟨fun hempty => ?_, fun _ => ?_⟩
    · rw [hempty] at hlooks
      exact ⟨_, ⟨default, 0, none⟩, rfl, rfl, hlooks⟩
    -- a network that nobody sees, or one that is free, defers nothing
    have hturns : ∀ seen : Option NetworkInfo, (∀ info, seen = some info → info.IsFree) →
        Meets (course ids) (fun p m => ∃ uploads, Joins ids (n + 1) uploads p.uploads p m) never
          (Pass.runJobs b due.jobs seen
          ⟨{ (default : PassReport) with promoted := promoted, quarantined := due.quarantined }, 0,
            none⟩) (.alone v) := by
      intro seen hfree
      refine Meets.mono (fun p m hp => ?_) (fun _ _ hf => hf)
        ((loop b hids).meets_runJobs ⟨rfl, hfree, hlist.arranged.pairwise, rfl, rfl, hlooks⟩)
      obtain ⟨_, hturns⟩ := hp
      exact ⟨_, hturns.joins⟩
    refine Pass.meets_look trivial ?_ ?_ ?_
    · rintro _ ⟨t, hx, rfl⟩
      obtain rfl : t = v := hx.1
      exact hturns none fun _ he => absurd he.symm (Option.some_ne_none _)
    · rintro info _ ⟨t, hx, rfl⟩
      obtain rfl : t = v := hx.1
      rcases hx.2 with hnone | ⟨info', he, hinfo⟩
      · exact absurd hnone (Option.some_ne_none _)
      · obtain rfl := Except.ok.inj (Option.some.inj he)
        exact hturns (some info) fun _ he => Option.some.inj he ▸ hinfo
    · rintro e _ ⟨t, hx, rfl⟩
      rcases hx.2 with hnone | ⟨info', he, _⟩
      · exact absurd hnone (Option.some_ne_none _)
      · injection he with he
        injection he
  · obtain ⟨uploads, hjoins⟩ := hp
    exact Meets.mono (fun q m' hq => ⟨uploads, hq⟩) (fun _ _ hf => hf) hjoins.meets_joinUploads
  · obtain ⟨uploads, hjoins⟩ := hq
    refine ⟨fun _ => ⟨uploads, q, hjoins⟩, fun e he => ?_⟩
    exact absurd (he.symm.trans hjoins.fatal) (Option.some_ne_none _)

end Helm

end MediaBackup
