import MediaBackup.Proofs.Life.Afloat

/-
  Scenes where no upload is under way.

  `Ashore` is what holds between passes and while a pass looks after its housekeeping: every item is in balance
  without any credit.  A pass puts uploads under way by claims (`Afloat.board`), and lets them leave when they are
  over (`Afloat.leave`).  When none is left and none was lost the scene is ashore again; an interruption brings it
  there at once, at the price of one more (`Afloat.interrupt`).
-/

namespace MediaBackup

/-- Every item is in balance, and no upload is under way. -/
structure Ashore (interrupted : Nat) (s : Scene) : Prop where
  sound : s.jobs.IsSound
  keyed : s.items.Keyed
  balance : ∀ id, s.Balanced interrupted False id

namespace Afloat

variable {u : UploadSettings} {interrupted : Nat} {s : Scene} {legs ls ks : List Leg} {l : Leg}
  {lost : List String}

/-- An interruption costs one. -/
theorem interrupt (h : Afloat u interrupted s legs lost) : Ashore (interrupted + 1) s :=
  ⟨h.sound, h.keyed, fun id => (h.balance id).interrupt⟩

/-- The last upload is over. -/
theorem ashore (h : Afloat u interrupted s [] []) : Ashore interrupted s := by
  refine ⟨h.sound, h.keyed, fun id => (h.balance id).mono ?_⟩
  rintro (hi | ⟨l, hl, _⟩)
  · exact List.not_mem_nil hi
  · exact List.not_mem_nil hl

/-- An upload that is over leaves. -/
theorem leave (h : Afloat u interrupted s (ls ++ l :: ks) lost) (hl : ¬ l.IsOpen) :
    Afloat u interrupted s (ls ++ ks) lost where
  sound := h.sound
  keyed := h.keyed
  stands k hk := h.stands k (mem_append_cons_of_mem hk)
  apart := h.apart.sublist (List.Sublist.append_left (List.sublist_cons_self l ks) ls)
  safe k hk := h.safe k (mem_append_cons_of_mem hk)
  still := h.still
  balance id := by
    refine (h.balance id).mono ?_
    rintro (hi | ⟨k, hk, hid, hc⟩)
    · exact .inl hi
    · rcases mem_append_cons hk with hk | rfl
      · exact .inr ⟨k, hk, hid, hc⟩
      · exact absurd hc.isOpen hl

/-! ## Claims -/

theorem not_isCurrent_of_isOpen (h : Afloat u interrupted s legs lost) {j : Job}
    (hj : j.state = .queued) (hl : l ∈ legs)
    (ho : l.IsOpen) {r : JobRow} (hr : s.jobs.upload? l.id = some r) : ¬ r.isCurrent j = true := by
  intro hc
  obtain ⟨r', hr', _, hrun⟩ := (h.stands l hl).running_row ho
  obtain rfl := Option.some.inj (hr.symm.trans hr')
  have hq := (JobRow.isCurrent_iff.1 hc).2.1
  rw [hrun, hj] at hq
  exact absurd hq (by decide)

/-- A claim changes no upload that is under way, and no account. -/
theorem claim (h : Afloat u interrupted s legs lost) {id : String} {j : Job} (hkey : j.key = .upload id)
    (hj : j.state = .queued) {change : Change} (hproper : change.IsProper)
    (hrun : change.state = .running) :
    Afloat u interrupted { s with jobs := ((JobStatement.updateIf j change).run s.jobs).2 } legs lost := by
  have hother : ∀ id', id' ≠ id →
      JobTable.upload? ((JobStatement.updateIf j change).run s.jobs).2 id' = s.jobs.upload? id' :=
    fun id' hne => JobTable.upload?_updateIf_of_ne h.sound.keyed hkey hne change
  have hself : JobTable.upload? ((JobStatement.updateIf j change).run s.jobs).2 id =
      (s.jobs.upload? id).map fun r => if r.isCurrent j then r.apply change else r :=
    JobTable.upload?_run h.sound.keyed _ _
  have hnot : ∀ r : JobRow, (r.apply change).state = JobState.running.name :=
    fun _ => congrArg JobState.name hrun
  refine ⟨JobTable.isSound_run h.sound hproper, h.keyed, fun l hl => ?_, h.apart, h.safe,
    fun id' hi => ?_, fun id' => ?_⟩
  · refine (h.stands l hl).onward (fun ho r hr _ => ?_) (fun _ _ he => he) (fun _ => Nat.le_refl _)
      fun _ hu => hu
    show JobTable.upload? ((JobStatement.updateIf j change).run s.jobs).2 l.id = some r
    rw [JobTable.upload?_run h.sound.keyed, hr]
    show some (if r.isCurrent j then r.apply change else r) = some r
    rw [if_neg (h.not_isCurrent_of_isOpen hj hl ho hr)]
  · obtain ⟨hnamed, hw⟩ := h.still id' hi
    refine ⟨hnamed, ?_⟩
    by_cases hid : id' = id
    · subst hid
      intro r' hr'
      replace hr' := hself.symm.trans hr'
      obtain ⟨r, hr, rfl⟩ := Option.map_eq_some_iff.1 hr'
      split
      · exact JobRow.not_waits_of_running (hnot r)
      · exact hw r hr
    · intro r hr
      exact hw r ((hother id' hid).symm.trans hr)
  · by_cases hid : id' = id
    · subst hid
      cases hr : s.jobs.upload? id' with
      | none =>
        rw [hr] at hself
        exact (h.balance id').same (hself.trans hr.symm) rfl rfl
      | some r =>
        rw [hr, Option.map_some] at hself
        by_cases hc : r.isCurrent j = true
        · rw [if_pos hc] at hself
          refine (h.balance id').setRow ((h.balance id').known r hr) ?_ fun hn _ => ⟨hn, fun hs => ?_⟩
          · intro r' hr' hs'
            obtain rfl := Option.some.inj (hself.symm.trans hr')
            rw [hnot r] at hs'
            exact absurd hs' (by decide)
          · have hq := (JobRow.isCurrent_iff.1 hc).2.1
            rw [hj] at hq
            exact (hs.2 r hr).not_waits (.inl hq)
        · rw [if_neg hc] at hself
          exact (h.balance id').same (hself.trans hr.symm) rfl rfl
    · exact (h.balance id').same (hother id' hid) rfl rfl

/-- A claim that is won puts an upload under way. -/
theorem board (h : Afloat u interrupted s legs lost) {id : String} {j : Job}
    (hkey : j.key = .upload id) (hid : id ≠ "")
    (hj : j.IsProper) (hq : j.state = .queued) {change : Change} (hproper : change.IsProper)
    (hrun : change.state = .running) (hwon : ((JobStatement.updateIf j change).run s.jobs).1 = true) :
    Afloat u interrupted { s with jobs := ((JobStatement.updateIf j change).run s.jobs).2 }
      (legs ++ [⟨id, j.claimed change, .idle⟩]) lost := by
  have hclaim := h.claim hkey hq hproper hrun
  rw [JobTable.answer_updateIf h.sound.keyed, hkey] at hwon
  obtain ⟨r, hr, hc⟩ := (Option.any_eq_true _ _).1 hwon
  have hrow := JobTable.upload?_updateIf h.sound.keyed hr hc change
  have hwaits : r.Waits := .inl (hq ▸ (JobRow.isCurrent_iff.1 hc).2.1)
  have hnew : ∀ l ∈ legs, l.IsOpen → l.id ≠ id := by
    rintro l hl ho rfl
    exact h.not_isCurrent_of_isOpen hq hl ho hr hc
  refine ⟨hclaim.sound, hclaim.keyed, fun l hl => ?_, ?_, fun l hl ho => ?_, hclaim.still, fun id' => ?_⟩
  · rcases List.mem_append.1 hl with hl | hl
    · exact hclaim.stands l hl
    · obtain rfl := List.mem_singleton.1 hl
      refine ⟨hkey, hid, hj.claimed hproper, hrun, fun _ => ⟨_, hrow, ?_⟩, fun _ _ e => (nomatch e),
        fun e => (nomatch e),
        fun e => (nomatch e)⟩
      exact JobRow.isCurrent_iff.2 ⟨JobRow.key_of_isCurrent (r := r) (j := j) hc, rfl, rfl⟩
  · refine List.pairwise_append.2 ⟨hclaim.apart, List.pairwise_singleton _ _, fun l hl l' hl' ho _ => ?_⟩
    obtain rfl := List.mem_singleton.1 hl'
    exact hnew l hl ho
  · rcases List.mem_append.1 hl with hl | hl
    · exact hclaim.safe l hl ho
    · obtain rfl := List.mem_singleton.1 hl
      exact fun hi => (h.still id hi).2 r hr hwaits
  · refine (hclaim.balance id').mono ?_
    rintro (hi | ⟨l, hl, hlid, hcr⟩)
    · exact .inl hi
    · exact .inr ⟨l, List.mem_append_left _ hl, hlid, hcr⟩

end Afloat

/-- The statement puts an upload of one of these items into the queue. -/
def JobStatement.Requests (pending : String → Prop) : JobStatement → Prop
  | insertIfAbsent job | replaceIf job _ => job.state = .queued ∧ ∃ id, job.key = .upload id ∧ pending id
  | _ => False

/-- A request changes only the row of its item, to one that waits. -/
theorem JobStatement.Requests.effect {pending : String → Prop} {s : JobStatement}
    (h : s.Requests pending) {id : String}
    {o : Option JobRow} (ho : ∀ r, o = some r → r.key = (JobKey.upload id).text) :
    s.effect (JobKey.upload id).text o = o ∨
      (pending id ∧ ∃ r, s.effect (JobKey.upload id).text o = some r ∧ r.state = JobState.queued.name) := by
  cases s with
  | insertIfAbsent job =>
    obtain ⟨hq, id', hkey, hp⟩ := h
    cases o with
    | some r => exact .inl rfl
    | none =>
      show (if job.key.text = _ then some (JobRow.ofJob job) else none) = none ∨ _
      by_cases hk : job.key.text = (JobKey.upload id).text
      · rw [hkey] at hk
        obtain rfl := JobKey.upload.inj (JobKey.text_injective hk)
        refine .inr ⟨hp, JobRow.ofJob job, ?_, congrArg JobState.name hq⟩
        show (if job.key.text = _ then some (JobRow.ofJob job) else none) = _
        rw [hkey, if_pos rfl]
      · exact .inl (if_neg hk)
  | replaceIf job observed =>
    obtain ⟨hq, id', hkey, hp⟩ := h
    cases o with
    | none => exact .inl rfl
    | some r =>
      by_cases hob : r.isObserved { observed with key := job.key } = true
      · have hk : (JobKey.upload id).text = job.key.text :=
          (ho r rfl).symm.trans (JobRow.key_of_isObserved (j := { observed with key := job.key }) hob)
        rw [hkey] at hk
        obtain rfl := JobKey.upload.inj (JobKey.text_injective hk)
        exact .inr ⟨hp, JobRow.ofJob job, congrArg some (if_pos hob), congrArg JobState.name hq⟩
      · exact .inl (congrArg some (if_neg hob))
  | _ => exact h.elim

namespace Ashore

variable {u : UploadSettings} {interrupted : Nat} {s t : Scene}

theorem afloat (h : Ashore interrupted s) : Afloat u interrupted s [] [] where
  sound := h.sound
  keyed := h.keyed
  stands _ hl := absurd hl List.not_mem_nil
  apart := .nil
  safe _ hl := absurd hl List.not_mem_nil
  still _ hi := absurd hi List.not_mem_nil
  balance id := (h.balance id).mono False.elim

/-- The clock, the reports and the exchanges do not matter. -/
theorem same (h : Ashore interrupted s) (hj : t.jobs = s.jobs) (hi : t.items = s.items)
    (ha : t.acknowledged = s.acknowledged) : Ashore interrupted t := by
  refine ⟨hj ▸ h.sound, hi ▸ h.keyed, fun id => (h.balance id).same ?_ ?_ (congrArg (List.count id) ha)⟩
  · rw [hj]
  · rw [hi]

/-- What becomes tamely of the table of jobs keeps the scene ashore. -/
theorem tame (h : Ashore interrupted s) {jobs : JobTable} (hs : jobs.IsSound) (ht : s.jobs.Tame jobs) :
    Ashore interrupted { s with jobs := jobs } := ⟨hs, h.keyed, fun id => (h.balance id).tame (ht id)⟩

/-- So does a request for items that are known and not uploaded. -/
theorem request (h : Ashore interrupted s) {st : JobStatement} (hproper : st.IsProper)
    (hr : st.Requests fun id => s.items.Knows id ∧ ¬ s.items.Uploaded id) :
    Ashore interrupted { s with jobs := (st.run s.jobs).2 } := by
  refine ⟨JobTable.isSound_run h.sound hproper, h.keyed, fun id => ?_⟩
  have hrow := JobTable.upload?_run h.sound.keyed st id
  rcases hr.effect (fun _ hk => JobTable.key_of_upload? hk) with he | ⟨⟨hk, hu⟩, r, he, hq⟩
  · exact (h.balance id).same (hrow.trans he) rfl rfl
  · refine (h.balance id).setRow hk (fun r' hr' hs' => ?_) fun hn _ => ⟨hn, fun hs => hu hs.1⟩
    obtain rfl := Option.some.inj ((hrow.trans he).symm.trans hr')
    rw [hq] at hs'
    exact absurd hs' (by decide)

end Ashore

end MediaBackup
