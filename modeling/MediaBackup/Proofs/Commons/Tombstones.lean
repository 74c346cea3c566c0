import MediaBackup.Proofs.Commons.Kept
import MediaBackup.Proofs.Recovery.Rows

/-
  Tombstones are for good.

  The row of an upload that was given up for good is the only memory that its item must not be sent again.  No
  mild statement touches it (`IsMild.effect_tombstone`): replacing compares the reason with that of a job that
  was replaceable, changing compares the state with that of a job that waits or runs, and pruning passes over it.
  So it stays as it is, whatever is undertaken and however old the copies are that it goes by.

  One key is special.  The row of an item without a name is under a key that cannot be read, so it may be
  given up as corrupt at any time; but such a row never becomes a tombstone (`IsMild.not_tombstone`).
-/

namespace MediaBackup

open Script Workers

/-- The text of an upload's key looks like one. -/
theorem JobRow.looksLikeUpload_text (id : String) : looksLikeUpload (JobKey.upload id).text = true := by
  unfold looksLikeUpload
  rw [JobKey.toList_text_upload, List.map_append, List.isPrefixOf_iff_prefix]
  have htag : JobKey.uploadTag.toList.map Text.lowerAsciiChar = JobKey.uploadTag.toList := by decide
  rw [htag]
  exact List.prefix_append _ _

namespace JobStatement

variable {st : JobStatement} {id : String} {row : JobRow}

/-- A job that was replaceable is not the one of the tombstone of its key. -/
theorem not_isObserved_of_isTombstone (hkey : row.key = (JobKey.upload id).text) (ht : row.IsTombstone) {j : Job}
    (hj : j.isReplaceable = true) : row.isObserved j = false := by
  refine eq_false_of_ne_true fun hobserved => ?_
  obtain ⟨hk, hs, _, hr⟩ := JobRow.isObserved_iff.1 hobserved
  have hupload : j.key = .upload id := JobKey.text_injective (hk.symm.trans hkey)
  have hstate : j.state = .abandoned := JobState.name_injective (hs.symm.trans ht.1)
  have hreason : j.abandonReason = some .permanent :=
    AbandonReason.map_name_injective (b := some .permanent) (hr.symm.trans ht.2)
  have htomb : j.isTombstone = true := isTombstone_iff.2 ⟨hstate, hreason, hupload ▸ rfl⟩
  unfold Job.isReplaceable at hj
  rw [hstate, htomb] at hj
  exact nomatch hj

/-- A job that waits or runs is not the one of a tombstone. -/
theorem not_isCurrent_of_isTombstone (ht : row.IsTombstone) {j : Job}
    (hj : j.state = .queued ∨ j.state = .running) : row.isCurrent j = false := by
  refine eq_false_of_ne_true fun hcurrent => ?_
  have hstate : j.state = .abandoned :=
    JobState.name_injective ((JobRow.isCurrent_iff.1 hcurrent).2.1.symm.trans ht.1)
  rw [hstate] at hj
  rcases hj with h | h <;> exact nomatch h

/-- Tombstones are not pruned, whatever the retention. -/
theorem not_isPrunable_of_isTombstone (hkey : row.key = (JobKey.upload id).text) (ht : row.IsTombstone)
    (limit : Instant) : row.isPrunable limit = false := by
  have hlooks : JobRow.looksLikeUpload row.key = true := hkey ▸ JobRow.looksLikeUpload_text id
  obtain ⟨hstate, hreason⟩ := ht
  unfold JobRow.isPrunable
  rw [hstate, hreason, hlooks]
  exact Bool.and_eq_false_iff.2 (.inr rfl)

/-- No mild statement touches a tombstone. -/
theorem IsMild.effect_tombstone (h : st.IsMild) (hid : id ≠ "") (hkey : row.key = (JobKey.upload id).text)
    (ht : row.IsTombstone) : st.effect (JobKey.upload id).text (some row) = some row := by
  cases st with
  | insertIfAbsent job => rfl
  | replaceIf job observed =>
    obtain ⟨_, hsame, hreplaceable⟩ := h
    have hcopy : ({ observed with key := job.key } : Job) = observed := by rw [← hsame]
    show some (if row.isObserved { observed with key := job.key } then _ else row) = _
    rw [hcopy, not_isObserved_of_isTombstone hkey ht hreplaceable]
    rfl
  | updateIf observed change =>
    show some (if row.isCurrent observed then _ else row) = _
    rw [not_isCurrent_of_isTombstone ht h.2]
    rfl
  | quarantine key reason now =>
    show some (if row.key == key then _ else row) = _
    -- the key of an item with a name can be read
    have hne : (row.key == key) = false := by
      refine beq_eq_false_iff_ne.2 fun he => ?_
      have hproper : (JobKey.upload id).IsProper := fun e => hid (JobKey.upload.inj e)
      have hparse : JobKey.parse? key = some (.upload id) := by
        rw [← he, hkey]
        exact JobKey.parse?_text hproper
      exact nomatch hparse.symm.trans h
    rw [hne]
    rfl
  | promote now =>
    have hwaits : row.isPromotable now = false :=
      eq_false_of_ne_true fun hp => absurd ((JobRow.isPromotable_iff.1 hp).1.symm.trans ht.1) (by decide)
    show some (if row.isPromotable now then _ else row) = _
    rw [hwaits]
    rfl
  | resetRunning now =>
    have hruns : (row.state == "running") = false := by
      rw [ht.1]
      decide
    show some (if row.state == "running" then _ else row) = _
    rw [hruns]
    rfl
  | deleteTerminal limit =>
    show (some row).filter (fun r => !r.isPrunable limit) = some row
    refine Option.filter_some_pos ?_
    rw [not_isPrunable_of_isTombstone hkey ht]
    rfl
  | find key => rfl
  | listDue now => rfl
  | count state => rfl

theorem not_isTombstone_of_ne (h : row.state ≠ JobState.abandoned.name) : ¬ row.IsTombstone := fun ht => h ht.1

/-- No mild statement makes a tombstone of the row of the item without a name. -/
theorem IsMild.not_tombstone (h : st.IsMild) {o : Option JobRow}
    (ho : ∀ r, o = some r → r.key = (JobKey.upload "").text ∧ ¬ r.IsTombstone) {r : JobRow}
    (hr : st.effect (JobKey.upload "").text o = some r) : ¬ r.IsTombstone := by
  have hname : JobState.queued.name ≠ JobState.abandoned.name := by decide
  have hexhausted : some AbandonReason.exhausted.name ≠ some AbandonReason.permanent.name := by decide
  have hqueued : ∀ j : Job, j.state = .queued → ¬ (JobRow.ofJob j).IsTombstone := by
    intro j hj
    refine not_isTombstone_of_ne ?_
    show j.state.name ≠ _
    rw [hj]
    exact hname
  -- what changes rows in place leaves a row as it is, or makes a row of it that is none either
  have hmap : ∀ (p : JobRow → Bool) (f : JobRow → JobRow),
      (o.map fun q => if p q then f q else q) = some r →
      (∀ q, q.key = (JobKey.upload "").text → p q = true → ¬ (f q).IsTombstone) → ¬ r.IsTombstone := by
    intro p f hmap hf
    obtain ⟨q, hq, rfl⟩ := Option.map_eq_some_iff.1 hmap
    split
    · rename_i hp
      exact hf q (ho q hq).1 hp
    · exact (ho q hq).2
  cases st with
  | insertIfAbsent job =>
    rcases Option.or_eq_some_iff.1 hr with hr | ⟨_, hr⟩
    · exact (ho r hr).2
    · obtain ⟨_, hr⟩ := Option.ite_none_right_eq_some.1 hr
      exact Option.some.inj hr ▸ hqueued job h
  | replaceIf job observed => exact hmap _ _ hr fun _ _ _ => hqueued job h.1
  | updateIf observed change =>
    refine hmap _ _ hr fun q hq hcurrent => absurd ?_ h.1
    exact JobKey.text_injective ((JobRow.key_of_isCurrent hcurrent).symm.trans hq)
  | quarantine key reason now => exact hmap _ _ hr fun q _ _ ht => hexhausted ht.2
  | promote now => exact hmap _ _ hr fun q _ _ => not_isTombstone_of_ne hname
  | resetRunning now => exact hmap _ _ hr fun q _ _ => not_isTombstone_of_ne hname
  | deleteTerminal limit => exact (ho r (Option.filter_eq_some_iff.1 hr).1).2
  | find key => exact (ho r hr).2
  | listDue now => exact (ho r hr).2
  | count state => exact (ho r hr).2

end JobStatement

namespace Commons

variable {b : Backup} {s t : Scene} {c d : Commons} {id : String} {row : JobRow}

/-- The item without a name has no tombstone. -/
def NamelessLives (s : Scene) : Prop := ∀ row, s.jobs.at? (.upload "") = some row → ¬ row.IsTombstone

theorem NamelessLives.writes (h : NamelessLives s) (hs : s.jobs.IsSound) (hw : Writes s t) : NamelessLives t := by
  intro row hrow
  unfold JobTable.at? at hrow
  rcases hw.jobs with he | ⟨st, _, hmild, he⟩
  · rw [he] at hrow
    exact h row hrow
  · rw [he, JobTable.row?_run hs.keyed] at hrow
    exact hmild.not_tombstone (fun r hr => ⟨JobTable.key_of_row? hr, h r hr⟩) hrow

theorem tombstone_writes (hs : s.jobs.IsSound) (hid : id ≠ "") (hrow : s.jobs.at? (.upload id) = some row)
    (ht : row.IsTombstone) (hw : Writes s t) : t.jobs.at? (.upload id) = some row := by
  unfold JobTable.at? at hrow ⊢
  rcases hw.jobs with he | ⟨st, _, hmild, he⟩
  · rw [he]
    exact hrow
  · rw [he, JobTable.row?_run hs.keyed, hrow]
    exact hmild.effect_tombstone hid (JobTable.key_of_row? hrow) ht

/-- A table whose rows can all be read has no row under a key that cannot be read. -/
theorem namelessLives_of_legible (h : s.jobs.Legible) : NamelessLives s := by
  intro row hrow
  obtain ⟨j, hj, hkey⟩ := h.says_at hrow
  exact absurd hkey hj.isProper

/-- **Tombstones are for good.**  From tables whose jobs can all be read on, once an upload was given up for good its
    row stays as it is, whatever is undertaken. -/
theorem Reaches.keeps_tombstone (hkeyed : s.jobs.Keyed) (hrows : ∀ r ∈ s.jobs, ∃ j, r.job = .ok j)
    (hc : Reaches b (still s) c) (hrow : c.scene.jobs.at? (.upload id) = some row) (ht : row.IsTombstone)
    (hd : Reaches b c d) : d.scene.jobs.at? (.upload id) = some row := by
  have hlegible : s.jobs.Legible := by
    refine JobTable.legible_of_says hkeyed fun r hr => ?_
    obtain ⟨j, hj⟩ := hrows r hr
    exact ⟨j, JobRow.job_eq_ok_iff.1 hj⟩
  obtain ⟨hkept, hlives⟩ := hc.preserves (fun _ _ hs hw h => NamelessLives.writes h hs hw)
    (kept_still hlegible.toIsSound) (namelessLives_of_legible hlegible)
  have hid : id ≠ "" := fun e => hlives row (e ▸ hrow) ht
  exact (hd.preserves (fun _ _ hs hw h => tombstone_writes hs hid h ht hw) hkept hrow).2

/-! ## A late request -/

/-- An upload that was given up after its first attempt, but not for good. -/
def exhaustedUpload : Job :=
  { Job.fresh (.upload "a" .network) .epoch with
    state := .abandoned, attempt := 1, lastError := some "timeout: late", abandonReason := some .exhausted }

def freshUpload : Job := Job.fresh (.upload "a" .network) .epoch

def startedUpload : Job := { freshUpload with state := .running, attempt := 1 }

/-- The server does not want the item. -/
def rejection : Failure := ⟨.remoteRejected, "HTTP 404"⟩

/-- The upload given up for good: state and count of attempts are those of the one that was given up before. -/
def rejectedUpload : Job :=
  { startedUpload with state := .abandoned, lastError := some rejection.text, abandonReason := some .permanent }

/-- The scene with the row of one job. -/
def sceneOf (j : Job) : Scene := ⟨[.ofJob j], [], .epoch, [], [], []⟩

theorem exhaustedUpload_read : (JobRow.ofJob exhaustedUpload).job = .ok exhaustedUpload := by
  have hdate : Instant.epoch.IsDate := by decide
  have hproper : exhaustedUpload.IsProper := ⟨JobState.noConfusion, by decide, hdate, hdate, hdate⟩
  exact JobRow.job_eq_ok_iff.2 (JobRow.ofJob_says hproper (by decide))

/-- A request reads the row of an upload that was given up.  Before it writes, another one is granted, and the fresh
    upload is claimed and given up for good.  Then the first request goes on. -/
theorem exists_late_request : ∃ c d : Commons, Reaches photos (still (sceneOf exhaustedUpload)) c ∧
    Reaches photos c d ∧ c.scene = sceneOf rejectedUpload ∧ c.tasks.length = 1 := by
  have hdate : Instant.epoch.IsDate := by decide
  have hkey : (JobKey.upload "a").IsProper := by decide
  have hfresh : freshUpload.IsProper := ⟨JobState.noConfusion, by decide, hdate, hdate, hdate⟩
  have hstarted : startedUpload.IsProper := ⟨JobState.noConfusion, by decide, hdate, hdate, hdate⟩
  have hread : some (JobRow.ofJob exhaustedUpload).decode = some (.valid exhaustedUpload) :=
    congrArg some (JobRow.decode_eq_valid_iff.2 (JobRow.job_eq_ok_iff.1 exhaustedUpload_read))
  let request : Undertaking := .operation (.enqueue (.upload "a" .network))
  let change : Change := ⟨.abandoned, 1, .epoch, some rejection.text, some .permanent, .epoch⟩
  have h₀ : Reaches photos (still (sceneOf exhaustedUpload)) (still (sceneOf exhaustedUpload)) := .refl
  -- the first request reads the row
  have h₁ := ((h₀.begin request trivial).call Instant.epoch (sceneOf exhaustedUpload) ⟨hdate, rfl⟩).call
    (c := .jobs (.find (JobKey.upload "a").text)) (.ok (some (.valid exhaustedUpload)))
    (sceneOf exhaustedUpload) ⟨hread.symm, rfl⟩
  -- the second one is granted
  have h₂ := ((h₁.begin request trivial).call Instant.epoch (sceneOf exhaustedUpload) ⟨hdate, rfl⟩).call
    (c := .jobs (.find (JobKey.upload "a").text)) (.ok (some (.valid exhaustedUpload)))
    (sceneOf exhaustedUpload) ⟨hread.symm, rfl⟩
  have h₃ := ((h₂.call (c := .jobs (.replaceIf freshUpload exhaustedUpload)) (.ok true) (sceneOf freshUpload)
    ⟨rfl, rfl⟩).call () _ rfl).leave
  -- the fresh upload is claimed and given up for good
  have h₄ := (((h₃.begin (.operation (.claim freshUpload)) ⟨hfresh, hkey⟩).call Instant.epoch _
    ⟨hdate, rfl⟩).call (c := .jobs (.updateIf freshUpload (freshUpload.claimChange .epoch))) (.ok true)
    (sceneOf startedUpload) ⟨rfl, rfl⟩).call () _ rfl
  have h₅ := ((h₄.leave.begin (.operation (.complete startedUpload (.permanent rejection)))
    ⟨hstarted, hkey⟩).call Instant.epoch _ ⟨hdate, rfl⟩).call
    (c := .jobs (.updateIf startedUpload change)) (.ok true) (sceneOf rejectedUpload) ⟨rfl, rfl⟩
  have h₆ := ((h₅.call () _ rfl).call () _ rfl).leave
  -- the first request goes on, and is refused
  refine ⟨_, _, h₆, .single (Step.call_first (c := .jobs (.replaceIf freshUpload exhaustedUpload)) (.ok false)
    (sceneOf rejectedUpload) ?_), rfl, rfl⟩
  exact ⟨rfl, rfl⟩

/-- The late request finds nothing to replace. -/
theorem keeps_tombstone_late_request : ∃ c d : Commons,
    Reaches photos (still (sceneOf exhaustedUpload)) c ∧ c.scene = sceneOf rejectedUpload ∧
      c.tasks.length = 1 ∧ Reaches photos c d ∧
      d.scene.jobs.at? (.upload "a") = some (.ofJob rejectedUpload) := by
  obtain ⟨c, d, hc, hd, hscene, htasks⟩ := exists_late_request
  have hkeyed : (sceneOf exhaustedUpload).jobs.Keyed := List.pairwise_singleton _ _
  have hrows : ∀ r ∈ (sceneOf exhaustedUpload).jobs, ∃ j, r.job = .ok j :=
    fun r hr => List.mem_singleton.1 hr ▸ ⟨_, exhaustedUpload_read⟩
  have hrow : c.scene.jobs.at? (.upload "a") = some (.ofJob rejectedUpload) := by
    rw [hscene]
    rfl
  exact ⟨c, d, hc, hscene, htasks, hd,
    Reaches.keeps_tombstone hkeyed hrows hc hrow ⟨rfl, rfl⟩ hd⟩

end Commons

end MediaBackup
