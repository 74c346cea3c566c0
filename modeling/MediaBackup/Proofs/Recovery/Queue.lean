import MediaBackup.Proofs.Queue.Rounds
import MediaBackup.Proofs.Queue.Rules
import MediaBackup.Proofs.Recovery.Rows
import MediaBackup.Queue.Due

/-
  The operations of the queue, each run alone in a world in which nothing fails.

  A scene is FIT if all its rows can be read and its items have names.  On a fit scene no operation is refused: a
  request keeps the row that covers it or sets a fresh one, a claim of a copy that is current sets its row running, and
  a completion of a job that runs writes its verdict.
-/

namespace MediaBackup

namespace Scene

open Script Workers

/-- All rows can be read, those of items as far as anybody reads them, and all items have a name. -/
structure Fit (s : Scene) : Prop where
  jobs : s.jobs.Legible
  items : s.items.Keyed
  readable : ∀ id r, s.items.row? id = some r → r.uploadedAt = none → ∃ i, r.item = .ok i
  named : ∀ id, s.items.Knows id → id ≠ ""
  clock : s.clock.IsDate

/-- Time went by, and at most the table of jobs was changed. -/
structure Later (s t : Scene) : Prop where
  items : t.items = s.items
  le : s.clock.nanos ≤ t.clock.nanos
  clock : t.clock.IsDate

/-- Time went by, and the row of a key was set. -/
structure Writes (k : JobKey) (r : JobRow) (s t : Scene) : Prop extends Later s t where
  sets : s.jobs.Sets k r t.jobs
  legible : t.jobs.Legible

variable {ids : List String} {s t : Scene} {bad : Stop → Scene → Prop}

theorem Fit.later (h : s.Fit) (hl : Later s t) (hj : t.jobs.Legible) : t.Fit := by
  refine ⟨hj, hl.items ▸ h.items, ?_, ?_, hl.clock⟩
  · rw [hl.items]
    exact h.readable
  · rw [hl.items]
    exact h.named

theorem Writes.fit {k : JobKey} {r : JobRow} (h : Writes k r s t) (hs : s.Fit) :
    t.Fit := hs.later h.toLater h.legible

theorem Fit.discover (h : s.Fit) {id : String} (hid : id ≠ "") {c : Instant} (hc : c.IsDate) :
    Fit { s with items := ((ItemStatement.insertIfAbsent id c).run s.items).2 } where
  jobs := h.jobs
  items := ItemTable.keyed_run h.items _
  clock := h.clock
  readable := by
    intro id' r hr hu
    replace hr : ItemTable.row? ((ItemStatement.insertIfAbsent id c).run s.items).2 id' = some r := hr
    rw [ItemTable.row?_run] at hr
    rcases Option.or_eq_some_iff.1 hr with hr | ⟨_, hr⟩
    · exact h.readable id' r hr hu
    · split at hr
      · obtain rfl := Option.some.inj hr
        have hd : c.cell.instant "discovered_at" false = .ok c.floor := Cell.instant_eq_ok_iff.2 hc.shows
        refine ⟨⟨id, c.floor, none⟩, ?_⟩
        unfold ItemRow.item
        rw [hd]
        rfl
      · exact nomatch hr
  named := by
    rintro id' ⟨r, hr⟩
    replace hr : ItemTable.row? ((ItemStatement.insertIfAbsent id c).run s.items).2 id' = some r := hr
    rw [ItemTable.row?_run] at hr
    rcases Option.or_eq_some_iff.1 hr with hr | ⟨_, hr⟩
    · exact h.named id' ⟨r, hr⟩
    · split at hr
      · rename_i he
        exact he ▸ hid
      · exact nomatch hr

theorem Fit.mark (h : s.Fit) (id : String) (c : Instant) :
    Fit { s with items := ((ItemStatement.mark id c).run s.items).2 } where
  jobs := h.jobs
  items := ItemTable.keyed_run h.items _
  clock := h.clock
  readable := by
    intro id' r hr hu
    replace hr : ItemTable.row? ((ItemStatement.mark id c).run s.items).2 id' = some r := hr
    rw [ItemTable.row?_run] at hr
    obtain ⟨q, hq, rfl⟩ := Option.map_eq_some_iff.1 hr
    -- a row that was marked is not pending
    by_cases hm : q.isMarkable id = true
    · rw [if_pos hm] at hu
      exact nomatch hu
    · rw [if_neg hm] at hu ⊢
      exact h.readable id' q hq hu
  named := by
    rintro id' ⟨r, hr⟩
    replace hr : ItemTable.row? ((ItemStatement.mark id c).run s.items).2 id' = some r := hr
    rw [ItemTable.row?_run] at hr
    obtain ⟨q, hq, _⟩ := Option.map_eq_some_iff.1 hr
    exact h.named id' ⟨q, hq⟩

/-! ## Requests -/

theorem solitary (ids : List String) : Solitary (Kindly ids) Scene.jobs where
  now := by
    rintro s _ now ⟨⟨hdate, rfl⟩, _⟩
    exact ⟨hdate, rfl⟩
  emit h := congrArg Scene.jobs h.1
  run := by
    rintro s _ st _ ⟨⟨rfl, rfl⟩, _⟩
    exact ⟨rfl, rfl⟩

theorem eq_of_finds {key : String} {now : Instant} {found : Option Decoded}
    (h : Finds (Kindly ids) key s now found t) : t = { s with clock := now } ∧ s.clock.nanos ≤ now.nanos := by
  obtain ⟨_, _, ⟨⟨_, rfl⟩, hle⟩, ⟨_, rfl⟩, _⟩ := h
  exact ⟨rfl, hle⟩

/-- A request keeps the row that covers it, or sets a fresh one. -/
theorem meets_enqueue (h : s.Fit) {r : JobRequest} (hr : r.key.IsProper) {good : Enqueued → Scene → Prop}
    (hkept : ∀ t row j, Later s t → t.jobs = s.jobs → s.jobs.at? r.key = some row → row.Says j → Covers j →
      good .dropped t)
    (hfresh : ∀ outcome t, Writes r.key (JobRow.ofJob (Job.fresh r t.clock)) s t →
      (∀ row j, s.jobs.at? r.key = some row → row.Says j → GivesWay j) → good outcome t) :
    Meets (alone ids) good bad (Queue.enqueue r) s := by
  refine Queue.meets_enqueue (solitary ids) h.jobs.keyed hr (fun _ _ _ _ hfault => hfault.2.elim) ?_ ?_ ?_ ?_
  · intro now u v hfinds hrow hadds
    have hdate := hfinds.1
    obtain ⟨rfl, hle⟩ := eq_of_finds hfinds
    obtain ⟨⟨_, rfl⟩, _⟩ := hadds
    replace hrow : s.jobs.at? (Job.fresh r now).key = none := hrow
    refine hfresh .inserted _ ⟨⟨rfl, hle, hdate⟩, JobTable.sets_insertIfAbsent h.jobs.keyed hrow, ?_⟩ ?_
    · refine h.jobs.run (Job.fresh_isProper r hdate) fun job he => ?_
      obtain rfl := JobStatement.insertIfAbsent.inj he
      exact hr
    · intro row j hrow'
      exact absurd (hrow.symm.trans hrow') (Option.some_ne_none _).symm
  · intro now u row j hfinds hrow hj _ hstays
    have hdate := hfinds.1
    obtain ⟨rfl, hle⟩ := eq_of_finds hfinds
    exact hkept _ row j ⟨rfl, hle, hdate⟩ rfl hrow hj (covers_of_not_isReplaceable hstays)
  · intro now u v row j hfinds hrow hj hkey hreplace hreplaces
    have hdate := hfinds.1
    obtain ⟨rfl, hle⟩ := eq_of_finds hfinds
    obtain ⟨_, ⟨⟨_, rfl⟩, _⟩, rfl, _⟩ := hreplaces
    replace hrow : s.jobs.at? (Job.fresh r now).key = some row := hrow
    refine hfresh .replaced _ ⟨⟨rfl, hle, hdate⟩, ?_, ?_⟩ ?_
    · exact JobTable.sets_replaceIf h.jobs.keyed hkey hrow hj.isObserved
    · exact h.jobs.run (Job.fresh_isProper r hdate) fun job he => JobStatement.noConfusion he
    · intro row' j' hrow' hj'
      obtain rfl := Option.some.inj (hrow.symm.trans hrow')
      obtain rfl := hj.job_unique hj'
      exact givesWay_of_isReplaceable hreplace hj.isStorable
  · -- every row of a fit scene holds a job
    intro now u later v again u' v' row reason j _ hrow hdecode
    obtain ⟨i, hi, _⟩ := h.jobs.says_at hrow
    exact nomatch (JobRow.decode_eq_valid_iff.2 hi).symm.trans hdecode

/-! ## Attempts -/

/-- The clock went on, and nothing else was changed. -/
def Passes (s t : Scene) : Prop := s.clock.nanos ≤ t.clock.nanos ∧
    (s.clock.IsDate → t.clock.IsDate) ∧ t = { s with clock := t.clock }

theorem alone_silent : (alone ids).Silent Passes where
  trans s t u h h' := by
    obtain ⟨hle, hdate, ht⟩ := h
    obtain ⟨hle', hdate', hu⟩ := h'
    refine ⟨Int.le_trans hle hle', fun hs => hdate' (hdate hs), hu.trans ?_⟩
    rw [ht]
  mayNow _ := trivial
  now s x t h := by
    obtain ⟨⟨hdate, rfl⟩, hle⟩ := h
    exact ⟨hdate, hle, fun _ => hdate, rfl⟩
  mayEmit _ _ := trivial
  emit s e t h := by
    obtain rfl : t = s := h.1
    exact ⟨Int.le_refl _, fun hs => hs, rfl⟩

theorem Passes.later (h : Passes s t) (hs : s.Fit) : Later s t := by
  obtain ⟨hle, hdate, ht⟩ := h
  exact ⟨by rw [ht], hle, hdate hs.clock⟩

theorem Passes.jobs_eq (h : Passes s t) : t.jobs = s.jobs := by
  obtain ⟨_, _, ht⟩ := h
  rw [ht]

/-- What a change of the row of a job that is current does to a scene, where time goes by before it and after it. -/
theorem Passes.writes {u v : Scene} (hs : s.Fit) (h : Passes s t) {j : Job} {row : JobRow}
    (hrow : s.jobs.at? j.key = some row) (hc : row.isCurrent j = true) {change : Change}
    (hproper : change.IsProper)
    (hu : u = { t with jobs := ((JobStatement.updateIf j change).run t.jobs).2 }) (h' : Passes u v) :
    Writes j.key (row.apply change) s v := by
  have hlater := h.later hs
  have hjobs : v.jobs = ((JobStatement.updateIf j change).run s.jobs).2 := by
    rw [h'.jobs_eq, hu, ← h.jobs_eq]
  obtain ⟨hle', hdate', hv⟩ := h'
  refine ⟨⟨?_, ?_, ?_⟩, ?_, ?_⟩
  · rw [hv, hu]
    exact hlater.items
  · refine Int.le_trans hlater.le ?_
    rw [hu] at hle'
    exact hle'
  · refine hdate' ?_
    rw [hu]
    exact hlater.clock
  · rw [hjobs]
    exact JobTable.sets_updateIf hs.jobs.keyed hrow hc change
  · rw [hjobs]
    exact hs.jobs.run hproper fun job he => (nomatch he)

/-- A copy that is current is claimed. -/
theorem meets_claim (h : s.Fit) {j : Job} {row : JobRow} (hq : j.state = .queued) (hj : j.IsProper)
    (hrow : s.jobs.at? j.key = some row) (hc : row.isCurrent j = true) {good : Option Job → Scene → Prop}
    (hwon : ∀ now t, now.IsDate → Writes j.key (row.apply (j.claimChange now)) s t →
      good (some (j.claimed (j.claimChange now))) t) :
    Meets (alone ids) good bad (Queue.claim j) s := by
  refine Queue.meets_claim alone_silent (fun hn => absurd hq hn) fun _ now t hdate hpass =>
    ⟨trivial, ?_, ?_, ?_⟩
  · rintro u ⟨⟨_, hu⟩, _⟩ v hv
    exact hwon now v hdate (hpass.writes h hrow hc (hj.claimChange hdate) hu hv)
  · rintro u ⟨⟨hfalse, _⟩, _⟩
    rw [hpass.jobs_eq, JobTable.answer_updateIf h.jobs.keyed] at hfalse
    replace hrow : s.jobs.row? j.key.text = some row := hrow
    rw [hrow, Option.any_some, hc] at hfalse
    exact nomatch hfalse
  · rintro fault u ⟨_, hf⟩
    exact hf.elim

/-- A job that runs and whose copy is current is completed. -/
theorem meets_complete (h : s.Fit) {rules : RetryRules} {c : Job} {o : Outcome} {row : JobRow}
    (hr : c.state = .running)
    (hp : c.IsProper) (hrow : s.jobs.at? c.key = some row) (hc : row.isCurrent c = true)
    {good : Job → Scene → Prop}
    (hdone : ∀ change t, change.IsProper → o.Gives change.state → Writes c.key (row.apply change) s t →
      good (c.completed change) t) :
    Meets (alone ids) good bad (Queue.complete rules c o) s := by
  refine Queue.meets_complete alone_silent (fun hn => absurd hr hn)
    fun change t _ _ hchange hgives hpass => ⟨trivial, ?_, ?_, ?_⟩
  · rintro u ⟨⟨_, hu⟩, _⟩ v hv
    exact hdone change v (hchange hp) hgives (hpass.writes h hrow hc (hchange hp) hu hv)
  · rintro u ⟨⟨hfalse, _⟩, _⟩
    rw [hpass.jobs_eq, JobTable.answer_updateIf h.jobs.keyed] at hfalse
    replace hrow : s.jobs.row? c.key.text = some row := hrow
    rw [hrow, Option.any_some, hc] at hfalse
    exact nomatch hfalse
  · rintro fault u ⟨_, hf⟩
    exact hf.elim

end Scene

end MediaBackup
