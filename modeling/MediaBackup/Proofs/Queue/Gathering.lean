import MediaBackup.Proofs.Life.Tame
import MediaBackup.Proofs.Pass.Deeds
import MediaBackup.Proofs.Recovery.World

/-
  What a pass begins with: the jobs whose wait is over are queued, and those whose time has come are listed.

  Both statements find a row by comparing the cell of its next run with the time, in the order of cells.  What they
  find is read, and given up with a report if it cannot be; what sorts after the time is not read at all
  (`gather_leaves`).  A later date sorts after the time and is found later.  But so does every text and every number
  past the last date: such a row waits for ever, unread and unreported (`gather_leaves_timeless`).
-/

namespace MediaBackup

open Script

/-! ## Cells and the time -/

namespace Cell

variable {c : Cell} {t : Instant}

/-- The cell sorts after an instant. -/
def IsAfter (c : Cell) (t : Instant) : Prop := c.le t.cell = false

/-- The cell holds a date after an instant. -/
def IsLater (c : Cell) (t : Instant) : Prop := ∃ u, c.Shows u ∧ t.millis < u.millis

/-- The cell sorts after an instant and holds no date. -/
def IsStray (c : Cell) (t : Instant) : Prop := c.IsAfter t ∧ ∀ u, ¬c.Shows u

theorem isLater_or_isStray (h : c.IsAfter t) : c.IsLater t ∨ c.IsStray t := by
  by_cases hdate : ∃ u, c.Shows u
  · obtain ⟨u, hu⟩ := hdate
    rw [hu.eq_cell] at h
    have hlt : ¬u.millis ≤ t.millis := fun hle => absurd (Cell.le_int.mpr hle) (ne_true_of_eq_false h)
    exact .inl ⟨u, hu, by omega⟩
  · exact .inr ⟨h, not_exists.mp hdate⟩

/-- A text sorts after every instant. -/
theorem isStray_text (s : String) (t : Instant) : (Cell.text s).IsStray t :=
  ⟨rfl, fun _ ⟨_, hint, _⟩ => nomatch hint⟩

/-- So does a whole number past the last date. -/
theorem isStray_int {m : Int} (hm : Instant.lastMillis < m) (ht : t.IsDate) : (Cell.int m).IsStray t := by
  refine ⟨?_, ?_⟩
  · refine eq_false_of_ne_true fun hle => ?_
    have hle : m ≤ t.millis := Cell.le_int.mp hle
    have hlast := Instant.IsDate.millis_le ht
    omega
  · rintro u ⟨k, hk, hdate⟩
    obtain rfl := Cell.int.inj hk
    have hlast := Instant.IsDate.millis_le (Instant.of_ofMillis? hdate).1
    rw [(Instant.of_ofMillis? hdate).2] at hlast
    omega

end Cell

/-! ## The desk -/

/-- Queues the jobs whose wait is over and lists those whose time has come. -/
def Queue.gather : Engine (Nat × DueJobs) := do
  let promoted ← Queue.promote
  let due ← Queue.due
  pure (promoted, due)

/-- A table of jobs, with a clock and listeners. -/
structure Desk where
  jobs : JobTable
  /-- What the clock showed, newest first. -/
  shown : List Instant
  /-- What listeners were told, newest first. -/
  told : List SyncEvent

/-- What the queue sees of a row is told to listeners if it is no job. -/
def Decoded.report? : Decoded → Option SyncEvent
  | .valid _ => none
  | .corrupt key reason => some (.ledgerCorrupted key reason.message)

namespace Desk

/-- The answers to a program that has the table for itself and a database that is in reach. -/
def Goes : Ways Desk
  | s, .jobs st, x, t => x = .ok (st.run s.jobs).1 ∧ t = { s with jobs := (st.run s.jobs).2 }
  | s, .now, x, t => x.IsDate ∧ t = { s with shown := x :: s.shown }
  | s, .emit (.sync e), _, t => t = { s with told := e :: s.told }
  | s, _, _, t => t = s

/-- The protocol of such a program. -/
abbrev alone : Protocol Call Call.Answer Desk := Protocol.alone Goes

variable {s t : Desk} {bad : Stop → Desk → Prop}

theorem meets_now {good : Instant → Desk → Prop}
    (h : ∀ now : Instant, now.IsDate → good now { s with shown := now :: s.shown }) :
    Meets alone good bad Engine.now s := by
  refine Engine.meets_now.mpr ⟨trivial, ?_⟩
  rintro now _ ⟨hdate, rfl⟩
  exact h now hdate

theorem meets_jobs {st : JobStatement} {good : st.Answer → Desk → Prop}
    (h : good (st.run s.jobs).1 { s with jobs := (st.run s.jobs).2 }) : Meets alone good bad (Engine.jobs st) s := by
  refine Engine.meets_jobs.mpr ⟨trivial, ?_, ?_⟩
  · rintro x _ ⟨hx, rfl⟩
    obtain rfl := Except.ok.inj hx
    exact h
  · rintro fault _ ⟨hfault, _⟩
    exact nomatch hfault

theorem meets_emit {e : SyncEvent} {good : Unit → Desk → Prop} (h : good () { s with told := e :: s.told }) :
    Meets alone good bad (Engine.emit e) s := by
  refine Engine.meets_emit.mpr ⟨trivial, ?_⟩
  rintro _ t ht
  obtain rfl : t = _ := ht
  exact h

theorem meets_quarantine {key : String} {reason : RowFault} {good : Unit → Desk → Prop}
    (h : ∀ now : Instant, now.IsDate → good ()
      ⟨((JobStatement.quarantine key reason.message now).run s.jobs).2, now :: s.shown,
        .ledgerCorrupted key reason.message :: s.told⟩) :
    Meets alone good bad (Queue.quarantine key reason) s := by
  unfold Queue.quarantine
  rw [meets_bind]
  refine meets_now fun now hdate => ?_
  rw [meets_bind]
  exact meets_jobs (meets_emit (h now hdate))

/-! ## Sifting -/

/-- What is left when rows were sifted: those that hold no job were given up, each with a report, and no other row
    was touched. -/
structure Sifted (rows : List Decoded) (given : Nat) (s t : Desk) : Prop where
  shown : ∃ later, t.shown = later ++ s.shown
  told : t.told = (rows.filterMap Decoded.report?).reverse ++ s.told
  count : given = (rows.filterMap Decoded.report?).length
  spared : ∀ key, (∀ reason, .corrupt key reason ∉ rows) → t.jobs.row? key = s.jobs.row? key
  givenUp : ∀ key reason row, .corrupt key reason ∈ rows → s.jobs.row? key = some row →
    ∃ now : Instant, now.IsDate ∧ t.jobs.row? key = some (row.quarantined reason.message now)
  keyed : t.jobs.Keyed

theorem Sifted.valid {rows : List Decoded} {given : Nat} {j : Job} (h : Sifted rows given s t) :
    Sifted (.valid j :: rows) given s t where
  shown := h.shown
  told := h.told
  count := h.count
  spared key hkey := h.spared key fun reason hmem => hkey reason (.tail _ hmem)
  givenUp key reason row hmem hrow := by
    rcases List.mem_cons.mp hmem with heq | hmem
    · exact nomatch heq
    · exact h.givenUp key reason row hmem hrow
  keyed := h.keyed

theorem Sifted.corrupt {rows : List Decoded} {given : Nat} {key : String} {reason : RowFault} {now : Instant}
    (hk : s.jobs.Keyed) (hdate : now.IsDate) (hnew : key ∉ Workers.corruptKeys rows)
    (h : Sifted rows given ⟨((JobStatement.quarantine key reason.message now).run s.jobs).2, now :: s.shown,
      .ledgerCorrupted key reason.message :: s.told⟩ t) :
    Sifted (.corrupt key reason :: rows) (given + 1) s t := by
  -- the row of another key is not the one that is given up
  have hother : ∀ k, k ≠ key →
      ((JobStatement.quarantine key reason.message now).run s.jobs).2.row? k = s.jobs.row? k :=
    fun k hne => JobTable.row?_run_of_target hk rfl hne
  refine ⟨?_, ?_, ?_, ?_, ?_, h.keyed⟩
  · obtain ⟨later, hlater⟩ := h.shown
    exact ⟨later ++ [now], by rw [hlater, List.append_assoc]; rfl⟩
  · rw [h.told]
    simp [Decoded.report?]
  · rw [h.count]
    rfl
  · intro k hspared
    have hne : k ≠ key := fun heq => hspared reason (heq ▸ .head _)
    rw [h.spared k fun reason' hmem => hspared reason' (.tail _ hmem)]
    exact hother k hne
  · intro k reason' row hmem hrow
    rcases List.mem_cons.mp hmem with heq | hmem
    · obtain ⟨rfl, rfl⟩ := Decoded.corrupt.inj heq
      refine ⟨now, hdate, ?_⟩
      rw [h.spared k fun reason' hmem => hnew (Workers.mem_corruptKeys hmem)]
      show ((JobStatement.quarantine k _ now).run s.jobs).2.row? k = _
      rw [JobTable.row?_run hk, hrow]
      simp [JobStatement.effect, JobTable.key_of_row? hrow]
    · have hne : k ≠ key := fun heq => hnew (heq ▸ Workers.mem_corruptKeys hmem)
      exact h.givenUp k reason' row hmem ((hother k hne).trans hrow)

theorem meets_sift {rows : List Decoded} (hk : s.jobs.Keyed) (hnodup : (Workers.corruptKeys rows).Nodup)
    (d : DueJobs) {good : DueJobs → Desk → Prop}
    (h : ∀ given t, Sifted rows given s t → good ⟨d.jobs ++ Gating.validJobs rows, d.quarantined + given⟩ t) :
    Meets alone good bad (Queue.sift rows d) s := by
  induction rows generalizing s d with
  | nil =>
    have hnone := h 0 s ⟨⟨[], rfl⟩, rfl, rfl, fun _ _ => rfl, (fun _ _ _ hmem => nomatch hmem), hk⟩
    rwa [show Gating.validJobs [] = [] from rfl, List.append_nil] at hnone
  | cons row rows ih =>
    cases row with
    | valid j =>
      refine ih hk hnodup _ fun given t ht => ?_
      rw [List.append_assoc]
      exact h given t ht.valid
    | corrupt key reason =>
      obtain ⟨hnew, hnodup⟩ := List.nodup_cons.mp hnodup
      unfold Queue.sift
      rw [meets_bind]
      refine meets_quarantine fun now hdate => ?_
      refine ih (JobTable.keyed_run hk _) hnodup _ fun given t ht => ?_
      have hgood := h (given + 1) t (ht.corrupt hk hdate hnew)
      rwa [Nat.add_comm given, ← Nat.add_assoc] at hgood

/-! ## Gathering -/

/-- A row after the waits that are over by an instant. -/
def ripened (promoting : Instant) (r : JobRow) : JobRow :=
  if r.isPromotable promoting then r.promoted promoting else r

section Ripened

variable {promoting listing : Instant} {row : JobRow}

theorem ripened_waits : (ripened promoting row).Waits ↔ row.Waits := by
  unfold ripened
  split
  case isTrue hready =>
    exact iff_of_true (.inl rfl) (.inr (JobRow.isPromotable_iff.mp hready).1)
  case isFalse => exact Iff.rfl

/-- A row whose next run comes later does not ripen, and its time has not come. -/
theorem ripened_of_isAfter (h : row.nextRunAt.IsAfter promoting) : ripened promoting row = row :=
  if_neg fun hready => ne_true_of_eq_false h (JobRow.isPromotable_iff.mp hready).2

/-- The time of a waiting row comes when it is queued and its next run does not come later. -/
theorem isDue_of_waits (h : row.Waits) :
    row.isDue listing = true ↔ row.state = "queued" ∧ ¬row.nextRunAt.IsAfter listing := by
  have hknown : ["queued", "running", "retrying", "succeeded", "abandoned"].contains row.state = true := by
    rcases h with hs | hs <;> rw [hs] <;> decide
  unfold JobRow.isDue Cell.IsAfter
  rw [hknown, Bool.not_true, Bool.or_false, Bool.and_eq_true, beq_iff_eq, Bool.not_eq_false]

/-- The time of a row that waits has come for it once it ripened, if its next run comes no later. -/
theorem isDue_ripened (h : row.Waits) (hpromoting : ¬row.nextRunAt.IsAfter promoting)
    (hlisting : ¬row.nextRunAt.IsAfter listing) : (ripened promoting row).isDue listing = true := by
  rw [isDue_of_waits (ripened_waits.mpr h)]
  unfold ripened
  split
  case isTrue => exact ⟨rfl, hlisting⟩
  case isFalse hnot =>
    refine ⟨h.resolve_right fun hretrying => hnot ?_, hlisting⟩
    exact JobRow.isPromotable_iff.mpr ⟨hretrying, by simpa [Cell.IsAfter] using hpromoting⟩

/-- A row that waits for another attempt after ripening has its next run later. -/
theorem isAfter_of_retrying (h : (ripened promoting row).state = "retrying") :
    (ripened promoting row).nextRunAt.IsAfter promoting := by
  unfold ripened at h ⊢
  split at h
  case isTrue => exact absurd (show "queued" = "retrying" from h) (by decide)
  case isFalse hnot =>
    rw [if_neg hnot]
    exact eq_false_of_ne_true fun hle => hnot (JobRow.isPromotable_iff.mpr ⟨h, hle⟩)

end Ripened

section Rows

variable {promoting listing : Instant} {given : Nat}

/-- The rows that are listed when the jobs are gathered, as the queue sees them. -/
def listed (promoting listing : Instant) (jobs : JobTable) : List Decoded :=
  ((((JobStatement.promote promoting).run jobs).2.filter (·.isDue listing)).mergeSort JobRow.dueBefore).map
    JobRow.decode

theorem row?_promote (hk : s.jobs.Keyed) (key : String) :
    ((JobStatement.promote promoting).run s.jobs).2.row? key = (s.jobs.row? key).map (ripened promoting) :=
  JobTable.row?_run hk (.promote promoting) key

/-- What is listed under a key and holds no job is the ripened row of the key, whose time has come. -/
theorem corrupt_mem_listed_iff (hk : s.jobs.Keyed) {key : String} {reason : RowFault} :
    .corrupt key reason ∈ listed promoting listing s.jobs ↔ ∃ row, s.jobs.row? key = some row ∧
      (ripened promoting row).isDue listing = true ∧ (ripened promoting row).decode = .corrupt key reason := by
  have hkeyed := JobTable.keyed_run hk (.promote promoting)
  unfold listed
  rw [List.mem_map]
  constructor
  · rintro ⟨found, hfound, hdecode⟩
    obtain ⟨hin, hdue⟩ := List.mem_filter.mp (List.mem_mergeSort.mp hfound)
    have hat := JobTable.row?_of_mem hkeyed hin
    rw [← JobRow.key_of_decode hdecode, row?_promote hk] at hat
    obtain ⟨row, hrow, rfl⟩ := Option.map_eq_some_iff.mp hat
    exact ⟨row, hrow, hdue, hdecode⟩
  · rintro ⟨row, hrow, hdue, hdecode⟩
    have hat : ((JobStatement.promote promoting).run s.jobs).2.row? key = some (ripened promoting row) := by
      rw [row?_promote hk, hrow]
      rfl
    exact ⟨_, List.mem_mergeSort.mpr (List.mem_filter.mpr ⟨JobTable.mem_of_row? hat, hdue⟩), hdecode⟩

/-- What is left when the jobs were gathered, the clock having shown one instant for the waits that are over and one
    for the jobs whose time has come. -/
def Gathered (promoting listing : Instant) (given : Nat) (s t : Desk) : Prop :=
  Sifted (listed promoting listing s.jobs) given
    ⟨((JobStatement.promote promoting).run s.jobs).2, listing :: promoting :: s.shown, s.told⟩ t

theorem meets_gather (hk : s.jobs.Keyed) :
    Meets alone (fun r t => ∃ promoting listing, Gathered promoting listing r.2.quarantined s t) bad Queue.gather
      s := by
  unfold Queue.gather Queue.promote Queue.due
  rw [meets_bind, meets_bind]
  refine meets_now fun promoting _ => meets_jobs ?_
  rw [meets_bind, meets_bind]
  refine meets_now fun listing _ => ?_
  rw [meets_bind]
  refine meets_jobs ?_
  dsimp only
  rw [meets_map]
  have hpromoted := JobTable.keyed_run hk (.promote promoting)
  refine meets_sift hpromoted (Workers.nodup_corruptKeys hpromoted _ _) _ fun given t ht => ?_
  refine ⟨promoting, listing, ?_⟩
  show Sifted _ (0 + given) _ _
  rwa [Nat.zero_add]

/-- What listeners were told of a row that was given up. -/
theorem Gathered.reported_iff (h : Gathered promoting listing given s t) {key words : String} :
    .ledgerCorrupted key words ∈ t.told.take given ↔
      ∃ reason, .corrupt key reason ∈ listed promoting listing s.jobs ∧ words = reason.message := by
  rw [h.told, h.count, ← List.length_reverse, List.take_left, List.mem_reverse, List.mem_filterMap]
  constructor
  · rintro ⟨d, hd, hreport⟩
    cases d with
    | valid j => exact nomatch hreport
    | corrupt found reason =>
      obtain ⟨rfl, rfl⟩ := SyncEvent.ledgerCorrupted.inj (Option.some.inj hreport)
      exact ⟨reason, hd, rfl⟩
  · rintro ⟨reason, hmem, rfl⟩
    exact ⟨_, hmem, rfl⟩

/-- Gathering leaves a row, ripened if its wait is over, unless its time has come and it holds no job: then the row
    is given up and reported. -/
theorem Gathered.row (h : Gathered promoting listing given s t) (hk : s.jobs.Keyed) {key : String} {row : JobRow}
    (hrow : s.jobs.row? key = some row) :
    (t.jobs.row? key = some (ripened promoting row) ∧ (∀ words, .ledgerCorrupted key words ∉ t.told.take given) ∧
      ((ripened promoting row).isDue listing = true → ∃ j, (ripened promoting row).Says j)) ∨
    (ripened promoting row).isDue listing = true ∧ ∃ words now,
      t.jobs.row? key = some (row.quarantined words now) ∧ .ledgerCorrupted key words ∈ t.told.take given := by
  have hripe : ((JobStatement.promote promoting).run s.jobs).2.row? key = some (ripened promoting row) := by
    rw [row?_promote hk, hrow]
    rfl
  by_cases hcorrupt : ∃ reason, .corrupt key reason ∈ listed promoting listing s.jobs
  · obtain ⟨reason, hmem⟩ := hcorrupt
    obtain ⟨now, -, hgiven⟩ := h.givenUp key reason _ hmem hripe
    obtain ⟨found, hfound, hdue, -⟩ := (corrupt_mem_listed_iff hk).mp hmem
    obtain rfl := Option.some.inj (hrow.symm.trans hfound)
    -- giving up a row writes over all that ripening writes
    have hwritten : (ripened promoting row).quarantined reason.message now = row.quarantined reason.message now := by
      unfold ripened
      split <;> rfl
    exact .inr ⟨hdue, _, now, hwritten ▸ hgiven, h.reported_iff.mpr ⟨reason, hmem, rfl⟩⟩
  · refine .inl ⟨?_, ?_, fun hdue => ?_⟩
    · exact (h.spared key fun reason hmem => hcorrupt ⟨reason, hmem⟩).trans hripe
    · intro words hreport
      obtain ⟨reason, hmem, -⟩ := h.reported_iff.mp hreport
      exact hcorrupt ⟨reason, hmem⟩
    · cases hdecode : (ripened promoting row).decode with
      | valid j => exact ⟨j, JobRow.decode_eq_valid_iff.mp hdecode⟩
      | corrupt found reason =>
        have hkey : found = key := (JobRow.key_of_decode hdecode).trans (JobTable.key_of_row? hripe)
        exact absurd ⟨reason, (corrupt_mem_listed_iff hk).mpr ⟨row, hrow, hdue, hkey ▸ hdecode⟩⟩ hcorrupt

/-- Gathering adds no row. -/
theorem Gathered.exists_row (h : Gathered promoting listing given s t) (hk : s.jobs.Keyed) {key : String}
    {left : JobRow} (hleft : t.jobs.row? key = some left) : ∃ row, s.jobs.row? key = some row := by
  refine Option.ne_none_iff_exists'.mp fun hnone => ?_
  have hspared := h.spared key fun reason hmem => by
    obtain ⟨row, hrow, -⟩ := (corrupt_mem_listed_iff hk).mp hmem
    exact nomatch hnone.symm.trans hrow
  rw [hleft] at hspared
  rw [show ((JobStatement.promote promoting).run s.jobs).2.row? key = _ from row?_promote hk key, hnone] at hspared
  exact nomatch hspared

end Rows

/-- **What gathering leaves waiting.**  A program that has the table for itself and gathers the jobs always comes to
    its end.  Then each row that waits holds a job, or its next run comes later than the instant at which the clock
    was read for it: at a later date, or its cell is no date and sorts after every time that was compared.  A waiting
    row that was looked at and held no job has been given up and reported, one report for each row that is counted,
    and one whose cell sorts after the time is as it was, whatever it holds. -/
theorem gather_leaves (hk : s.jobs.Keyed) {r : Except Stop (Nat × DueJobs)}
    (h : Reaches alone Queue.gather.run s (.done r) t) :
    ∃ n d promoting listing reports, r = .ok (n, d) ∧
      (∃ later, t.shown = later ++ listing :: promoting :: s.shown) ∧
      t.told = reports ++ s.told ∧ reports.length = d.quarantined ∧
      (∀ key row, t.jobs.row? key = some row → row.Waits → (∃ j, row.Says j) ∨
        ∃ now, (row.state = "queued" ∧ now = listing ∨ row.state = "retrying" ∧ now = promoting) ∧
          (row.nextRunAt.IsLater now ∨ row.nextRunAt.IsStray now)) ∧
      (∀ key row, s.jobs.row? key = some row → row.Waits →
        ¬row.nextRunAt.IsAfter promoting → ¬row.nextRunAt.IsAfter listing →
        (∃ left, t.jobs.row? key = some left ∧ ∃ j, left.Says j) ∨
          ∃ words now, t.jobs.row? key = some (row.quarantined words now) ∧ .ledgerCorrupted key words ∈ reports) ∧
      ∀ key row, s.jobs.row? key = some row → row.Waits →
        row.nextRunAt.IsAfter promoting → row.nextRunAt.IsAfter listing →
        t.jobs.row? key = some row ∧ ∀ words, .ledgerCorrupted key words ∉ reports := by
  have hmeets : Meets alone (fun r t => ∃ promoting listing, Gathered promoting listing r.2.quarantined s t)
      (fun _ _ => False) Queue.gather s := meets_gather hk
  have hend := Keeps.reaches hmeets h
  cases r with
  | error e => exact hend.elim
  | ok r =>
  obtain ⟨n, d⟩ := r
  obtain ⟨promoting, listing, hgathered⟩ := hend
  replace hgathered : Gathered promoting listing d.quarantined s t := hgathered
  have htold : t.told = t.told.take d.quarantined ++ s.told := by
    rw [hgathered.told, hgathered.count, ← List.length_reverse, List.take_left]
  refine ⟨n, d, promoting, listing, t.told.take d.quarantined, rfl, hgathered.shown, htold, ?_, ?_, ?_, ?_⟩
  · rw [List.length_take, hgathered.told, hgathered.count]
    simp
  · intro key left hleft hwaits
    obtain ⟨row, hrow⟩ := hgathered.exists_row hk hleft
    rcases hgathered.row hk hrow with ⟨hripe, -, hsaid⟩ | ⟨-, words, now, hgiven, -⟩
    · obtain rfl := Option.some.inj (hleft.symm.trans hripe)
      by_cases hdue : (ripened promoting row).isDue listing = true
      · exact .inl (hsaid hdue)
      refine .inr ?_
      rcases hwaits with hqueued | hretrying
      · have hafter : (ripened promoting row).nextRunAt.IsAfter listing :=
          Classical.byContradiction fun hcome => hdue ((isDue_of_waits (.inl hqueued)).mpr ⟨hqueued, hcome⟩)
        exact ⟨listing, .inl ⟨hqueued, rfl⟩, Cell.isLater_or_isStray hafter⟩
      · exact ⟨promoting, .inr ⟨hretrying, rfl⟩, Cell.isLater_or_isStray (isAfter_of_retrying hretrying)⟩
    · obtain rfl := Option.some.inj (hleft.symm.trans hgiven)
      exact absurd hwaits (JobRow.IsOver.not_waits (.inr rfl))
  · intro key row hrow hwaits hpromoting hlisting
    rcases hgathered.row hk hrow with ⟨hripe, -, hsaid⟩ | ⟨-, words, now, hgiven, hreport⟩
    · exact .inl ⟨_, hripe, hsaid (isDue_ripened hwaits hpromoting hlisting)⟩
    · exact .inr ⟨words, now, hgiven, hreport⟩
  · intro key row hrow hwaits hpromoting hlisting
    have hsame := ripened_of_isAfter hpromoting
    rcases hgathered.row hk hrow with ⟨hripe, hsilent, -⟩ | ⟨hdue, -⟩
    · exact ⟨hsame ▸ hripe, hsilent⟩
    · rw [hsame, isDue_of_waits hwaits] at hdue
      exact absurd hlisting hdue.2

/-! ## Two damaged rows -/

/-- A scan that waits, with a count of attempts that is none. -/
def uncountedScan : JobRow := { JobRow.ofJob (.fresh .scan .epoch) with attempt := .int (-1) }

/-- A scan that waits for a time that is none. -/
def timelessScan : JobRow := { JobRow.ofJob (.fresh .scan .epoch) with nextRunAt := .text "soon" }

/-- The only row of a table is listed if its time has come. -/
theorem run_listDue_single (row : JobRow) (now : Instant) :
    (JobStatement.listDue now).run [row] = (if row.isDue now then [row.decode] else [], [row]) := by
  show ((([row].filter (·.isDue now)).mergeSort JobRow.dueBefore).map JobRow.decode, [row]) = _
  cases hdue : row.isDue now <;> simp [hdue]

/-- A scan with a wrong count of attempts is given up with one report. -/
theorem gather_leaves_uncounted : ∃ d t,
    Reaches alone Queue.gather.run ⟨[uncountedScan], [], []⟩ (.done (.ok (0, d))) t ∧
      ∃ reports, t.told = reports ++ [] ∧ reports.length = d.quarantined ∧ d.quarantined = 1 := by
  let reason : RowFault := .outOfRange "attempt" (-1)
  let givenUp : JobTable := [uncountedScan.quarantined reason.message .epoch]
  have hlisted : (JobStatement.listDue .epoch).run [uncountedScan] =
      ([.corrupt "scan" reason], [uncountedScan]) := run_listDue_single _ _
  have h₀ : Reaches alone Queue.gather.run ⟨[uncountedScan], [], []⟩ Queue.gather.run _ := .here
  have h₁ := ((h₀.answered (e := Call.now) Instant.epoch _ ⟨by decide, rfl⟩).answered
    (e := Call.jobs (.promote .epoch)) (.ok 0) ⟨[uncountedScan], [.epoch], []⟩ ⟨rfl, rfl⟩).answered
    (e := Call.now) Instant.epoch _ ⟨by decide, rfl⟩
  have h₂ := h₁.answered (e := Call.jobs (.listDue .epoch)) (.ok [.corrupt "scan" reason])
    ⟨[uncountedScan], [.epoch, .epoch], []⟩ ⟨by rw [hlisted], by rw [hlisted]⟩
  have h₃ := ((h₂.answered (e := Call.now) Instant.epoch _ ⟨by decide, rfl⟩).answered
    (e := Call.jobs (.quarantine "scan" reason.message .epoch)) (.ok ()) ⟨givenUp, _, []⟩ ⟨rfl, rfl⟩).answered
    (e := Call.emit (.sync (.ledgerCorrupted "scan" reason.message))) () _ rfl
  have hkeyed : JobTable.Keyed [uncountedScan] := List.pairwise_singleton _ _
  obtain ⟨_, d, _, _, reports, hr, _, htold, hlength, _⟩ := gather_leaves hkeyed h₃
  obtain ⟨rfl, rfl⟩ := Prod.mk.inj (Except.ok.inj hr)
  exact ⟨_, _, h₃, reports, htold, hlength, rfl⟩

/-- A scan whose next run is a text stays as it is: it waits, holds no job, and nobody is told. -/
theorem gather_leaves_timeless : ∃ t,
    Reaches alone Queue.gather.run ⟨[timelessScan], [], []⟩ (.done (.ok (0, ⟨[], 0⟩))) t ∧
      t.jobs.row? "scan" = some timelessScan ∧ timelessScan.Waits ∧ (∀ j, ¬timelessScan.Says j) ∧
      (∀ now, ¬timelessScan.nextRunAt.IsLater now) ∧ t.told = [] := by
  have hlisted : (JobStatement.listDue .epoch).run [timelessScan] = ([], [timelessScan]) := run_listDue_single _ _
  have h₀ : Reaches alone Queue.gather.run ⟨[timelessScan], [], []⟩ Queue.gather.run _ := .here
  have h₁ := ((h₀.answered (e := Call.now) Instant.epoch _ ⟨by decide, rfl⟩).answered
    (e := Call.jobs (.promote .epoch)) (.ok 0) ⟨[timelessScan], [.epoch], []⟩ ⟨rfl, rfl⟩).answered
    (e := Call.now) Instant.epoch _ ⟨by decide, rfl⟩
  have h₂ := h₁.answered (e := Call.jobs (.listDue .epoch)) (.ok []) ⟨[timelessScan], [.epoch, .epoch], []⟩
    ⟨by rw [hlisted], by rw [hlisted]⟩
  have hundated : ∀ u, ¬timelessScan.nextRunAt.Shows u := (Cell.isStray_text "soon" .epoch).2
  exact ⟨_, h₂, rfl, .inl rfl, fun j hj => hundated _ hj.nextRunAt, fun now ⟨u, hu, _⟩ => hundated u hu, rfl⟩

end Desk

end MediaBackup
