import MediaBackup.Proofs.Job.Key
import MediaBackup.Proofs.Job.Names
import MediaBackup.Store.Jobs

/-
  What a row says.

  Reading a row goes through its columns one by one and stops at the first fault.  `JobRow.Says` says
  column by column when a row holds a job, and `job_eq_ok_iff` that reading finds that job exactly then.
  A row whose columns apart from the key can all be read is READABLE; such a row is read if and only if
  its key is one (`exists_job_iff`).  Rows that are written from proper values are readable.
-/

namespace MediaBackup

/-! ## Cells that hold an instant -/

/-- The cell holds the milliseconds of the instant. -/
def Cell.Shows (c : Cell) (t : Instant) : Prop := ∃ m, c = .int m ∧ Instant.ofMillis? m = some t

theorem Cell.instant_eq_ok_iff {column : String} {optional : Bool} {c : Cell} {t : Instant} :
    c.instant column optional = .ok t ↔ c.Shows t := by
  constructor
  · intro h
    cases c with
    | int m =>
      refine ⟨m, rfl, ?_⟩
      simp only [Cell.instant, Cell.whole, bind, Except.bind] at h
      split at h
      · rename_i u hu
        rw [hu, Except.ok.inj h]
      · exact nomatch h
    | real _ _ => exact nomatch h
    | infinite _ => exact nomatch h
    | text _ => exact nomatch h
  · rintro ⟨m, rfl, hm⟩
    simp only [Cell.instant, Cell.whole, bind, Except.bind, hm]
    rfl

/-- The cell of a date shows the start of its millisecond. -/
theorem Instant.IsDate.shows {t : Instant} (h : t.IsDate) : t.cell.Shows t.floor :=
  ⟨t.millis, rfl, ofMillis?_millis h⟩

theorem Cell.Shows.isDate {c : Cell} {t : Instant} (h : c.Shows t) : t.IsDate := by
  obtain ⟨m, _, hm⟩ := h
  exact (Instant.of_ofMillis? hm).1

/-- A cell that shows an instant is the cell of it. -/
theorem Cell.Shows.eq_cell {c : Cell} {t : Instant} (h : c.Shows t) : c = t.cell := by
  obtain ⟨m, rfl, hm⟩ := h
  show Cell.int m = .int t.millis
  rw [(Instant.of_ofMillis? hm).2]

/-- Whole numbers are ordered by size. -/
theorem Cell.order_int (m n : Int) : (Cell.int m).order (.int n) = compare m n := by
  show Cell.compareScaled m 0 n 0 = compare m n
  unfold Cell.compareScaled
  simp

theorem Cell.le_int {m n : Int} : (Cell.int m).le (.int n) = true ↔ m ≤ n := by
  unfold Cell.le
  rw [order_int, bne_iff_ne, Int.compare_ne_gt]

theorem Cell.lt_int {m n : Int} : (Cell.int m).lt (.int n) = true ↔ m < n := by
  unfold Cell.lt
  rw [order_int, beq_iff_eq, Int.compare_eq_lt]

/-- An instant that was read lies at the start of its millisecond. -/
theorem Cell.Shows.floor_eq {c : Cell} {t : Instant} (h : c.Shows t) : t.floor = t := by
  obtain ⟨m, _, hm⟩ := h
  unfold Instant.ofMillis? at hm
  split at hm
  case isTrue =>
    obtain rfl := Option.some.inj hm
    have hmillis : m * 1000000 / 1000000 = m := by omega
    show Instant.mk (m * 1000000 / 1000000 * 1000000) = _
    rw [hmillis]
  case isFalse => exact nomatch hm

/-! ## Rows that hold a job -/

/-- The row holds the job, column by column. -/
structure JobRow.Says (r : JobRow) (j : Job) : Prop where
  key : r.key = j.key.text
  isProper : j.key.IsProper
  state : r.state = j.state.name
  isStorable : j.state ≠ .failed
  attempt : r.attempt = .int j.attempt
  attempt_lt : j.attempt < UInt32.size
  constraints : Constraints.ofText r.constraintSpec = .ok j.constraints
  lastError : r.lastError = j.lastError
  abandonReason : r.abandonReason = j.abandonReason.map AbandonReason.name
  nextRunAt : r.nextRunAt.Shows j.nextRunAt
  createdAt : r.createdAt.Shows j.createdAt
  updatedAt : r.updatedAt.Shows j.updatedAt

namespace JobRow

/-- The three instants of a row are read one after the other. -/
theorem instants_eq_ok {a b c : Except RowFault Instant} {f : Instant → Instant → Instant → Job} {j : Job}
    (h : (do let x ← a; let y ← b; let z ← c; pure (f x y z)) = Except.ok j) :
    ∃ x y z, a = .ok x ∧ b = .ok y ∧ c = .ok z ∧ f x y z = j := by
  cases a with
  | error e => exact nomatch h
  | ok x => cases b with
    | error e => exact nomatch h
    | ok y => cases c with
      | error e => exact nomatch h
      | ok z => exact ⟨x, y, z, rfl, rfl, rfl, Except.ok.inj h⟩

theorem says_of_job_eq_ok {r : JobRow} {j : Job} (h : r.job = .ok j) : r.Says j := by
  unfold JobRow.job at h
  simp only [pure_bind] at h
  split at h
  case h_2 => exact nomatch h
  rename_i key hkey
  split at h
  case h_2 => exact nomatch h
  rename_i state hstate
  cases hattempt : r.attempt with
  | real _ _ => rw [hattempt] at h; exact nomatch h
  | infinite _ => rw [hattempt] at h; exact nomatch h
  | text _ => rw [hattempt] at h; exact nomatch h
  | int n =>
  rw [hattempt] at h
  simp only [Cell.whole, bind, Except.bind] at h
  split at h
  case isTrue => exact nomatch h
  rename_i hn
  split at h
  case h_2 => exact nomatch h
  rename_i constraints hspec
  -- with no reason, and with a reason that was read, the rest is the same
  have hrest : ∃ (reason : Option AbandonReason) (next created updated : Instant),
      r.abandonReason = reason.map AbandonReason.name ∧
      Cell.instant "next_run_at" false r.nextRunAt = .ok next ∧
      Cell.instant "created_at" false r.createdAt = .ok created ∧
      Cell.instant "updated_at" false r.updatedAt = .ok updated ∧
      Job.mk key state n.toNat constraints next r.lastError reason created updated = j := by
    split at h
    · rename_i hreason
      obtain ⟨x, y, z, hx, hy, hz, hj⟩ := instants_eq_ok h
      exact ⟨none, x, y, z, hreason, hx, hy, hz, hj⟩
    · rename_i s hreason
      split at h
      · rename_i reason hs
        obtain ⟨x, y, z, hx, hy, hz, hj⟩ := instants_eq_ok h
        refine ⟨some reason, x, y, z, ?_, hx, hy, hz, hj⟩
        rw [hreason, AbandonReason.eq_name_of_parse? hs]
        rfl
      · exact nomatch h
  obtain ⟨reason, next, created, updated, hreason, hnext, hcreated, hupdated, rfl⟩ := hrest
  obtain ⟨hk, hp⟩ := JobKey.parse?_eq_some_iff.1 hkey
  obtain ⟨hs, hf⟩ := JobState.ofStored?_eq_some_iff.1 hstate
  have hcount : r.attempt = .int (n.toNat : Int) := by rw [hattempt, Int.toNat_of_nonneg (by omega)]
  exact {
    key := hk, isProper := hp, state := hs, isStorable := hf, attempt := hcount
    attempt_lt := by show n.toNat < UInt32.size; omega
    constraints := hspec, lastError := rfl, abandonReason := hreason
    nextRunAt := Cell.instant_eq_ok_iff.1 hnext
    createdAt := Cell.instant_eq_ok_iff.1 hcreated
    updatedAt := Cell.instant_eq_ok_iff.1 hupdated }

/-- Reading a row finds a job exactly if the row says it column by column. -/
theorem job_eq_ok_iff {r : JobRow} {j : Job} : r.job = .ok j ↔ r.Says j := by
  refine ⟨says_of_job_eq_ok, fun h => ?_⟩
  have hkey : JobKey.parse? r.key = some j.key := JobKey.parse?_eq_some_iff.2 ⟨h.key, h.isProper⟩
  have hstate : JobState.ofStored? r.state = some j.state :=
    JobState.ofStored?_eq_some_iff.2 ⟨h.state, h.isStorable⟩
  have hn : ¬ ((j.attempt : Int) < 0 ∨ (UInt32.size : Int) ≤ (j.attempt : Int)) := by
    have := h.attempt_lt
    omega
  have hnext : r.nextRunAt.instant "next_run_at" false = .ok _ := Cell.instant_eq_ok_iff.2 h.nextRunAt
  have hcreated : r.createdAt.instant "created_at" false = .ok _ := Cell.instant_eq_ok_iff.2 h.createdAt
  have hupdated : r.updatedAt.instant "updated_at" false = .ok _ := Cell.instant_eq_ok_iff.2 h.updatedAt
  unfold JobRow.job
  simp only [bind, Except.bind, pure, Except.pure, throw, throwThe, MonadExceptOf.throw, hkey,
    hstate, h.attempt,
    Cell.whole, hn, if_false, h.constraints, h.abandonReason, hnext, hcreated, hupdated, h.lastError]
  obtain ⟨key, state, attempt, constraints, next, lastError, reason, created, updated⟩ := j
  cases reason with
  | none => rfl
  | some reason =>
    simp only [Option.map_some, AbandonReason.parse?_name]
    rfl

/-- The job of a row is one that a row can hold. -/
theorem Says.isProper_job {r : JobRow} {j : Job} (h : r.Says j) : j.IsProper :=
  ⟨h.isStorable, h.attempt_lt, h.nextRunAt.isDate, h.createdAt.isDate, h.updatedAt.isDate⟩

theorem decode_eq_valid_iff {r : JobRow} {j : Job} : r.decode = .valid j ↔ r.Says j := by
  rw [← job_eq_ok_iff]
  unfold decode
  cases r.job with
  | ok i => exact ⟨fun h => congrArg _ (Decoded.valid.inj h), fun h => congrArg _ (Except.ok.inj h)⟩
  | error e => exact ⟨fun h => (nomatch h), fun h => (nomatch h)⟩

end JobRow

/-! ## Readable rows -/

/-- Every column of the row can be read, its key apart. -/
structure JobRow.IsReadable (r : JobRow) : Prop where
  state : ∃ s : JobState, r.state = s.name ∧ s ≠ .failed
  attempt : ∃ n : Nat, r.attempt = .int n ∧ n < UInt32.size
  constraints : ∃ c, Constraints.ofText r.constraintSpec = .ok c
  abandonReason : ∃ a : Option AbandonReason, r.abandonReason = a.map AbandonReason.name
  nextRunAt : ∃ t, r.nextRunAt.Shows t
  createdAt : ∃ t, r.createdAt.Shows t
  updatedAt : ∃ t, r.updatedAt.Shows t

namespace JobRow

theorem Says.isReadable {r : JobRow} {j : Job} (h : r.Says j) : r.IsReadable :=
  ⟨⟨_, h.state, h.isStorable⟩, ⟨_, h.attempt, h.attempt_lt⟩, ⟨_, h.constraints⟩, ⟨_, h.abandonReason⟩,
    ⟨_, h.nextRunAt⟩, ⟨_, h.createdAt⟩, ⟨_, h.updatedAt⟩⟩

/-- A readable row with a proper key holds a job of that key. -/
theorem IsReadable.exists_job {r : JobRow} (h : r.IsReadable) {k : JobKey} (hk : r.key = k.text)
    (hp : k.IsProper) : ∃ j, r.Says j ∧ j.key = k := by
  obtain ⟨⟨s, hs, hf⟩, ⟨n, hn, hlt⟩, ⟨c, hc⟩, ⟨a, ha⟩, ⟨next, hnext⟩, ⟨created, hcreated⟩,
    ⟨updated, hupdated⟩⟩ := h
  exact ⟨⟨k, s, n, c, next, r.lastError, a, created, updated⟩,
    ⟨hk, hp, hs, hf, hn, hlt, hc, rfl, ha, hnext, hcreated, hupdated⟩, rfl⟩

/-- What is said to be wrong with a row is said of its key. -/
theorem key_of_decode {r : JobRow} {key : String} {reason : RowFault} (hd : r.decode = .corrupt key reason) :
    key = r.key := by
  unfold decode at hd
  split at hd
  · exact nomatch hd
  · exact (Decoded.corrupt.inj hd).1.symm

theorem job_of_decode {r : JobRow} {key : String} {reason : RowFault} (hd : r.decode = .corrupt key reason) :
    r.job = .error reason := by
  unfold decode at hd
  split at hd
  · exact nomatch hd
  · next hjob => exact (Decoded.corrupt.inj hd).2 ▸ hjob

/-- The queue sees a readable row as corrupt only because of its key. -/
theorem IsReadable.parse?_of_corrupt {r : JobRow} (h : r.IsReadable) {key : String} {reason : RowFault}
    (hd : r.decode = .corrupt key reason) : key = r.key ∧ JobKey.parse? key = none := by
  have hkey : key = r.key := key_of_decode hd
  refine ⟨hkey, ?_⟩
  cases hp : JobKey.parse? key with
  | none => rfl
  | some k =>
    obtain ⟨hk, hproper⟩ := JobKey.parse?_eq_some_iff.1 hp
    obtain ⟨j, hj, _⟩ := h.exists_job (hkey.symm.trans hk) hproper
    rw [decode_eq_valid_iff.2 hj] at hd
    exact nomatch hd

/-! ## What is written can be read -/

/-- The job as its row keeps it: its dates lose what is below a millisecond. -/
def stored (j : Job) : Job :=
  { j with nextRunAt := j.nextRunAt.floor, createdAt := j.createdAt.floor, updatedAt := j.updatedAt.floor }

/-- The row of a proper job with a proper key holds what it keeps of the job. -/
theorem ofJob_says {j : Job} (h : j.IsProper) (hk : j.key.IsProper) : (ofJob j).Says (stored j) :=
  ⟨rfl, hk, rfl, h.state, rfl, h.attempt, Constraints.ofText_text _, rfl, rfl, h.nextRunAt.shows,
    h.createdAt.shows,
    h.updatedAt.shows⟩

/-- The row of a proper job is readable. -/
theorem ofJob_isReadable {j : Job} (h : j.IsProper) : (ofJob j).IsReadable :=
  ⟨⟨_, rfl, h.state⟩, ⟨_, rfl, h.attempt⟩, ⟨_, Constraints.ofText_text _⟩, ⟨_, rfl⟩, ⟨_, h.nextRunAt.shows⟩,
    ⟨_, h.createdAt.shows⟩, ⟨_, h.updatedAt.shows⟩⟩

end JobRow

/-- The change gives values that a row can hold. -/
structure Change.IsProper (c : Change) : Prop where
  state : c.state ≠ .failed
  attempt : c.attempt < UInt32.size
  nextRunAt : c.nextRunAt.IsDate
  updatedAt : c.updatedAt.IsDate

/-- The job as its row keeps it after a change. -/
def Job.changed (j : Job) (c : Change) : Job :=
  { j with
    state := c.state, attempt := c.attempt, nextRunAt := c.nextRunAt.floor, lastError := c.lastError
    abandonReason := c.abandonReason, updatedAt := c.updatedAt.floor }

namespace JobRow

/-- What a row says after a change, after a promotion and after a recovery. -/
theorem Says.apply {r : JobRow} {j : Job} (h : r.Says j) {c : Change} (hc : c.IsProper) :
    (r.apply c).Says (j.changed c) :=
  { h with
    state := rfl, isStorable := hc.state, attempt := rfl, attempt_lt := hc.attempt, lastError := rfl
    abandonReason := rfl, nextRunAt := hc.nextRunAt.shows, updatedAt := hc.updatedAt.shows }

theorem Says.promoted {r : JobRow} {j : Job} (h : r.Says j) {now : Instant} (hn : now.IsDate) :
    (r.promoted now).Says { j with state := .queued, updatedAt := now.floor } :=
  { h with state := rfl, isStorable := JobState.noConfusion, updatedAt := hn.shows }

theorem Says.reset {r : JobRow} {j : Job} (h : r.Says j) {now : Instant} (hn : now.IsDate) :
    (r.reset now).Says { j with state := .queued, nextRunAt := now.floor, updatedAt := now.floor } :=
  { h with state := rfl, isStorable := JobState.noConfusion, nextRunAt := hn.shows, updatedAt := hn.shows }

theorem IsReadable.apply {r : JobRow} (h : r.IsReadable) {c : Change} (hc : c.IsProper) :
    (r.apply c).IsReadable :=
  ⟨⟨_, rfl, hc.state⟩, ⟨_, rfl, hc.attempt⟩, h.constraints, ⟨_, rfl⟩, ⟨_, hc.nextRunAt.shows⟩, h.createdAt,
    ⟨_, hc.updatedAt.shows⟩⟩

theorem IsReadable.promoted {r : JobRow} (h : r.IsReadable) {now : Instant} (hn : now.IsDate) :
    (r.promoted now).IsReadable :=
  { h with state := ⟨.queued, rfl, JobState.noConfusion⟩, updatedAt := ⟨_, hn.shows⟩ }

theorem IsReadable.reset {r : JobRow} (h : r.IsReadable) {now : Instant} (hn : now.IsDate) :
    (r.reset now).IsReadable :=
  { h with
    state := ⟨.queued, rfl, JobState.noConfusion⟩, nextRunAt := ⟨_, hn.shows⟩, updatedAt := ⟨_, hn.shows⟩ }

/-- A row that was given up is readable, whatever it was before. -/
theorem quarantined_isReadable (r : JobRow) (reason : String) {now : Instant} (hn : now.IsDate) :
    (r.quarantined reason now).IsReadable :=
  ⟨⟨.abandoned, rfl, JobState.noConfusion⟩, ⟨0, rfl, Nat.zero_lt_succ _⟩, ⟨_, Constraints.ofText_empty⟩,
    ⟨some .exhausted, rfl⟩, ⟨_, hn.shows⟩, ⟨_, hn.shows⟩, ⟨_, hn.shows⟩⟩

end JobRow

end MediaBackup
