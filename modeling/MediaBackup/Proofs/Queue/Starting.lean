import Mathlib.Logic.Relation
import MediaBackup.Proofs.Queue.Healing

/-
  What a start leaves, from any table.

  A start queues the rows that run, and then requests a scan and a dispatch.  No row runs once that was done, so
  neither request meets a job that covers it: whatever was left under their keys, each ends with a fresh job (`Begun`).

  A PROCESS starts once.  That it was asked to start is noted before anything is done, so it holds also of a start that
  did not come to its end, and every later one fails (`start_exact`).
-/

namespace MediaBackup

open Script

/-! ## The rows that run -/

/-- A row after a recovery: queued and due at once if it ran. -/
def JobRow.recovered (now : Instant) (row : JobRow) : JobRow := if row.state == "running" then row.reset now else row

namespace JobRow

variable {row : JobRow} {now : Instant}

theorem recovered_not_running : (row.recovered now).state ≠ "running" := by
  unfold recovered
  split
  case isTrue => exact (by decide : "queued" ≠ "running")
  case isFalse hnot => exact fun hstate => hnot (beq_iff_eq.mpr hstate)

theorem recovered_of_running (h : row.state = "running") : row.recovered now = row.reset now :=
  if_pos (beq_iff_eq.mpr h)

theorem recovered_of_not_running (h : row.state ≠ "running") : row.recovered now = row :=
  if_neg fun hstate => h (beq_iff_eq.mp hstate)

end JobRow

namespace Chronicle

variable {w v : Chronicle} {n : Nat} {told : List Entry}

/-- What is left when a process started by these calls and recovered so many jobs. -/
structure Begun (n : Nat) (told : List Entry) (w v : Chronicle) : Prop where
  past : v.past = told ++ w.past
  /-- The rows that ran are counted, -/
  count : n = w.jobs.countP (·.state == "running")
  /-- none runs any more, -/
  idle : ∀ row ∈ v.jobs, row.state ≠ "running"
  /-- and each is queued and due at the time that the clock showed first, if it was not that of a scan or dispatch. -/
  queued : ∃ now, (told.filterMap Entry.shown?).getLast? = some now ∧ ∀ row ∈ w.jobs, row.state = "running" →
    row.key ≠ JobKey.scan.text → row.key ≠ JobKey.dispatch.text →
    v.jobs.row? row.key = some { row with state := "queued", nextRunAt := now.cell, updatedAt := now.cell }
  /-- The scan and the dispatch are fresh, and dated by the clock. -/
  fresh : ∀ r ∈ [JobRequest.scan, .dispatch], ∃ now ∈ told.filterMap Entry.shown?,
    (v.jobs.row? r.key.text).map JobRow.decode = some (.valid (JobRow.stored (.fresh r now)))
  /-- Nothing else was changed. -/
  others : ∀ key, key ≠ JobKey.scan.text → key ≠ JobKey.dispatch.text →
    (∀ row ∈ w.jobs, row.key = key → row.state ≠ "running") → v.jobs.row? key = w.jobs.row? key

/-- Where no row runs, a request for a scan or a dispatch is not dropped. -/
theorem Healed.not_dropped {r : JobRequest} {outcome : Enqueued} (h : Healed r outcome told w v)
    (hr : r.key.isUpload = false) (hidle : ∀ row, w.jobs.row? r.key.text = some row → row.state ≠ "running") :
    outcome ≠ .dropped := by
  intro hdropped
  obtain ⟨-, row, j, hrow, hj, hcovers⟩ := h.dropped hdropped
  have hkey : j.key = r.key := JobKey.text_injective (hj.key.symm.trans (JobTable.key_of_row? hrow))
  rcases hcovers with hruns | ⟨hupload, -⟩ | ⟨-, hupload, -⟩
  · exact hidle row hrow (hj.state.trans (congrArg JobState.name hruns))
  · exact Bool.noConfusion (hr.symm.trans (hkey ▸ hupload))
  · exact Bool.noConfusion (hr.symm.trans (hkey ▸ hupload))

/-- A fresh job does not run. -/
theorem HasFresh.not_running {r : JobRequest} (h : HasFresh r told w.jobs) {row : JobRow}
    (hrow : w.jobs.row? r.key.text = some row) : row.state ≠ "running" := by
  obtain ⟨now, -, hdecode⟩ := h
  rw [hrow, Option.map_some] at hdecode
  have hj := JobRow.decode_eq_valid_iff.mp (Option.some.inj hdecode)
  rw [hj.state]
  exact (by decide : JobState.queued.name ≠ "running")

/-- The calls of a recovery. -/
def recovery (w : Chronicle) (now : Instant) : List Entry :=
  [⟨.jobs (.resetRunning now), .ok ((JobStatement.resetRunning now).run w.jobs).1, w.jobs,
    ((JobStatement.resetRunning now).run w.jobs).2⟩, ⟨.now, now, w.jobs, w.jobs⟩]

/-- The rows that ran were queued, and then fresh jobs put under the keys of scan and dispatch. -/
theorem Begun.of_healed {now : Instant} {told' : List Entry} {t u : Chronicle} {scanned dispatched : Enqueued}
    (hk : w.jobs.Keyed) (htable : t.jobs = ((JobStatement.resetRunning now).run w.jobs).2)
    (hpast : t.past = recovery w now ++ w.past) (hscan : Healed .scan scanned told t u)
    (hdispatch : Healed .dispatch dispatched told' u v) :
    Begun ((JobStatement.resetRunning now).run w.jobs).1 (told' ++ (told ++ recovery w now)) w v := by
  have hreset : ∀ key, t.jobs.row? key = (w.jobs.row? key).map (JobRow.recovered now) := by
    intro key
    rw [htable]
    exact JobTable.row?_run hk (.resetRunning now) key
  have hidle : ∀ key row, t.jobs.row? key = some row → row.state ≠ "running" := by
    intro key row hrow
    rw [hreset] at hrow
    obtain ⟨old, -, rfl⟩ := Option.map_eq_some_iff.mp hrow
    exact JobRow.recovered_not_running
  have hscanned : HasFresh .scan told u.jobs := hscan.fresh (hscan.not_dropped rfl (hidle _))
  have hkept : v.jobs.row? JobKey.scan.text = u.jobs.row? JobKey.scan.text := hdispatch.others _ (by decide)
  have hdispatched : HasFresh .dispatch told' v.jobs := by
    refine hdispatch.fresh (hdispatch.not_dropped rfl fun row hrow => hidle JobKey.dispatch.text row ?_)
    exact (hscan.others _ (by decide : JobKey.dispatch.text ≠ JobKey.scan.text)).symm.trans hrow
  have hrest : ∀ key, key ≠ JobKey.scan.text → key ≠ JobKey.dispatch.text →
      v.jobs.row? key = (w.jobs.row? key).map (JobRow.recovered now) := fun key hs hd =>
    (hdispatch.others key hd).trans ((hscan.others key hs).trans (hreset key))
  refine ⟨?_, rfl, ?_, ⟨now, ?_, ?_⟩, ?_, ?_⟩
  · rw [hdispatch.past, hscan.past, hpast, List.append_assoc, List.append_assoc]
  · intro row hrow hruns
    have hat := JobTable.row?_of_mem hdispatch.keyed hrow
    by_cases hd : row.key = JobKey.dispatch.text
    · exact hdispatched.not_running (hd ▸ hat) hruns
    · by_cases hs : row.key = JobKey.scan.text
      · exact hscanned.not_running (hkept.symm.trans (hs ▸ hat)) hruns
      · rw [hrest _ hs hd, ← hreset] at hat
        exact hidle _ row hat hruns
  · rw [← List.append_assoc, List.filterMap_append, show (recovery w now).filterMap Entry.shown? = [now] from rfl]
    exact List.getLast?_concat
  · intro row hrow hruns hs hd
    rw [hrest _ hs hd, JobTable.row?_of_mem hk hrow, Option.map_some, JobRow.recovered_of_running hruns]
    rfl
  · intro r hr
    rcases List.mem_cons.mp hr with rfl | hr
    · obtain ⟨at', hshown, hdecode⟩ := hscanned
      exact ⟨at', by simp [List.mem_of_mem_head? hshown], hkept ▸ hdecode⟩
    · obtain rfl := List.mem_singleton.mp hr
      obtain ⟨at', hshown, hdecode⟩ := hdispatched
      exact ⟨at', by simp [List.mem_of_mem_head? hshown], hdecode⟩
  · intro key hs hd hnot
    rw [hrest key hs hd]
    cases hrow : w.jobs.row? key with
    | none => rfl
    | some row =>
      have hstays := hnot row (JobTable.mem_of_row? hrow) (JobTable.key_of_row? hrow)
      rw [Option.map_some, JobRow.recovered_of_not_running hstays]

theorem meets_begin (hk : w.jobs.Keyed) {bad : Stop → Chronicle → Prop} :
    Meets alone (fun n v => ∃ told, Begun n told w v) bad (Backup.start false) w := by
  unfold Backup.start Queue.recover
  rw [if_neg (by decide), meets_bind, meets_bind, meets_now]
  refine fun now _ => meets_jobs.mpr ?_
  have hkeyed := JobTable.keyed_run hk (.resetRunning now)
  rw [meets_bind]
  refine Meets.mono (fun scanned u hscan => ?_) (fun _ _ h => h) (meets_heal hkeyed (by decide))
  obtain ⟨told, hscan⟩ := hscan
  rw [meets_bind]
  refine Meets.mono (fun dispatched v hdispatch => ?_) (fun _ _ h => h) (meets_heal hscan.keyed (by decide))
  obtain ⟨told', hdispatch⟩ := hdispatch
  exact ⟨_, Begun.of_healed hk rfl rfl hscan hdispatch⟩

end Chronicle

/-! ## A process starts once -/

/-- A process: its table with what happened to it, whether it noted a start, and how often it was asked to start. -/
structure Process where
  chronicle : Chronicle
  started : Bool
  asked : Nat

namespace Process

/-- A process that was not asked to start yet. -/
def new (w : Chronicle) : Process := ⟨w, false, 0⟩

/-- What happens to a process. -/
inductive Step : Process → Process → Prop where
  /-- It is asked to start, notes that, and does what it comes to. -/
  | start {p : Process} {rest : Script Call Call.Answer (Except Stop Nat)} {v : Chronicle}
      (h : Reaches Chronicle.alone (Backup.start p.started).run p.chronicle rest v) : Step p ⟨v, true, p.asked + 1⟩
  /-- Whatever else is done with the table. -/
  | other {p : Process} (v : Chronicle) : Step p { p with chronicle := v }

/-- A process noted a start if it was asked to start. -/
theorem started_eq {w : Chronicle} {p : Process} (h : Relation.ReflTransGen Step (new w) p) :
    p.started = decide (p.asked ≠ 0) := by
  induction h with
  | refl => rfl
  | tail _ hstep ih =>
    cases hstep with
    | start _ => rfl
    | other v => exact ih

/-- **A start from any table.**  The first start of a process always comes to its end, and every later one fails at once
    and changes nothing. -/
theorem start_exact {w : Chronicle} {p : Process} (h : Relation.ReflTransGen Step (new w) p)
    (hk : p.chronicle.jobs.Keyed) :
    (p.asked = 0 → Comes (Script.Goes Chronicle.Unfailing)
      (fun a => ∃ n told, a.1 = .done (.ok n) ∧ Chronicle.Begun n told p.chronicle a.2)
      ((Backup.start p.started).run, p.chronicle)) ∧
    (p.asked ≠ 0 → Comes (Script.Goes Chronicle.Unfailing)
      (· = (.done (.error (.failed (.transition .startedTwice))), p.chronicle))
      ((Backup.start p.started).run, p.chronicle)) := by
  rw [started_eq h]
  constructor
  · intro hfirst
    rw [hfirst]
    have hmeets : Meets Chronicle.alone (fun n v => ∃ told, Chronicle.Begun n told p.chronicle v) (fun _ _ => False)
      (Backup.start false) p.chronicle := Chronicle.meets_begin hk
    refine (Script.comes_of_keeps Chronicle.exists_unfailing hmeets).mono ?_
    rintro ⟨q, v⟩ ⟨result, rfl, hend⟩
    cases result with
    | error e => exact hend.elim
    | ok n =>
      obtain ⟨told, hbegun⟩ := hend
      exact ⟨n, told, rfl, hbegun⟩
  · intro hlater
    rw [decide_eq_true hlater]
    exact .here rfl

/-- An upload that runs, with a count of attempts that is none. -/
def uncountedUpload : JobRow :=
  { JobRow.ofJob (.fresh (.upload "a" .none) .epoch) with state := "running", attempt := .int (-1) }

/-- It is recovered as it is, and a damaged scan beside it makes way for a fresh one. -/
theorem start_exact_uncounted : Comes (Script.Goes Chronicle.Unfailing)
    (fun a => a.1 = .done (.ok 1) ∧ ∃ now : Instant, a.2.jobs.row? "upload:a" =
      some { uncountedUpload with state := "queued", nextRunAt := now.cell, updatedAt := now.cell })
    ((Backup.start false).run, ⟨[Desk.uncountedScan, uncountedUpload], []⟩) := by
  have hkeyed : JobTable.Keyed [Desk.uncountedScan, uncountedUpload] := (by decide : ["scan", "upload:a"].Nodup)
  have hstart := (start_exact (w := ⟨[Desk.uncountedScan, uncountedUpload], []⟩) .refl hkeyed).1 rfl
  refine hstart.mono ?_
  rintro a ⟨n, told, hend, hbegun⟩
  obtain rfl : n = 1 := hbegun.count
  obtain ⟨now, -, hqueued⟩ := hbegun.queued
  exact ⟨hend, now, hqueued uncountedUpload (.tail _ (.head _)) rfl (by decide) (by decide)⟩

end Process

end MediaBackup
