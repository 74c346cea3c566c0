import MediaBackup.Proofs.Pass.Housekeeping
import MediaBackup.Proofs.Queue.Gathering
import MediaBackup.Proofs.Queue.Rounds
import MediaBackup.Proofs.Workers.Customs

/-
  What a request leaves of the row of its key.

  The request is run alone, its database does not fail, and every call is written down (`Chronicle`).  Then it always
  ends with an outcome, whatever the columns of the row hold.  A row that holds no job is given up once and told of
  once, and then replaced; nothing else is ever given up.  Where the request is not dropped its key has a fresh job,
  dated by the clock as it was read last.  What it drops it leaves, and it leaves the rows of all other keys (`Healed`).
-/

namespace MediaBackup

namespace Entry

/-- The key of the row that was given up. -/
def givenUp? : Entry → Option String
  | ⟨.jobs (.quarantine key _ _), _, _, _⟩ => some key
  | _ => none

/-- What was told of a row that holds no job. -/
def reported? : Entry → Option (String × String)
  | ⟨.emit (.sync (.ledgerCorrupted key words)), _, _, _⟩ => some (key, words)
  | _ => none

/-- What the clock showed. -/
def shown? : Entry → Option Instant
  | ⟨.now, t, _, _⟩ => some t
  | _ => none

end Entry

namespace Chronicle

open Script

variable {w v u : Chronicle} {r : JobRequest} {outcome : Enqueued} {told : List Entry}

/-! ## What a request leaves -/

/-- The key has a fresh job, dated by the clock as it was read last. -/
def HasFresh (r : JobRequest) (told : List Entry) (t : JobTable) : Prop :=
  ∃ now : Instant, (told.filterMap Entry.shown?).head? = some now ∧
    (t.row? r.key.text).map JobRow.decode = some (.valid (JobRow.stored (.fresh r now)))

/-- What is left when a request came to its outcome by these calls. -/
structure Healed (r : JobRequest) (outcome : Enqueued) (told : List Entry) (w v : Chronicle) : Prop where
  past : v.past = told ++ w.past
  /-- A row that holds no job was given up and told of, once, and then replaced. -/
  corrupt : ∀ row reason, w.jobs.row? r.key.text = some row → row.decode = .corrupt r.key.text reason →
    outcome = .replaced ∧ told.filterMap Entry.givenUp? = [r.key.text] ∧
      told.filterMap Entry.reported? = [(r.key.text, reason.message)]
  /-- Else nothing was given up. -/
  sound : (∀ row, w.jobs.row? r.key.text = some row → ∃ j, row.Says j) →
    told.filterMap Entry.givenUp? = [] ∧ told.filterMap Entry.reported? = []
  fresh : outcome ≠ .dropped → HasFresh r told v.jobs
  /-- A request is dropped for a job that covers it, and leaves it. -/
  dropped : outcome = .dropped →
    v.jobs = w.jobs ∧ ∃ row j, w.jobs.row? r.key.text = some row ∧ row.Says j ∧ Workers.Covers j
  others : ∀ key, key ≠ r.key.text → v.jobs.row? key = w.jobs.row? key
  keyed : v.jobs.Keyed

/-- The row of a fresh job holds it. -/
theorem hasFresh_of_sets {t t' : JobTable} {now : Instant} (hr : r.key.IsProper) (hdate : now.IsDate)
    (hsets : t.Sets r.key (.ofJob (.fresh r now)) t') (hshown : (told.filterMap Entry.shown?).head? = some now) :
    HasFresh r told t' := by
  refine ⟨now, hshown, ?_⟩
  rw [show t'.row? r.key.text = _ from hsets.own, Option.map_some]
  exact congrArg some (JobRow.decode_eq_valid_iff.mpr (JobRow.ofJob_says (Job.fresh_isProper r hdate) hr))

theorem meets_heal (hk : w.jobs.Keyed) (hr : r.key.IsProper) {bad : Stop → Chronicle → Prop} :
    Meets alone (fun outcome v => ∃ told, Healed r outcome told w v) bad (Queue.enqueue r) w := by
  refine Queue.meets_enqueue solitary hk hr (fun s st fault t h => (not_fails s st fault t h).elim) ?_ ?_ ?_ ?_
  · intro now u v hfinds hnone hadds
    have hdate := hfinds.1
    obtain rfl := eq_of_finds hfinds
    obtain rfl := hadds.of_jobs.2
    refine ⟨[_, _, _], rfl, ?_, fun _ => ⟨rfl, rfl⟩, ?_, Enqueued.noConfusion, ?_, ?_⟩
    · intro row reason hrow
      exact nomatch hnone.symm.trans hrow
    · have hnone : w.jobs.at? (Job.fresh r now).key = none := hnone
      exact fun _ => hasFresh_of_sets hr hdate (JobTable.sets_insertIfAbsent hk hnone) rfl
    · exact fun key hne => JobTable.row?_run_of_target hk rfl hne
    · exact JobTable.keyed_run hk _
  · intro now u row j hfinds hrow hj _ hstays
    obtain rfl := eq_of_finds hfinds
    refine ⟨[_, _], rfl, ?_, fun _ => ⟨rfl, rfl⟩, fun hne => absurd rfl hne, ?_, fun _ _ => rfl, hk⟩
    · intro row' reason hrow' hdecode
      obtain rfl := Option.some.inj (hrow.symm.trans hrow')
      exact nomatch (JobRow.decode_eq_valid_iff.mpr hj).symm.trans hdecode
    · exact fun _ => ⟨rfl, row, j, hrow, hj, Workers.covers_of_not_isReplaceable hstays⟩
  · intro now u v row j hfinds hrow hj hkey _ hreplaces
    have hdate := hfinds.1
    obtain rfl := eq_of_finds hfinds
    obtain rfl := eq_of_replaces hreplaces
    refine ⟨[_, _, _, _], rfl, ?_, fun _ => ⟨rfl, rfl⟩, ?_, Enqueued.noConfusion, ?_, ?_⟩
    · intro row' reason hrow' hdecode
      obtain rfl := Option.some.inj (hrow.symm.trans hrow')
      exact nomatch (JobRow.decode_eq_valid_iff.mpr hj).symm.trans hdecode
    · have hrow : w.jobs.at? (Job.fresh r now).key = some row := hrow
      exact fun _ => hasFresh_of_sets hr hdate (JobTable.sets_replaceIf hk hkey hrow hj.isObserved) rfl
    · exact fun key hne => JobTable.row?_run_of_target hk rfl hne
    · exact JobTable.keyed_run hk _
  · intro now u later v again u' v' row reason j hfinds hrow hdecode hgiven hfinds' hj hkey hreplaces
    have hdate := hfinds'.1
    obtain rfl := eq_of_finds hfinds
    obtain ⟨hleft, -⟩ := solitary.row?_of_givesUp hgiven hk hr hrow
    obtain rfl := eq_of_givesUp hgiven
    obtain rfl := eq_of_finds hfinds'
    obtain rfl := eq_of_replaces hreplaces
    have hkeyed := JobTable.keyed_run hk (.quarantine r.key.text reason.message later)
    refine ⟨[_, _, _, _, _, _, _, _, _], rfl, ?_, ?_, ?_, Enqueued.noConfusion, ?_, ?_⟩
    · intro row' reason' hrow' hdecode'
      obtain rfl := Option.some.inj (hrow.symm.trans hrow')
      obtain ⟨-, rfl⟩ := Decoded.corrupt.inj (hdecode.symm.trans hdecode')
      exact ⟨rfl, rfl, rfl⟩
    · intro hsound
      obtain ⟨i, hi⟩ := hsound row hrow
      exact nomatch (JobRow.decode_eq_valid_iff.mpr hi).symm.trans hdecode
    · have hleft : JobTable.at? _ (Job.fresh r again).key = _ := hleft
      exact fun _ => hasFresh_of_sets hr hdate (JobTable.sets_replaceIf hkeyed hkey hleft hj.isObserved) rfl
    · intro key hne
      exact (JobTable.row?_run_of_target hkeyed rfl hne).trans (JobTable.row?_run_of_target hk rfl hne)
    · exact JobTable.keyed_run hkeyed _

/-- **A request heals the row of its key.** -/
theorem enqueue_heals (hk : w.jobs.Keyed) (hr : r.key.IsProper) :
    Comes (Script.Goes Unfailing) (fun a => ∃ outcome told, a.1 = .done (.ok outcome) ∧ Healed r outcome told w a.2)
      ((Queue.enqueue r).run, w) := by
  have hmeets : Meets alone (fun outcome v => ∃ told, Healed r outcome told w v) (fun _ _ => False)
    (Queue.enqueue r) w := meets_heal hk hr
  refine (Script.comes_of_keeps exists_unfailing hmeets).mono ?_
  rintro ⟨p, v⟩ ⟨result, rfl, hend⟩
  cases result with
  | error e => exact hend.elim
  | ok outcome =>
    obtain ⟨told, hhealed⟩ := hend
    exact ⟨outcome, told, rfl, hhealed⟩

/-- A scan with a wrong count of attempts is given up once, and a fresh one takes its place. -/
theorem enqueue_heals_uncounted : Comes (Script.Goes Unfailing) (fun a => ∃ told, a.1 = .done (.ok .replaced) ∧
      told.filterMap Entry.givenUp? = ["scan"] ∧ HasFresh .scan told a.2.jobs)
    ((Queue.enqueue .scan).run, ⟨[Desk.uncountedScan], []⟩) := by
  have hdecode : Desk.uncountedScan.decode = .corrupt "scan" (.outOfRange "attempt" (-1)) := rfl
  have hkeyed : JobTable.Keyed [Desk.uncountedScan] := List.pairwise_singleton _ _
  refine (enqueue_heals (w := ⟨[Desk.uncountedScan], []⟩) (r := .scan) hkeyed JobKey.noConfusion).mono ?_
  rintro a ⟨outcome, told, hend, hhealed⟩
  obtain ⟨rfl, hgiven, -⟩ := hhealed.corrupt _ _ rfl hdecode
  exact ⟨told, hend, hgiven, hhealed.fresh Enqueued.noConfusion⟩

end Chronicle

end MediaBackup
