import MediaBackup.Proofs.Recovery.World
import MediaBackup.Proofs.Store.Table
import MediaBackup.Queue.Enqueue

/-
  The rounds of a request, where nobody else writes to the table.

  A round looks at the row of the key.  If there is none, or one whose job gives way, a fresh job is written, and alone
  with the table the request wins; if the job of the row covers the request, nothing is written.  A row that cannot be
  read is given up, and another round is made (`meets_round`).  If the key can be read that round finds a job that gives
  way, so two rounds are enough (`meets_enqueue`).

  Both rules hold in every world in which the program is alone with the table (`Solitary`), and ask what follows for
  each of the ways that a request can take.
-/

namespace MediaBackup

open Script

variable {σ : Type} {W : Ways σ} {jobs : σ → JobTable} {s : σ}

/-- The program is alone with the table: its statements are run on it, and nothing else changes it. -/
structure Solitary (W : Ways σ) (jobs : σ → JobTable) : Prop where
  now : ∀ {s t : σ} {now : Instant}, W s .now now t → now.IsDate ∧ jobs t = jobs s
  emit : ∀ {s t : σ} {e : SyncEvent} {x : Unit}, W s (.emit (.sync e)) x t → jobs t = jobs s
  run : ∀ {s t : σ} {st : JobStatement} {x : st.Answer}, W s (.jobs st) (.ok x) t →
    x = (st.run (jobs s)).1 ∧ jobs t = (st.run (jobs s)).2

/-- The clock was read, and then the row of a key. -/
def Finds (W : Ways σ) (key : String) (s : σ) (now : Instant) (found : Option Decoded) (u : σ) : Prop :=
  now.IsDate ∧ ∃ t, W s .now now t ∧ W t (.jobs (.find key)) (.ok found) u

/-- The row of a key was given up, and that was told. -/
def GivesUp (W : Ways σ) (key : String) (reason : RowFault) (s : σ) (now : Instant) (v : σ) : Prop :=
  now.IsDate ∧ ∃ t u, W s .now now t ∧ W t (.jobs (.quarantine key reason.message now)) (.ok ()) u ∧
    W u (.emit (.sync (.ledgerCorrupted key reason.message))) () v

/-- A fresh job took the place of another one, and that was told. -/
def Replaces (W : Ways σ) (fresh existing : Job) (s v : σ) : Prop :=
  ∃ u, W s (.jobs (.replaceIf fresh existing)) (.ok true) u ∧
    W u (.emit (.sync (.jobStateChanged fresh.key.text existing.state.name JobState.queued.name 0))) () v

/-! ## What the steps of a round do to the table -/

namespace Solitary

variable {key : String} {now : Instant} {u v : σ}

theorem jobs_of_finds (hw : Solitary W jobs) {found : Option Decoded} (h : Finds W key s now found u) :
    jobs u = jobs s ∧ found = ((jobs s).row? key).map JobRow.decode := by
  obtain ⟨-, t, hnow, hfind⟩ := h
  obtain ⟨hfound, hjobs⟩ := hw.run hfind
  rw [(hw.now hnow).2] at hfound hjobs
  exact ⟨hjobs, hfound⟩

theorem jobs_of_givesUp (hw : Solitary W jobs) {reason : RowFault} (h : GivesUp W key reason s now v) :
    jobs v = ((JobStatement.quarantine key reason.message now).run (jobs s)).2 := by
  obtain ⟨-, t, u, hnow, hgiven, htold⟩ := h
  rw [hw.emit htold, (hw.run hgiven).2, (hw.now hnow).2]

end Solitary

/-- The row of a proper key that was given up holds a job, and one that gives way. -/
theorem JobRow.quarantined_gives_way {r : JobRow} {k : JobKey} (hname : r.key = k.text) (hk : k.IsProper)
    (words : String) {now : Instant} (hdate : now.IsDate) :
    ∃ j, (r.quarantined words now).Says j ∧ j.key = k ∧ j.isReplaceable = true := by
  obtain ⟨j, hj, hkey⟩ := (JobRow.quarantined_isReadable r words hdate).exists_job hname hk
  have hstate : j.state = .abandoned := JobState.name_injective (hj.state.symm.trans rfl)
  have hreason : j.abandonReason = some .exhausted := by
    have hnames := hj.abandonReason.symm
    cases hr : j.abandonReason with
    | none => rw [hr] at hnames; exact absurd hnames.symm (Option.some_ne_none _)
    | some reason =>
      cases reason with
      | exhausted => rfl
      | permanent => rw [hr] at hnames; exact absurd (Option.some.inj hnames) (by decide)
  refine ⟨j, hj, hkey, ?_⟩
  unfold Job.isReplaceable Job.isTombstone
  rw [hstate, hreason]
  rfl

/-! ## One round -/

variable {r : JobRequest} {good : Enqueued → σ → Prop} {bad : Stop → σ → Prop}

/-- Giving up a row. -/
theorem Queue.meets_quarantine {key : String} {reason : RowFault} {good : Unit → σ → Prop} (hw : Solitary W jobs)
    (hbad : ∀ s st fault t, W s (.jobs st) (.error fault) t → bad (.failed (.database fault)) t)
    (h : ∀ now t, GivesUp W key reason s now t → good () t) :
    Meets (Protocol.alone W) good bad (Queue.quarantine key reason) s := by
  unfold Queue.quarantine
  rw [meets_bind, Engine.meets_now]
  refine ⟨trivial, fun now t hnow => ?_⟩
  refine meets_bind.mpr (Engine.meets_jobs.mpr ⟨trivial, fun _ u hgiven => ?_, fun fault u => hbad _ _ fault u⟩)
  refine Engine.meets_emit.mpr ⟨trivial, fun _ v htold => ?_⟩
  exact h now v ⟨(hw.now hnow).1, t, u, hnow, hgiven, htold⟩

/-- One round of a request. -/
theorem Queue.meets_round (hw : Solitary W jobs) (hk : (jobs s).Keyed)
    (hbad : ∀ s st fault t, W s (.jobs st) (.error fault) t → bad (.failed (.database fault)) t) (rounds : Nat)
    (hnew : ∀ now u v, Finds W r.key.text s now none u → (jobs s).row? r.key.text = none →
      W u (.jobs (.insertIfAbsent (.fresh r now))) (.ok true) v → good .inserted v)
    (hkept : ∀ now u row j, Finds W r.key.text s now (some (.valid j)) u → (jobs s).row? r.key.text = some row →
      row.Says j → j.key = r.key → j.isReplaceable = false → good .dropped u)
    (hover : ∀ now u v row j, Finds W r.key.text s now (some (.valid j)) u → (jobs s).row? r.key.text = some row →
      row.Says j → j.key = r.key → j.isReplaceable = true → Replaces W (.fresh r now) j u v → good .replaced v)
    (hcorrupt : ∀ now u later v row reason, Finds W r.key.text s now (some (.corrupt r.key.text reason)) u →
      (jobs s).row? r.key.text = some row → row.decode = .corrupt r.key.text reason →
      GivesUp W r.key.text reason u later v → Meets (Protocol.alone W) good bad (Queue.enqueueWithin r rounds) v) :
    Meets (Protocol.alone W) good bad (Queue.enqueueWithin r (rounds + 1)) s := by
  unfold Queue.enqueueWithin
  rw [meets_bind, Engine.meets_now]
  refine ⟨trivial, fun now t hnow => ?_⟩
  obtain ⟨hdate, hclock⟩ := hw.now hnow
  dsimp only
  rw [meets_bind, Engine.meets_jobs]
  refine ⟨trivial, fun found u hfind => ?_, fun fault v => hbad _ _ fault v⟩
  have hfinds : Finds W r.key.text s now found u := ⟨hdate, t, hnow, hfind⟩
  obtain ⟨hjobs, rfl⟩ := hw.jobs_of_finds hfinds
  cases hrow : (jobs s).row? r.key.text with
  | none =>
    rw [hrow] at hfinds
    rw [Option.map_none]
    dsimp only
    rw [meets_bind, Engine.meets_jobs]
    refine ⟨trivial, fun added v hadd => ?_, fun fault v => hbad _ _ fault v⟩
    have hadded : added = true := by
      rw [(hw.run hadd).1, hjobs, JobTable.answer_insertIfAbsent]
      exact congrArg Option.isNone hrow
    subst hadded
    exact hnew now u v hfinds hrow hadd
  | some row =>
    rw [hrow] at hfinds
    rw [Option.map_some] at hfinds ⊢
    cases hdecode : row.decode with
    | corrupt key reason =>
      obtain rfl : key = r.key.text := (JobRow.key_of_decode hdecode).trans (JobTable.key_of_row? hrow)
      rw [hdecode] at hfinds
      dsimp only
      rw [meets_bind]
      exact Queue.meets_quarantine hw hbad fun later v => hcorrupt now u later v row reason hfinds hrow hdecode
    | valid j =>
      rw [hdecode] at hfinds
      have hsaid := JobRow.decode_eq_valid_iff.mp hdecode
      have hkey : j.key = r.key := JobKey.text_injective (hsaid.key.symm.trans (JobTable.key_of_row? hrow))
      dsimp only
      cases hreplace : j.isReplaceable with
      | false =>
        rw [if_pos (by rfl)]
        exact hkept now u row j hfinds hrow hsaid hkey hreplace
      | true =>
        rw [if_neg (by decide), meets_bind, Engine.meets_jobs]
        refine ⟨trivial, fun won v hwon => ?_, fun fault v => hbad _ _ fault v⟩
        have hyes : won = true := by
          rw [(hw.run hwon).1, hjobs]
          exact JobTable.answer_replaceIf_of_isObserved hk hkey hrow hsaid.isObserved
        subst hyes
        rw [if_pos rfl, meets_bind]
        unfold Queue.announce
        rw [Engine.meets_emit]
        exact ⟨trivial, fun _ v' htold => hover now u v' row j hfinds hrow hsaid hkey hreplace ⟨v, hwon, htold⟩⟩

/-! ## A whole request -/

/-- A row that cannot be read was given up: what is left of it holds a job that gives way. -/
theorem Solitary.row?_of_givesUp (hw : Solitary W jobs) {key : JobKey} {reason : RowFault} {now : Instant} {v : σ}
    (h : GivesUp W key.text reason s now v) (hk : (jobs s).Keyed) (hproper : key.IsProper) {row : JobRow}
    (hrow : (jobs s).row? key.text = some row) :
    (jobs v).row? key.text = some (row.quarantined reason.message now) ∧
      ∃ j, (row.quarantined reason.message now).Says j ∧ j.key = key ∧ j.isReplaceable = true := by
  have hname : row.key = key.text := JobTable.key_of_row? hrow
  refine ⟨?_, JobRow.quarantined_gives_way hname hproper _ h.1⟩
  rw [hw.jobs_of_givesUp h, JobTable.row?_run hk, hrow]
  exact congrArg some (if_pos (beq_iff_eq.mpr hname))

/-- A request whose key can be read needs at most two rounds. -/
theorem Queue.meets_enqueue (hw : Solitary W jobs) (hk : (jobs s).Keyed) (hproper : r.key.IsProper)
    (hbad : ∀ s st fault t, W s (.jobs st) (.error fault) t → bad (.failed (.database fault)) t)
    (hnew : ∀ now u v, Finds W r.key.text s now none u → (jobs s).row? r.key.text = none →
      W u (.jobs (.insertIfAbsent (.fresh r now))) (.ok true) v → good .inserted v)
    (hkept : ∀ now u row j, Finds W r.key.text s now (some (.valid j)) u → (jobs s).row? r.key.text = some row →
      row.Says j → j.key = r.key → j.isReplaceable = false → good .dropped u)
    (hover : ∀ now u v row j, Finds W r.key.text s now (some (.valid j)) u → (jobs s).row? r.key.text = some row →
      row.Says j → j.key = r.key → j.isReplaceable = true → Replaces W (.fresh r now) j u v → good .replaced v)
    (hhealed : ∀ now u later v again u' v' row reason j,
      Finds W r.key.text s now (some (.corrupt r.key.text reason)) u → (jobs s).row? r.key.text = some row →
      row.decode = .corrupt r.key.text reason → GivesUp W r.key.text reason u later v →
      Finds W r.key.text v again (some (.valid j)) u' → (row.quarantined reason.message later).Says j →
      j.key = r.key → Replaces W (.fresh r again) j u' v' → good .replaced v') :
    Meets (Protocol.alone W) good bad (Queue.enqueue r) s := by
  refine Queue.meets_round hw hk hbad 15 hnew hkept hover fun now u later v row reason hfinds hrow hdecode hgiven => ?_
  have hjobs : jobs u = jobs s := (hw.jobs_of_finds hfinds).1
  obtain ⟨hleft, i, hi, hikey, hgives⟩ := hw.row?_of_givesUp hgiven (hjobs ▸ hk) hproper (hjobs ▸ hrow)
  have hkept' : (jobs v).Keyed := by
    rw [hw.jobs_of_givesUp hgiven]
    exact JobTable.keyed_run (hjobs ▸ hk) _
  -- the second round finds the row that was given up
  refine Queue.meets_round hw hkept' hbad 14 ?_ ?_ ?_ ?_
  · intro again u' v' _ hnone
    exact nomatch hleft.symm.trans hnone
  · intro again u' row' j _ hrow' hj _ hstays
    obtain rfl := Option.some.inj (hleft.symm.trans hrow')
    obtain rfl := Decoded.valid.inj ((JobRow.decode_eq_valid_iff.mpr hi).symm.trans (JobRow.decode_eq_valid_iff.mpr hj))
    exact nomatch hgives.symm.trans hstays
  · intro again u' v' row' j hfinds' hrow' hj hjkey _ hreplaced
    obtain rfl := Option.some.inj (hleft.symm.trans hrow')
    exact hhealed now u later v again u' v' row reason j hfinds hrow hdecode hgiven hfinds' hj hjkey hreplaced
  · intro again u' later' v' row' reason' _ hrow' hdecode' _
    obtain rfl := Option.some.inj (hleft.symm.trans hrow')
    exact nomatch (JobRow.decode_eq_valid_iff.mpr hi).symm.trans hdecode'

end MediaBackup
