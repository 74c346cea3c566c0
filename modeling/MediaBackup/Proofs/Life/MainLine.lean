import MediaBackup.Proofs.Life.Line

/-
  The main line of a pass keeps to its duty.

  Up to the first upload it is at its housekeeping, since scans and dispatches come first in the list of what is due.
  It starts every upload that it claimed and joins every upload that it started, and it ends with an error only if
  the database failed it or one of its uploads.
-/

namespace MediaBackup.Line

open Script Workers

variable {b : Backup} {m : Line} {n : Nat}

/-- A claim of a scan or a dispatch leaves the main line at its housekeeping. -/
theorem meets_claim_housekeeping {j : Job} (hk : j.key.isHousekeeping = true) (hj : j.IsProper)
    (hm : m.Upkeep n) :
    Meets duty.engine (fun o m' => m'.Upkeep n ∧ ∀ c, o = some c → c.key = j.key ∧ c.IsProper)
      (fun e m' => m'.Upkeep n ∧ e.IsError) (Queue.claim j) m := by
  have hnext : ∀ change won, m.updated j change won = m :=
    fun change won => updated_of_isHousekeeping hk change won
  refine Queue.meets_claim duty_silent (fun _ => ⟨hm, _, rfl⟩) ?_
  rintro hq now _ hdate rfl
  refine ⟨⟨hj.claimChange hdate, .inl hk⟩, ?_, ?_, ?_⟩
  · rintro _ ⟨_, rfl⟩ _ rfl
    refine ⟨?_, ?_⟩
    · show (m.updated j _ true).Upkeep n
      rw [hnext]
      exact hm
    · rintro c hc
      obtain rfl := Option.some.inj hc
      exact ⟨rfl, hj.claimed (hj.claimChange hdate)⟩
  · rintro _ ⟨_, rfl⟩
    refine ⟨?_, fun _ h => (nomatch h)⟩
    show (m.updated j _ false).Upkeep n
    rw [hnext]
    exact hm
  · rintro fault _ ⟨_, rfl⟩
    refine ⟨?_, _, rfl⟩
    show (m.updated j _ false).Upkeep n
    rw [hnext]
    exact hm

/-- A claim of an upload that is won puts it into the hand of the main line. -/
theorem meets_claim_upload {j : Job} {id : String} (hk : j.key = .upload id) (hid : id ≠ "")
    (hj : j.IsProper)
    (hm : m.Free n) :
    Meets duty.engine
      (fun o m' => match o with
        | some c => m'.hand = some ⟨id, c, .idle⟩ ∧ m'.opened = n ∧ m'.sunk = false
        | none => m'.Free n)
      (fun e m' => m'.Free n ∧ e.IsError) (Queue.claim j) m := by
  have hnext : ∀ change won,
      m.updated j change won =
        { m with upkeep := none, hand := if won then some ⟨id, j.claimed change, .idle⟩ else none } := by
    intro change won
    unfold updated
    rw [hk]
  have hfree : ∀ change, (m.updated j change false).Free n := by
    intro change
    rw [hnext]
    exact ⟨rfl, hm.opened, hm.sunk⟩
  refine Queue.meets_claim duty_silent (fun _ => ⟨hm, _, rfl⟩) ?_
  rintro hq now _ hdate rfl
  refine ⟨⟨hj.claimChange hdate, .inr (.inr ⟨⟨⟨id, hk, hid⟩, hj, hq, rfl⟩, hm.hand⟩)⟩, ?_, ?_, ?_⟩
  · rintro _ ⟨_, rfl⟩ _ rfl
    show (m.updated j _ true).hand = _ ∧ (m.updated j _ true).opened = n ∧ (m.updated j _ true).sunk = false
    rw [hnext]
    exact ⟨rfl, hm.opened, hm.sunk⟩
  · rintro _ ⟨_, rfl⟩
    exact hfree _
  · rintro fault _ ⟨_, rfl⟩
    exact ⟨hfree _, _, rfl⟩

/-- The jobs still to be run: proper ones, and no housekeeping once an upload was claimed. -/
structure Agenda (jobs : List Job) (m : Line) : Prop where
  isProper : ∀ j ∈ jobs, j.IsProper ∧ j.key.IsProper
  order : jobs.Pairwise fun i j => i.key.isUpload = true → j.key.isUpload = true
  upkeep : m.upkeep.isSome = true ∨ ∀ j ∈ jobs, j.key.isUpload = true

theorem Agenda.tail {j : Job} {jobs : List Job} {m' : Line} (h : Agenda (j :: jobs) m)
    (hm : m'.upkeep.isSome = true ∨ j.key.isUpload = true) : Agenda jobs m' where
  isProper i hi := h.isProper i (List.mem_cons_of_mem _ hi)
  order := (List.pairwise_cons.1 h.order).2
  upkeep := hm.imp id fun hj i hi => (List.pairwise_cons.1 h.order).1 i hi hj

/-- The main line at the head of the loop through the jobs. -/
structure Turn (jobs : List Job) (p : Pass.Progress) (m : Line) :
    Prop extends Agenda jobs m, Free m p.uploads where
  fatal : p.fatal = none

/-- The main line after the loop. -/
structure Run (p : Pass.Progress) (m : Line) : Prop extends Free m p.uploads where
  fatal : ∀ e, p.fatal = some e → e.isFatal = true

theorem Free.run_failed {p : Pass.Progress} (hm : m.Free p.uploads) (hp : p.fatal = none) {e : SyncError}
    (he : e.isFatal = true) : Run (p.failed e) m := by
  refine { hm with fatal := fun e' h => ?_ }
  unfold Pass.Progress.failed at h
  rw [hp] at h
  exact Option.some.inj h ▸ he

theorem Turn.upload {j : Job} {jobs : List Job} {p : Pass.Progress} (h : Turn (j :: jobs) p m)
    (hj : j.key.isUpload = true) : ∃ id, j.key = .upload id ∧ id ≠ "" := by
  obtain ⟨_, hproper⟩ := h.isProper j List.mem_cons_self
  cases hk : j.key with
  | upload id => exact ⟨id, rfl, fun e => hproper (e ▸ hk)⟩
  | scan => rw [hk] at hj; exact nomatch hj
  | dispatch => rw [hk] at hj; exact nomatch hj

/-- Every turn of the loop through the jobs keeps the main line to its duty. -/
theorem loop : Pass.Loop duty b (fun jobs _ p m => Turn jobs p m)
    (fun j jobs _ p m => Turn (j :: jobs) p m ∧ j.key.isUpload = true) Run (fun e _ => e.IsFatal) where
  ended h := { h with fatal := fun e he => by rw [h.fatal] at he; exact nomatch he }
  deferred h _ := { h with
    toAgenda := ⟨fun i hi => h.isProper i (List.mem_cons_of_mem _ hi), (List.pairwise_cons.1 h.order).2,
      h.upkeep.imp id fun hall i hi => hall i (List.mem_cons_of_mem _ hi)⟩ }
  housekeeping := by
    intro j jobs seen p m h _ hj
    have hk : j.key.isHousekeeping = true := by
      rw [isUpload_eq_not, Bool.not_eq_false'] at hj
      exact hj
    have hup : m.Upkeep p.uploads := by
      refine { h with upkeep := h.upkeep.resolve_right fun hall => ?_ }
      rw [hall j List.mem_cons_self] at hj
      exact nomatch hj
    refine Pass.meets_tryClaim (meets_claim_housekeeping hk (h.isProper j List.mem_cons_self).1 hup)
      ?_ ?_ ?_ ?_ ?_
    · rintro c m' ⟨hm', hc⟩
      obtain ⟨hck, hcp⟩ := hc c rfl
      refine Meets.mono (fun state u hu => ?_) (fun e u hu => ?_) (meets_work (hck ▸ hk) hcp hm')
      · exact { h.toAgenda.tail (.inl hu.upkeep), hu with fatal := h.fatal }
      · obtain ⟨hu, error, rfl, hf⟩ := hu
        exact Free.run_failed (p := p.started) hu.toFree h.fatal hf
    · rintro m' ⟨hm', _⟩
      exact { h.toAgenda.tail (.inl hm'.upkeep), hm' with fatal := h.fatal }
    · rintro e m' ⟨hm', _⟩ he
      exact hm'.toFree.run_failed h.fatal he
    · rintro e m' ⟨hm', _⟩ _
      exact { h.toAgenda.tail (.inl hm'.upkeep), hm' with fatal := h.fatal }
    · rintro words m' ⟨_, error, he⟩
      exact nomatch he
  permit := by
    intro j jobs seen p m h _ hj
    refine Pass.meets_takePermit trivial ?_ ?_
    · rintro _ ⟨_, rfl⟩
      exact ⟨h, hj⟩
    · rintro _ ⟨_, rfl⟩
      refine ⟨trivial, ?_⟩
      rintro _ ⟨_, rfl⟩
      rw [if_pos rfl]
      refine Pass.meets_look trivial ?_ ?_ ?_
      · rintro _ ⟨_, rfl⟩
        exact ⟨h, hj⟩
      · rintro info _ ⟨_, rfl⟩
        exact ⟨h, hj⟩
      · rintro e _ ⟨_, rfl⟩
        exact ⟨h, hj⟩
  returned := by
    rintro j jobs seen p m ⟨h, hj⟩ _
    refine ⟨trivial, ?_⟩
    rintro _ _ ⟨_, rfl⟩
    exact { h.toAgenda.tail (.inr hj), h with fatal := h.fatal }
  upload := by
    rintro j jobs seen p m ⟨h, hj⟩ _
    obtain ⟨id, hk, hid⟩ := h.upload hj
    refine Pass.meets_tryClaim
      (meets_claim_upload hk hid (h.isProper j List.mem_cons_self).1 h.toFree) ?_ ?_ ?_ ?_ ?_
    · rintro c m' ⟨hhand, hopened, hsunk⟩
      refine ⟨⟨id, hhand⟩, ?_⟩
      rintro _ _ ⟨_, rfl⟩
      exact { h.toAgenda.tail (.inr hj) with hand := rfl, opened := congrArg (· + 1) hopened, sunk := hsunk, fatal := h.fatal }
    · intro m' hm'
      refine ⟨trivial, ?_⟩
      rintro _ _ ⟨_, rfl⟩
      exact { h.toAgenda.tail (.inr hj), hm' with fatal := h.fatal }
    · rintro e m' ⟨hm', _⟩ he
      refine ⟨trivial, ?_⟩
      rintro _ _ ⟨_, rfl⟩
      exact hm'.run_failed h.fatal he
    · rintro e m' ⟨hm', _⟩ _
      refine ⟨trivial, ?_⟩
      rintro _ _ ⟨_, rfl⟩
      exact { h.toAgenda.tail (.inr hj), hm' with fatal := h.fatal }
    · rintro words m' ⟨_, error, he⟩
      exact nomatch he

/-- The main line while it joins uploads. -/
structure Joining (n : Nat) (p : Pass.Progress) (m : Line) : Prop where
  hand : m.hand = none
  opened : m.opened = n
  sunk : m.sunk = true → p.fatal.isSome = true
  fatal : ∀ e, p.fatal = some e → e.isFatal = true

theorem Joining.joined {p : Pass.Progress} (h : Joining (n + 1) p m) {r : Except Stop JobState}
    (hr : ∀ e, r = .error e → e.IsFatal) : Joining n (p.joined r) (m.next .join r) := by
  have hopened : m.opened - 1 = n := by
    rw [h.opened]
    rfl
  cases r with
  | ok state => exact ⟨h.hand, hopened, h.sunk, h.fatal⟩
  | error e =>
    obtain ⟨error, rfl, hf⟩ := hr e rfl
    refine ⟨h.hand, hopened, fun _ => rfl, fun e' he' => ?_⟩
    cases hp : p.fatal with
    | none =>
      replace he' : some (p.fatal.getD error) = some e' := he'
      rw [hp] at he'
      exact Option.some.inj he' ▸ hf
    | some e =>
      replace he' : some (p.fatal.getD error) = some e' := he'
      rw [hp] at he'
      exact Option.some.inj he' ▸ h.fatal e hp

/-- How a pass ends: every upload that was started was joined and none had been stopped, or the database failed. -/
def Ends (r : Except Stop PassReport) (m : Line) : Prop :=
  match r with
  | .ok _ => m.hand = none ∧ m.opened = 0 ∧ m.sunk = false
  | .error e => e.IsFatal

/-- The loop that joins the uploads. -/
theorem Joining.meets_joinUploads {n : Nat} {p : Pass.Progress} (h : Joining n p m) :
    Meets duty (Joining 0) (fun e _ => Stop.IsFatal e) (Pass.joinUploads n p) m := by
  refine Pass.meets_joinUploads (fun {n q m'} hq => ⟨trivial, ?_⟩) h
  rintro r _ ⟨hr, rfl⟩
  exact hq.joined hr

/-- The main line of a pass keeps to its duty. -/
theorem run_keeps (b : Backup) : (ExceptT.run (Pass.run b)).Keeps duty Ends first := by
  suffices h : Meets duty (fun _ m => m.hand = none ∧ m.opened = 0 ∧ m.sunk = false)
    (fun e _ => e.IsFatal) (Pass.run b) first by
    refine Keeps.mono ?_ h
    rintro (e | r) _ he <;> exact he
  refine Pass.meets_run Run (Joining 0) ?_ (fun p m hp => ?_) fun q m hq =>
    ⟨fun hf => ?_, fun e hf => ⟨e, rfl, hq.fatal e hf⟩⟩
  · refine Meets.mono ?_ ?_ (meets_operation b.retry .promote trivial fun acts st hst => ?_)
    case refine_2 =>
      rintro e _ ⟨rfl, acts, hends⟩
      exact (hends e rfl).isFatal
    case refine_3 =>
      cases st with
      | promote now => exact .inl trivial
      | _ => exact hst.elim
    rintro promoted _ ⟨rfl, _⟩
    refine Meets.mono ?_ ?_ (meets_operation b.retry .due trivial fun acts st hst => ?_)
    case refine_2 =>
      rintro e _ ⟨rfl, acts, hends⟩
      exact (hends.1 e rfl).isFatal
    case refine_3 =>
      cases st with
      | listDue now => exact .inl trivial
      | quarantine key reason now => exact .inl hst
      | _ => exact hst.elim
    rintro due _ ⟨rfl, acts, hends⟩
    have hdue : Arranged due.jobs := hends.2 due rfl
    refine ⟨fun _ => ⟨rfl, rfl, rfl⟩, fun _ => ?_⟩
    have hturn : ∀ seen, Meets duty Run (fun e _ => e.IsFatal) (Pass.runJobs b due.jobs seen
        ⟨{ (default : PassReport) with promoted := promoted, quarantined := due.quarantined }, 0,
          none⟩) first := fun _ =>
      loop.meets_runJobs ⟨⟨hdue.isProper, hdue.pairwise, .inl rfl⟩, ⟨rfl, rfl, rfl⟩, rfl⟩
    refine Pass.meets_look trivial ?_ ?_ ?_
    · rintro _ ⟨_, rfl⟩
      exact hturn _
    · rintro info _ ⟨_, rfl⟩
      exact hturn _
    · rintro e _ ⟨_, rfl⟩
      exact hturn _
  · have hjoining : Joining p.uploads p m :=
      ⟨hp.hand, hp.opened, fun hs => absurd (hp.sunk.symm.trans hs) Bool.false_ne_true, hp.fatal⟩
    exact hjoining.meets_joinUploads
  · refine ⟨hq.hand, hq.opened, eq_false_of_ne_true fun hs => ?_⟩
    have hkept := hq.sunk hs
    rw [hf] at hkept
    exact Bool.false_ne_true hkept

end MediaBackup.Line
