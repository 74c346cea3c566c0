import MediaBackup.Pass.Backup
import MediaBackup.Proofs.Queue.Rules
import MediaBackup.Proofs.Upload.Whole
import MediaBackup.Proofs.Workers.Basic

/-
  Where an upload under way stands.

  An upload sends its item, and if the exchange is an acknowledgement it marks the item in the ledger and
  then its job as succeeded; otherwise it writes another verdict to its job.  `legs` says just this about
  the questions it asks, stand by stand; that the work at an upload keeps to it is `work_keeps`.  What
  an interruption can leave behind is read off the stands: an acknowledgement without a mark, or a mark
  without a verdict.

  In a FRIENDLY world nothing fails.  There an upload has no other way than to succeed.
-/

namespace MediaBackup

/-- Where an upload stands. -/
inductive Stand where
  /-- It sent nothing that is still on its way, and nothing was acknowledged. -/
  | idle
  | waiting (exchange : Nat) (body : Body)
  /-- Its item was acknowledged but is not marked. -/
  | acked
  /-- Its item is marked, but its job is still running. -/
  | marked
  /-- Its verdict is written. -/
  | closed
  /-- The database failed after the acknowledgement. -/
  | lost

/-- An upload under way: the item, the claimed job and the stand. -/
structure Leg where
  id : String
  job : Job
  stand : Stand

namespace Leg

/-- The upload at another stand. -/
def move (l : Leg) (s : Stand) : Leg := { l with stand := s }

@[simp] theorem move_id (l : Leg) (s : Stand) : (l.move s).id = l.id := rfl

@[simp] theorem move_job (l : Leg) (s : Stand) : (l.move s).job = l.job := rfl

@[simp] theorem move_stand (l : Leg) (s : Stand) : (l.move s).stand = s := rfl

/-- What an upload may ask.  In a friendly world it writes no verdict but success. -/
def May (u : UploadSettings) (friendly : Prop) (l : Leg) : Call → Prop
  | .now | .emit _ => True
  | .openItem id => l.stand = .idle ∧ id = l.id
  | .send request body => l.stand = .idle ∧ request = u.request l.id ∧ body.buffered ≠ 0 ∧
      (friendly → body.content.failure = none)
  | .await n => ∃ body, l.stand = .waiting n body
  | .items (.mark id _) => l.stand = .acked ∧ id = l.id
  | .items (.exists _) => l.stand = .marked
  | .jobs (.updateIf j change) => j = l.job ∧ change.IsProper ∧
      ((l.stand = .marked ∧ change.state = .succeeded) ∨
        (l.stand = .idle ∧ ¬ friendly ∧ (change.state = .retrying ∨ change.state = .abandoned)))
  | _ => False

/-- What an upload has to expect, and where it stands then. -/
def Goes (friendly : Prop) (l : Leg) : (c : Call) → c.Answer → Leg → Prop
  | .now, t, l' => t.IsDate ∧ l' = l
  | .openItem _, x, l' => l' = l ∧ (friendly → ∃ c, x = .given c ∧ c.failure = none)
  | .send _ body, n, l' => l' = l.move (.waiting n body)
  | .await _, x, l' => ∃ n body, l.stand = .waiting n body ∧
      (∀ t answer, x = .ended t answer → ∃ asked, t = Transfer.ofBody body asked) ∧
      ((x.Acknowledges body ∧ l' = l.move .acked) ∨
        (¬ x.Acknowledges body ∧ ¬ friendly ∧ l' = l.move .idle))
  | .items (.mark _ _), .ok _, l' => l' = l.move .marked
  | .items (.exists _), .ok _, l' => l' = l
  | .items _, .error _, l' => ¬ friendly ∧ l' = l.move .lost
  | .jobs (.updateIf _ _), .ok b, l' => (friendly → b = true) ∧ l' = l.move .closed
  | .jobs _, .error _, l' => ¬ friendly ∧
      (l.stand = .marked ∧ l' = l.move .lost ∨ l.stand = .idle ∧ l' = l.move .closed)
  | _, _, l' => l' = l

/-- The protocol of uploads. -/
def legs (u : UploadSettings) (friendly : Prop) : Protocol Call Call.Answer Leg where
  may := May u friendly
  answers := Goes friendly

/-- How an upload ends: its verdict is written, in a friendly world success; or what was acknowledged is
    lost to the database. -/
def Ends (friendly : Prop) (r : Except Stop JobState) (l : Leg) : Prop :=
  (l.stand = .closed ∧ (friendly → r = .ok .succeeded) ∧ ∀ e, r = .error e → e.IsFatal) ∨
    (l.stand = .lost ∧ ∃ e, r = .error e ∧ e.IsFatal)

theorem legs_silent (u : UploadSettings) (friendly : Prop) : (legs u friendly).Silent Eq where
  trans _ _ _ h h' := h.trans h'
  mayNow _ := trivial
  now _ _ _ h := ⟨h.1, h.2.symm⟩
  mayEmit _ _ := trivial
  emit _ _ _ h := Eq.symm h

end Leg

namespace Upload

open Script Leg

variable {u : UploadSettings} {friendly : Prop} {l : Leg}

/-- How the attempt at an upload ends, before its verdict is written. -/
def AttemptEnds (friendly : Prop) (l : Leg) (o : Outcome) (l' : Leg) : Prop :=
  (o = .success ∧ l' = l.move .marked) ∨ (o ≠ .success ∧ ¬ friendly ∧ l' = l.move .idle)

/-- How the attempt at an upload is stopped. -/
def AttemptStops (friendly : Prop) (l : Leg) (e : Stop) (l' : Leg) : Prop :=
  (e.IsOfDatabase ∧ ¬ friendly ∧ l' = l.move .lost) ∨
  ((∃ words, e = .crashed words) ∧ ¬ friendly ∧ l' = l.move .idle)

theorem ne_success_of_objection? {t : Transfer} {answer : Except HostError Response} {o : Outcome}
    (h : objection? t answer = some o) : o ≠ .success := by
  rintro rfl
  unfold objection? at h
  split at h
  · cases h
  · cases h
  · cases h
  · split at h
    · unfold refusal at h
      dsimp only at h
      split at h
      · cases h
      · split at h <;> cases h
    · split at h <;> cases h

theorem buffered_ne_zero_of_breakdown? {s : UploadSettings} (h : breakdown? s = none) : s.buffered ≠ 0 := by
  unfold breakdown? at h
  split at h
  · exact nomatch h
  · assumption

theorem markUploaded_keeps {good : Unit → Leg → Prop} {bad : Stop → Leg → Prop}
    (hl : l.stand = .acked) (t : Instant)
    (hgood : good () (l.move .marked))
    (hbad : ∀ fault, ¬ friendly → bad (.failed (.database fault)) (l.move .lost)) :
    Meets (legs u friendly) good bad (Ledger.markUploaded l.id t) l := by
  unfold Ledger.markUploaded
  rw [meets_bind, Engine.meets_items]
  refine ⟨⟨hl, rfl⟩, ?_, ?_⟩
  · rintro changed _ rfl
    split
    · rw [meets_bind, Engine.meets_items]
      refine ⟨rfl, ?_, ?_⟩
      · rintro _ _ rfl
        exact hgood
      · rintro fault _ ⟨hf, rfl⟩
        exact hbad fault hf
    · exact hgood
  · rintro fault _ ⟨hf, rfl⟩
    exact hbad fault hf

theorem send_keeps (hl : l.stand = .idle) {c : Content} (hc : friendly → c.failure = none)
    (hu : friendly → breakdown? u = none) :
    Meets (legs u friendly) (AttemptEnds friendly l) (AttemptStops friendly l) (send u l.id c) l := by
  have hidle : l = l.move .idle := by
    obtain ⟨id, job, stand⟩ := l
    obtain rfl : stand = .idle := hl
    rfl
  unfold send
  split
  · -- the settings are impossible
    rename_i words hb
    rw [meets_bind, Engine.meets_crash]
    refine .inr ⟨⟨_, rfl⟩, fun hf => ?_, hidle⟩
    rw [hu hf] at hb
    exact nomatch hb
  rename_i hb
  have hbuf : u.buffered ≠ 0 := by
    refine buffered_ne_zero_of_breakdown? ?_
    cases h : breakdown? u with
    | none => rfl
    | some words => exact absurd h (hb words)
  rw [meets_bind, Engine.meets_call]
  refine ⟨⟨hl, rfl, hbuf, hc⟩, ?_⟩
  rintro n _ rfl
  rw [meets_bind, Engine.meets_call]
  refine ⟨⟨_, rfl⟩, ?_⟩
  rintro x l' ⟨m, body, hw, hform, hx⟩
  obtain ⟨rfl, rfl⟩ := Stand.waiting.inj hw
  cases x with
  | late =>
    obtain ⟨h, _⟩ | ⟨_, hf, rfl⟩ := hx
    · exact h.elim
    · exact .inr ⟨Outcome.noConfusion, hf, rfl⟩
  | crashed words =>
    obtain ⟨h, _⟩ | ⟨_, hf, rfl⟩ := hx
    · exact h.elim
    · exact .inr ⟨⟨words, rfl⟩, hf, rfl⟩
  | ended t answer =>
    obtain ⟨asked, rfl⟩ := hform t answer rfl
    have hiff := objection?_ofBody_eq_none_iff (b := u.body c) hbuf asked answer
    dsimp only
    cases ho : objection? (Transfer.ofBody (u.body c) asked) answer with
    | some o =>
      obtain ⟨h, _⟩ | ⟨_, hf, rfl⟩ := hx
      · rw [hiff.2 h] at ho
        exact nomatch ho
      · exact .inr ⟨ne_success_of_objection? ho, hf, rfl⟩
    | none =>
      obtain ⟨_, rfl⟩ | ⟨h, _⟩ := hx
      · dsimp only
        rw [meets_bind, Engine.meets_now]
        refine ⟨trivial, ?_⟩
        rintro now _ ⟨_, rfl⟩
        rw [meets_bind]
        refine markUploaded_keeps (l := l.move .acked) rfl now ?_ fun fault hf =>
          .inl ⟨⟨fault, rfl⟩, hf, rfl⟩
        rw [meets_bind, Engine.meets_emit]
        refine ⟨trivial, ?_⟩
        rintro _ _ rfl
        exact .inl ⟨rfl, rfl⟩
      · exact absurd (hiff.1 ho) h

theorem attempt_keeps (hl : l.stand = .idle) (hu : friendly → breakdown? u = none) :
    Meets (legs u friendly) (AttemptEnds friendly l) (AttemptStops friendly l) (attempt u l.id) l := by
  have hidle : l = l.move .idle := by
    obtain ⟨id, job, stand⟩ := l
    obtain rfl : stand = .idle := hl
    rfl
  unfold attempt
  rw [meets_bind, Engine.meets_call]
  refine ⟨⟨hl, rfl⟩, ?_⟩
  rintro x _ ⟨rfl, hx⟩
  have hf : (∀ c, x ≠ .given c) → ¬ friendly := by
    intro h hf
    obtain ⟨c, hc, _⟩ := hx hf
    exact h c hc
  cases x with
  | given c =>
    refine send_keeps hl (fun hf => ?_) hu
    obtain ⟨c', hc, hfail⟩ := hx hf
    obtain rfl := Reply.given.inj hc
    exact hfail
  | crashed words => exact .inr ⟨⟨words, rfl⟩, hf fun _ h => (nomatch h), hidle⟩
  | failed e =>
    have hfail := hf fun _ h => (nomatch h)
    cases e <;> exact .inr ⟨Outcome.noConfusion, hfail, hidle⟩

end Upload

namespace Backup

open Script Leg

variable {b : Backup} {friendly : Prop} {l : Leg}

/-- The end of the work at an upload: its outcome is written. -/
theorem complete_keeps {o : Outcome} (hj : l.job.IsProper) (hr : l.job.state = .running)
    (ho : (o = .success ∧ l.stand = .marked) ∨ (o ≠ .success ∧ ¬ friendly ∧ l.stand = .idle)) :
    Meets (legs b.uploads friendly) (fun s l' => Ends friendly (.ok s) l')
      (fun e l' => Ends friendly (.error e) l')
      (do match ← Engine.observe (Queue.complete b.retry l.job o) with
          | .ok j => pure j.state
          | .error (.failed e) => if e.isFatal then Engine.fail e else pure l.job.state
          | .error (.crashed words) => Engine.crash words) l := by
  rw [meets_bind, Engine.meets_observe]
  refine Queue.meets_complete (legs_silent b.uploads friendly) (fun h => absurd hr h) ?_
  rintro change _ _ _ hproper hgives rfl
  refine ⟨⟨rfl, hproper hj, ?_⟩, ?_, ?_, ?_⟩
  · obtain ⟨rfl, hs⟩ | ⟨hne, hf, hs⟩ := ho
    · exact .inl ⟨hs, hgives⟩
    · exact .inr ⟨hs, hf, hgives.of_ne_success hne⟩
  · rintro _ ⟨_, rfl⟩ _ rfl
    refine .inl ⟨rfl, fun hf => ?_, fun _ h => (nomatch h)⟩
    obtain ⟨rfl, _⟩ | ⟨_, hnf, _⟩ := ho
    · exact congrArg Except.ok hgives
    · exact absurd hf hnf
  · rintro _ ⟨htrue, rfl⟩
    exact .inl ⟨rfl, fun hf => (nomatch htrue hf), fun _ h => (nomatch h)⟩
  · rintro fault _ ⟨hf, ⟨_, rfl⟩ | ⟨_, rfl⟩⟩
    · exact .inr ⟨rfl, _, rfl, _, rfl, rfl⟩
    · exact .inl ⟨rfl, fun h => absurd h hf, fun _ h => Except.error.inj h ▸ ⟨_, rfl, rfl⟩⟩

/-- The work at a claimed upload keeps to the protocol of uploads. -/
theorem work_keeps (hkey : l.job.key = .upload l.id) (hj : l.job.IsProper) (hr : l.job.state = .running)
    (hl : l.stand = .idle) (hu : friendly → Upload.breakdown? b.uploads = none) :
    (b.work l.job).run.Keeps (legs b.uploads friendly) (Ends friendly) l := by
  suffices h : Meets (legs b.uploads friendly) (fun s l' => Ends friendly (.ok s) l')
      (fun e l' => Ends friendly (.error e) l') (b.work l.job) l by
    refine Keeps.mono ?_ h
    rintro (e | s) _ he <;> exact he
  have hp : b.perform l.job.key = Upload.attempt b.uploads l.id := by
    rw [hkey]
    rfl
  unfold work
  rw [meets_bind, Engine.meets_observe, hp]
  refine Meets.mono ?_ ?_ (Upload.attempt_keeps hl hu)
  · rintro o l' (⟨rfl, rfl⟩ | ⟨hne, hf, rfl⟩)
    · exact complete_keeps (l := l.move .marked) hj hr (.inl ⟨rfl, rfl⟩)
    · exact complete_keeps (l := l.move .idle) hj hr (.inr ⟨hne, hf, rfl⟩)
  · rintro e l' (⟨⟨fault, rfl⟩, hf, rfl⟩ | ⟨⟨words, rfl⟩, hf, rfl⟩)
    · dsimp only
      rw [if_pos (show (SyncError.database fault).isFatal = true from rfl), meets_bind, Engine.meets_fail]
      exact .inr ⟨rfl, _, rfl, _, rfl, rfl⟩
    · exact complete_keeps (l := l.move .idle) hj hr (.inr ⟨Outcome.noConfusion, hf, rfl⟩)

end Backup

end MediaBackup
