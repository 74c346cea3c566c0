import MediaBackup.Pass.Backup
import MediaBackup.Proofs.Engine.Protocol
import MediaBackup.Proofs.Store.ItemReading

/-
  What the work at a job preserves, under any protocol.

  The work at a job runs two operations of the queue: it may request jobs, and it completes the job.  All its other
  calls are MINOR: they go to the world around it and to the table of items, where they write dates that the clock
  showed.  So what these calls and the two operations preserve, the whole work preserves (`Minor.work`).  The programs
  are taken apart by rules, one for each way in which programs are put together.

  Of what stops a program the rules tell two things: the property is preserved up to there, and an error that nothing
  can be done about has been given by the table of items or by one of the two operations (`Upholds`).
-/

namespace MediaBackup

open Script

/-- From wherever it starts the program asks only what it may, and it preserves the property. -/
def Engine.Preserves {σ α : Type} (w : Protocol Call Call.Answer σ) (I : σ → Prop) (p : Engine α) : Prop :=
  ∀ s, I s → Meets w (fun _ => I) (fun _ => I) p s

/-- It preserves the property, and an error that nothing can be done about is one that may be blamed. -/
def Engine.Upholds {σ α : Type} (w : Protocol Call Call.Answer σ) (I : σ → Prop) (blamed : Stop → σ → Prop)
    (p : Engine α) : Prop :=
  ∀ s, I s → Meets w (fun _ => I) (fun e t => I t ∧ (e.IsFatal → blamed e t)) p s

/-- The call neither runs a statement on the table of jobs nor looks at the network, and what it writes is dated. -/
def Call.IsMinor : Call → Prop
  | .jobs _ | .network => False
  | .items st => st.IsDated
  | _ => True

/-- The requests that are made in the work at a job. -/
def JobKey.Requests : JobKey → JobRequest → Prop
  | .scan, r => r = .dispatch
  | .dispatch, r => r.key.isUpload = true
  | .upload _, _ => False

/-- No work requests the job that it is done for. -/
theorem JobKey.Requests.ne_key {k : JobKey} {r : JobRequest} (h : k.Requests r) : k ≠ r.key := by
  cases k with
  | scan => exact fun heq => JobKey.noConfusion (heq.trans (congrArg JobRequest.key h))
  | dispatch => exact fun heq => absurd (heq ▸ h : JobKey.dispatch.isUpload = true) Bool.false_ne_true
  | upload id => exact h.elim

/-- Housekeeping is requested by scans alone, which request a dispatch. -/
theorem JobKey.Requests.of_housekeeping {k : JobKey} {r : JobRequest} (h : k.Requests r)
    (hr : r.key.isUpload = false) : r = .dispatch ∧ k = .scan := by
  cases k with
  | scan => exact ⟨h, rfl⟩
  | dispatch => exact absurd h (ne_true_of_eq_false hr)
  | upload id => exact h.elim

/-- What the work at a job comes to, before it is written. -/
def Backup.outcome (b : Backup) (j : Job) : Engine Outcome := do
  match ← Engine.observe (b.perform j.key) with
  | .ok outcome => pure outcome
  | .error (.failed e) => if e.isFatal then Engine.fail e else outcomeOf j e
  | .error (.crashed words) => pure (outcomeOfBreakdown words)

/-- Writes what the work at a job came to: the state of the job after it. -/
def Backup.conclude (b : Backup) (j : Job) (o : Outcome) : Engine JobState := do
  match ← Engine.observe (Queue.complete b.retry j o) with
  | .ok j => pure j.state
  | .error (.failed e) => if e.isFatal then Engine.fail e else pure j.state
  | .error (.crashed words) => Engine.crash words

namespace Engine

variable {σ α β : Type} {w : Protocol Call Call.Answer σ} {I : σ → Prop} {blamed : Stop → σ → Prop}

/-! ## How programs are put together -/

theorem upholds_pure (a : α) : Upholds w I blamed (pure a : Engine α) := fun _ h => h

theorem upholds_fail {e : SyncError} (he : e.isFatal = false) : Upholds w I blamed (fail (α := α) e) := by
  refine fun _ h => meets_fail.mpr ⟨h, ?_⟩
  rintro ⟨_, heq, hfatal⟩
  obtain rfl := Stop.failed.inj heq
  exact absurd hfatal (ne_true_of_eq_false he)

theorem upholds_crash (words : Option String) : Upholds w I blamed (crash (α := α) words) :=
  fun _ h => meets_crash.mpr ⟨h, fun ⟨_, heq, _⟩ => nomatch heq⟩

theorem upholds_bind {p : Engine α} {f : α → Engine β} (hp : Upholds w I blamed p)
    (hf : ∀ a, Upholds w I blamed (f a)) : Upholds w I blamed (p >>= f) := by
  intro s hs
  rw [meets_bind]
  exact (hp s hs).mono (fun a t ht => hf a t ht) fun _ _ ht => ht

theorem upholds_ofReply (x : Reply α) : Upholds w I blamed (ofReply x) := by
  cases x with
  | given a => exact upholds_pure (Except.ok a)
  | failed e => exact upholds_pure (Except.error e)
  | crashed words => exact upholds_crash words

theorem upholds_enqueueUploads (constraints : Constraints)
    (henqueue : ∀ r : JobRequest, r.key.isUpload = true → Upholds w I blamed (Queue.enqueue r)) (items : List Item)
    (count : Nat) : Upholds w I blamed (Queue.enqueueUploads constraints items count) := by
  induction items generalizing count with
  | nil => exact upholds_pure count
  | cons i items ih => exact upholds_bind (henqueue _ rfl) fun outcome => ih _

theorem Upholds.preserves {p : Engine α} (h : Upholds w I blamed p) : Preserves w I p :=
  fun s hs => (h s hs).mono (fun _ _ ht => ht) fun _ _ ht => ht.1

/-- Where anybody may be blamed nothing is told of errors. -/
theorem Preserves.upholds {p : Engine α} (h : Preserves w I p) : Upholds w I (fun _ _ => True) p :=
  fun s hs => (h s hs).mono (fun _ _ ht => ht) fun _ _ ht => ⟨ht, fun _ => trivial⟩

theorem preserves_pure (a : α) : Preserves w I (pure a : Engine α) := fun _ h => h

theorem preserves_fail (e : SyncError) : Preserves w I (fail (α := α) e) := fun _ h => h

theorem preserves_bind {p : Engine α} {f : α → Engine β} (hp : Preserves w I p) (hf : ∀ a, Preserves w I (f a)) :
    Preserves w I (p >>= f) := by
  intro s hs
  rw [meets_bind]
  exact (hp s hs).mono (fun a t ht => hf a t ht) fun _ _ ht => ht

/-- What was completed is told as a state; and of what the completion stops with, only an error that nothing can be
    done about and a breakdown stop this too. -/
theorem meets_conclude {b : Backup} {j : Job} {o : Outcome} {good : JobState → σ → Prop} {bad : Stop → σ → Prop}
    {s : σ} (h : Meets w (fun c => good c.state) (fun e u => match e with
      | .failed e => if e.isFatal = true then bad (.failed e) u else good j.state u
      | .crashed words => bad (.crashed words) u) (Queue.complete b.retry j o) s) :
    Meets w good bad (b.conclude j o) s := by
  unfold Backup.conclude
  rw [meets_bind, meets_observe]
  refine Meets.mono (fun _ _ hgood => hgood) (fun e u he => ?_) h
  cases e with
  | crashed words => exact he
  | failed e =>
    dsimp only at he ⊢
    cases hfatal : e.isFatal with
    | true => rwa [hfatal, if_pos rfl] at he
    | false => rwa [hfatal, if_neg Bool.false_ne_true] at he

/-- The work at a job comes to an outcome, which is then written. -/
theorem meets_work {b : Backup} {j : Job} {J : Outcome → σ → Prop} {good : JobState → σ → Prop}
    {bad : Stop → σ → Prop} {s : σ} (houtcome : Meets w J bad (b.outcome j) s)
    (hcomplete : ∀ o t, J o t → Meets w (fun c => good c.state) (fun e u => match e with
      | .failed e => if e.isFatal = true then bad (.failed e) u else good j.state u
      | .crashed words => bad (.crashed words) u) (Queue.complete b.retry j o) t) :
    Meets w good bad (b.work j) s := by
  have hwritten : ∀ o t, J o t → Meets w good bad (b.conclude j o) t :=
    fun o t ht => meets_conclude (hcomplete o t ht)
  unfold Backup.outcome at houtcome
  unfold Backup.work
  rw [meets_bind] at houtcome ⊢
  refine Meets.mono (fun r t hr => ?_) (fun _ _ he => he) houtcome
  match r with
  | .ok o => exact meets_bind.mpr (hwritten o t hr)
  | .error (.crashed words) => exact meets_bind.mpr (hwritten _ t hr)
  | .error (.failed e) =>
    dsimp only at hr ⊢
    cases hfatal : e.isFatal with
    | true => rwa [hfatal, if_pos rfl] at hr
    | false =>
      rw [hfatal, if_neg Bool.false_ne_true] at hr
      exact meets_bind.mpr (Meets.mono (fun o u hu => hwritten o u hu) (fun _ _ he => he) hr)

/-! ## Minor calls -/

/-- Every minor call may be made, and preserves the property; and the clock shows dates. -/
structure Minor (w : Protocol Call Call.Answer σ) (I : σ → Prop) : Prop where
  call : ∀ c : Call, c.IsMinor → Preserves w I (call c)
  date : ∀ s x t, I s → w.answers s .now x t → x.IsDate

/-- A failure of the table of items may be blamed. -/
structure Answerable (w : Protocol Call Call.Answer σ) (I : σ → Prop) (blamed : Stop → σ → Prop) : Prop
    extends Minor w I where
  fault : ∀ {st fault s t}, I s → w.answers s (.items st) (.error fault) t → blamed (.failed (.database fault)) t

theorem Minor.answerable (h : Minor w I) : Answerable w I fun _ _ => True := ⟨h, fun _ _ => trivial⟩

namespace Answerable

theorem minor (h : Answerable w I blamed) {c : Call} (hc : c.IsMinor) : Upholds w I blamed (call c) :=
  fun s hs => meets_call.mpr (meets_call.mp (h.toMinor.call c hc s hs))

/-- What the clock shows is a date. -/
theorem bind_now (h : Answerable w I blamed) {f : Instant → Engine α}
    (hf : ∀ now, now.IsDate → Upholds w I blamed (f now)) : Upholds w I blamed (now >>= f) := by
  intro s hs
  obtain ⟨hmay, hnext⟩ := meets_now.mp (h.toMinor.call .now trivial s hs)
  rw [meets_bind, meets_now]
  exact ⟨hmay, fun x t ht => hf x (h.date s x t hs ht) t (hnext x t ht)⟩

theorem emit (h : Answerable w I blamed) (e : SyncEvent) : Upholds w I blamed (emit e) :=
  h.minor (c := .emit (.sync e)) trivial

theorem items (h : Answerable w I blamed) {st : ItemStatement} (hst : st.IsDated) : Upholds w I blamed (items st) := by
  intro s hs
  obtain ⟨hmay, hnext⟩ := meets_call.mp (h.toMinor.call (.items st) hst s hs)
  exact meets_items.mpr ⟨hmay, fun x t ht => hnext _ t ht, fun fault t ht => ⟨hnext _ t ht, fun _ => h.fault hs ht⟩⟩

theorem readRows (h : Answerable w I blamed) (reports : Bool) (rows : List ItemRow) :
    Upholds w I blamed (Ledger.readRows reports rows) := by
  induction rows with
  | nil => exact upholds_pure []
  | cons r rows ih =>
    unfold Ledger.readRows
    split
    · exact upholds_bind ih fun items => upholds_pure _
    · cases reports with
      | true => exact upholds_bind (h.emit _) fun _ => ih
      | false => exact ih

theorem discover (h : Answerable w I blamed) (id : String) {time : Instant} (htime : time.IsDate) :
    Upholds w I blamed (Ledger.discover id time) := h.items htime

theorem discoverAll (h : Answerable w I blamed) (ids : List String) (report : ScanReport) :
    Upholds w I blamed (Ledger.discoverAll ids report) := by
  induction ids generalizing report with
  | nil => exact upholds_pure report
  | cons id ids ih => exact h.bind_now fun now hnow => upholds_bind (h.discover id hnow) fun new => ih _

theorem scan (h : Answerable w I blamed) : Upholds w I blamed Ledger.scan := by
  refine upholds_bind (h.minor (c := .list) trivial) fun reply => upholds_bind (upholds_ofReply reply) fun found => ?_
  split
  · exact upholds_fail rfl
  · refine upholds_bind (h.discoverAll _ _) fun report => ?_
    split
    · exact upholds_fail rfl
    · exact upholds_pure report

theorem markUploaded (h : Answerable w I blamed) (id : String) {time : Instant} (htime : time.IsDate) :
    Upholds w I blamed (Ledger.markUploaded id time) := by
  refine upholds_bind (h.items htime) fun changed => ?_
  split
  · exact upholds_bind (h.items trivial) fun _ => upholds_pure ()
  · exact upholds_pure ()

/-- What follows where the settings can be worked with. -/
theorem exchange (h : Answerable w I blamed) (s : UploadSettings) (id : String) (content : Content) :
    Upholds w I blamed (do
      let exchange ← Engine.call (.send (s.request id) (s.body content))
      match ← Engine.call (.await exchange) with
      | .late => pure (.retryable ⟨.timeout, "no response within " ++ s.timeout.shown⟩)
      | .crashed words => Engine.crash words
      | .ended transfer answer =>
        match Upload.objection? transfer answer with
        | some outcome => pure outcome
        | none =>
          Ledger.markUploaded id (← Engine.now)
          Engine.emit (.uploadSucceeded id)
          pure .success) := by
  refine upholds_bind (h.minor (c := .send _ _) trivial) fun exchange => ?_
  refine upholds_bind (h.minor (c := .await exchange) trivial) fun answer => ?_
  split
  · exact upholds_pure _
  · exact upholds_crash _
  · split
    · exact upholds_pure _
    · refine h.bind_now fun now hnow => upholds_bind (h.markUploaded id hnow) fun _ => ?_
      exact upholds_bind (h.emit _) fun _ => upholds_pure _

theorem send (h : Answerable w I blamed) (s : UploadSettings) (id : String) (content : Content) :
    Upholds w I blamed (Upload.send s id content) := by
  unfold Upload.send
  split
  · exact upholds_bind (upholds_crash _) fun _ => h.exchange s id content
  · exact h.exchange s id content

theorem attempt (h : Answerable w I blamed) (s : UploadSettings) (id : String) :
    Upholds w I blamed (Upload.attempt s id) := by
  refine upholds_bind (h.minor (c := .openItem id) trivial) fun reply =>
    upholds_bind (upholds_ofReply reply) fun found => ?_
  split
  · exact upholds_pure _
  · exact upholds_pure _
  · exact h.send s id _

/-! ## The work at a job -/

theorem dispatch (h : Answerable w I blamed) (constraints : Constraints)
    (henqueue : ∀ r : JobRequest, r.key.isUpload = true → Upholds w I blamed (Queue.enqueue r)) :
    Upholds w I blamed (Queue.dispatch constraints) :=
  upholds_bind (upholds_bind (h.items trivial) (h.readRows true)) fun items =>
    upholds_enqueueUploads constraints henqueue items 0

theorem perform (h : Answerable w I blamed) (b : Backup) (key : JobKey)
    (henqueue : ∀ r, key.Requests r → Upholds w I blamed (Queue.enqueue r)) : Upholds w I blamed (b.perform key) := by
  cases key with
  | scan =>
    refine upholds_bind h.scan fun report => upholds_bind (h.emit _) fun _ => ?_
    split
    · exact upholds_bind (henqueue .dispatch rfl) fun _ => upholds_pure _
    · exact upholds_pure _
  | dispatch =>
    exact upholds_bind (h.dispatch b.constraints henqueue) fun _ =>
      upholds_bind (h.emit _) fun _ => upholds_pure _
  | upload id => exact h.attempt b.uploads id

/-- Telling of a corrupt row is all that is asked for an outcome. -/
theorem meets_outcomeOf (h : Minor w I) {j : Job} {e : SyncError} {bad : Stop → σ → Prop} {s : σ} (hs : I s) :
    Meets w (fun _ => I) bad (Backup.outcomeOf j e) s := by
  unfold Backup.outcomeOf
  dsimp only
  split
  · rw [meets_bind]
    exact meets_call.mp (h.call (.emit _) trivial s hs)
  · exact hs
  · exact hs

/-- Whatever happens in the work gives an outcome, but for an error that nothing can be done about. -/
theorem meets_outcome (h : Answerable w I blamed) {b : Backup} {j : Job} {s : σ} (hs : I s)
    (henqueue : ∀ r, j.key.Requests r → Upholds w I blamed (Queue.enqueue r)) :
    Meets w (fun _ => I) (fun e t => I t ∧ blamed e t) (b.outcome j) s := by
  unfold Backup.outcome
  rw [meets_bind, meets_observe]
  refine Meets.mono (fun o t ht => ht) (fun e t ht => ?_) (h.perform b j.key henqueue s hs)
  obtain ⟨ht, hblamed⟩ := ht
  cases e with
  | crashed words => exact ht
  | failed e =>
    dsimp only
    cases hfatal : e.isFatal with
    | true => exact ⟨ht, hblamed ⟨e, rfl, hfatal⟩⟩
    | false => exact meets_outcomeOf h.toMinor ht

end Answerable

namespace Minor

theorem dispatch (h : Minor w I) (constraints : Constraints)
    (henqueue : ∀ r : JobRequest, r.key.isUpload = true → Preserves w I (Queue.enqueue r)) :
    Preserves w I (Queue.dispatch constraints) :=
  (h.answerable.dispatch constraints fun r hr => (henqueue r hr).upholds).preserves

/-- The work at a job preserves what its requests, its completion and all minor calls preserve. -/
theorem work (h : Minor w I) (b : Backup) (j : Job)
    (henqueue : ∀ r, j.key.Requests r → Preserves w I (Queue.enqueue r))
    (hcomplete : ∀ outcome, Preserves w I (Queue.complete b.retry j outcome)) : Preserves w I (b.work j) := by
  intro s hs
  have houtcome := h.answerable.meets_outcome (b := b) hs fun r hr => (henqueue r hr).upholds
  refine meets_work (Meets.mono (fun _ _ ht => ht) (fun _ _ ht => ht.1) houtcome) fun o t ht => ?_
  refine Meets.mono (fun _ _ hu => hu) (fun e u hu => ?_) (hcomplete o t ht)
  cases e with
  | crashed words => exact hu
  | failed e => dsimp only; split <;> exact hu

end Minor

end Engine

end MediaBackup
