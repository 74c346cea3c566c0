import MediaBackup.Proofs.Life.Ashore
import MediaBackup.Proofs.Pass.Rules
import MediaBackup.Proofs.Workers.Keeping

/-
  Where the main line of a pass stands.

  The main line first looks after its housekeeping, and only then puts uploads under way, one after another; at the
  end it joins them all.  So as long as it asks for uploads there are none that could mark an item, and the items
  that it found pending are pending still.  `Line.duty` says what the main line may ask where, and `Pass.run_keeps`
  that it keeps to this and ends only when every upload was joined, or with a failure of the database.
-/

namespace MediaBackup

/-- Where the main line of a pass stands. -/
structure Line where
  /-- The items that were found pending last; none once an upload was claimed. -/
  upkeep : Option (List String)
  /-- The upload that is claimed and not started yet. -/
  hand : Option Leg
  /-- How many uploads were started and not joined yet. -/
  opened : Nat
  /-- An upload that was joined had been stopped. -/
  sunk : Bool

namespace Line

/-- The main line at its begin. -/
def first : Line := ⟨some [], none, 0, false⟩

/-- The main line after an update of a row. -/
def updated (m : Line) (j : Job) (change : Change) (won : Bool) : Line :=
  match j.key with
  | .upload id =>
      { m with upkeep := none, hand := if won then some ⟨id, j.claimed change, .idle⟩ else none }
  | _ => m

/-- The main line after an answer. -/
def next (m : Line) : (c : PassCall) → c.Answer → Line
  | .engine (.jobs (.updateIf j change)), .ok won => m.updated j change won
  | .engine (.jobs (.updateIf j change)), .error _ => m.updated j change false
  | .engine (.items .listPending), .ok rows => { m with upkeep := m.upkeep.map fun _ => rows.map (·.id) }
  | .start _, _ => { m with hand := none, opened := m.opened + 1 }
  | .join, .ok _ => { m with opened := m.opened - 1 }
  | .join, .error _ => { m with opened := m.opened - 1, sunk := true }
  | _, _ => m

/-- The item is one of those found pending. -/
def Pends (m : Line) (id : String) : Prop := ∃ pending, m.upkeep = some pending ∧ id ∈ pending

/-- The statement claims an upload. -/
def Claims : JobStatement → Prop
  | .updateIf j change => (∃ id, j.key = .upload id ∧ id ≠ "") ∧ j.IsProper ∧ j.state = .queued ∧
      change.state = .running
  | _ => False

/-- What the main line may ask. -/
def May (m : Line) : PassCall → Prop
  | .engine (.jobs st) => st.IsProper ∧
      (st.SparesUploads ∨ st.Requests m.Pends ∨ (Claims st ∧ m.hand = none))
  | .engine (.items st) => m.upkeep.isSome = true ∧
      (st = .listPending ∨ ∃ id seen, st = .insertIfAbsent id seen)
  | .engine .now | .engine (.emit _) | .engine .network | .engine .list => True
  | .engine _ => False
  | .start j => ∃ id, m.hand = some ⟨id, j, .idle⟩
  | .tryPermit | .waitPermit | .returnPermit | .join => True

/-- What the main line has to expect.  Only the database stops an upload. -/
def Expects : (c : PassCall) → c.Answer → Prop
  | .engine c, x => ∃ before after : JobTable, before.IsSound ∧ Workers.Answers before c x after
  | .join, r => ∀ e, r = .error e → e.IsFatal
  | _, _ => True

/-- The protocol of main lines. -/
def duty : Protocol PassCall PassCall.Answer Line where
  may := May
  answers m c x m' := Expects c x ∧ m' = m.next c x

/-- The main line is at its housekeeping, or between two uploads. -/
structure Free (m : Line) (opened : Nat) : Prop where
  hand : m.hand = none
  opened : m.opened = opened
  sunk : m.sunk = false

theorem duty_silent : duty.engine.Silent Eq where
  trans _ _ _ h h' := h.trans h'
  mayNow _ := trivial
  now := by
    rintro m x _ ⟨⟨_, _, _, hd, _⟩, rfl⟩
    exact ⟨hd, rfl⟩
  mayEmit _ _ := trivial
  emit := by
    rintro m e _ ⟨_, rfl⟩
    rfl

theorem updated_of_isHousekeeping {m : Line} {j : Job} (h : j.key.isHousekeeping = true)
    (change : Change) (won : Bool) :
    m.updated j change won = m := by
  unfold updated
  cases hk : j.key with
  | upload id =>
    rw [hk] at h
    exact nomatch h
  | scan => rfl
  | dispatch => rfl

open Script Workers

variable {m : Line} {n : Nat}

/-- An operation whose statements spare uploads or request pending ones leaves the main line where it is. -/
theorem meets_operation (rules : RetryRules) (op : Operation) (hop : op.IsProper)
    (hmay : ∀ acts st, op.MayRun acts st → st.SparesUploads ∨ st.Requests m.Pends) :
    Meets duty.engine (fun x m' => m' = m ∧ ∃ acts, op.Ends 0 acts (.ok x))
      (fun e m' => m' = m ∧ ∃ acts, op.Ends 0 acts (.error e)) (op.program rules) m := by
  refine Operation.meets_elsewhere rules hop ?_ ?_
  · intro acts c hc
    cases c with
    | jobs st => exact ⟨hc.1, (hmay acts st hc.2).imp id .inl⟩
    | now => trivial
    | emit e => trivial
    | _ => exact hc.elim
  · rintro acts c x _ hc ⟨hx, rfl⟩
    refine ⟨?_, hx⟩
    cases c with
    | jobs st =>
      cases st with
      | updateIf j change =>
        have hk : j.key.isHousekeeping = true := (hmay acts _ hc.2).elim id False.elim
        cases x <;> exact updated_of_isHousekeeping hk change _
      | _ => rfl
    | _ => first | rfl | exact hc.elim

/-- The main line looks after its housekeeping. -/
structure Upkeep (m : Line) (opened : Nat) : Prop extends Free m opened where
  upkeep : m.upkeep.isSome = true

theorem meets_enqueue {r : JobRequest}
    (hr : r.key.isHousekeeping = true ∨ ∃ id, r.key = .upload id ∧ m.Pends id)
    {good : Enqueued → Line → Prop} {bad : Stop → Line → Prop} (hgood : ∀ x, good x m)
    (hbad : ∀ e, bad e m) :
    Meets duty.engine good bad (Queue.enqueue r) m := by
  have hwrite : ∀ job : Job, job.key = r.key ∧ job.state = .queued →
      job.key.isHousekeeping = true ∨ job.state = .queued ∧ ∃ id, job.key = .upload id ∧ m.Pends id := by
    rintro job ⟨hk, hq⟩
    rw [hk]
    exact hr.imp id fun h => ⟨hq, h⟩
  refine Meets.mono (fun x _ h => h.1 ▸ hgood x) (fun e _ h => h.1 ▸ hbad e)
    (meets_operation ⟨.upload, .housekeeping⟩ (.enqueue r) trivial fun acts st hst => ?_)
  cases st with
  | find key => exact .inl trivial
  | quarantine key reason now => exact .inl hst
  | insertIfAbsent job => exact hwrite job hst
  | replaceIf job observed => exact hwrite job ⟨hst.1, hst.2.1⟩
  | _ => exact hst.elim

theorem meets_discoverAll {ids : List String} {report : ScanReport} (hm : m.upkeep.isSome = true)
    {good : ScanReport → Line → Prop} {bad : Stop → Line → Prop} (hgood : ∀ r, good r m)
    (hbad : ∀ e, bad e m) :
    Meets duty.engine good bad (Ledger.discoverAll ids report) m := by
  induction ids generalizing report with
  | nil => exact hgood _
  | cons id ids ih =>
    unfold Ledger.discoverAll
    rw [meets_bind, Engine.meets_now]
    refine ⟨trivial, ?_⟩
    rintro now _ ⟨_, rfl⟩
    unfold Ledger.discover
    rw [meets_bind]
    refine Engine.meets_items.2 ⟨⟨hm, .inr ⟨id, now, rfl⟩⟩, ?_, ?_⟩
    · rintro new _ ⟨_, rfl⟩
      exact ih
    · rintro fault _ ⟨_, rfl⟩
      exact hbad _

theorem meets_scan (hm : m.upkeep.isSome = true) {good : ScanReport → Line → Prop}
    {bad : Stop → Line → Prop}
    (hgood : ∀ r, good r m) (hbad : ∀ e, bad e m) : Meets duty.engine good bad Ledger.scan m := by
  unfold Ledger.scan
  rw [meets_bind, Engine.meets_call]
  refine ⟨trivial, ?_⟩
  rintro reply _ ⟨_, rfl⟩
  cases reply with
  | crashed words => exact hbad _
  | failed e => exact hbad _
  | given listing =>
    refine meets_bind.2 (meets_bind.2 (meets_discoverAll hm (fun r => ?_) hbad))
    split
    · exact hbad _
    · exact hgood r

theorem meets_readRows {rows : List ItemRow} {good : List Item → Line → Prop} {bad : Stop → Line → Prop}
    (hgood : ∀ items : List Item, (∀ i ∈ items, i.id ∈ rows.map (·.id)) → good items m) :
    Meets duty.engine good bad (Ledger.readRows true rows) m := by
  induction rows generalizing good with
  | nil => exact hgood [] fun _ h => absurd h List.not_mem_nil
  | cons r rows ih =>
    unfold Ledger.readRows
    split
    · rename_i i hi
      rw [meets_bind]
      refine ih fun items hitems => hgood (i :: items) fun k hk => ?_
      rw [List.map_cons]
      rcases List.mem_cons.1 hk with rfl | hk
      · exact ItemRow.id_of_item hi ▸ List.mem_cons_self
      · exact List.mem_cons_of_mem _ (hitems k hk)
    · rw [if_pos rfl, meets_bind, Engine.meets_emit]
      refine ⟨trivial, ?_⟩
      rintro _ _ ⟨_, rfl⟩
      exact ih fun items hitems => hgood items fun k hk => List.mem_cons_of_mem _ (hitems k hk)

theorem meets_enqueueUploads {c : Constraints} {items : List Item} {count : Nat}
    (hp : ∀ i ∈ items, m.Pends i.id)
    {good : Nat → Line → Prop} {bad : Stop → Line → Prop} (hgood : ∀ k, good k m) (hbad : ∀ e, bad e m) :
    Meets duty.engine good bad (Queue.enqueueUploads c items count) m := by
  induction items generalizing count with
  | nil => exact hgood _
  | cons i items ih =>
    unfold Queue.enqueueUploads
    rw [meets_bind]
    exact meets_enqueue (.inr ⟨i.id, rfl, hp i List.mem_cons_self⟩)
      (fun _ => ih fun k hk => hp k (List.mem_cons_of_mem _ hk))
      hbad

theorem meets_dispatch {c : Constraints} (hm : m.Upkeep n) {good : Nat → Line → Prop}
    {bad : Stop → Line → Prop}
    (hgood : ∀ k m', m'.Upkeep n → good k m') (hbad : ∀ e m', m'.Upkeep n → bad e m') :
    Meets duty.engine good bad (Queue.dispatch c) m := by
  unfold Queue.dispatch Ledger.pending
  rw [meets_bind, meets_bind]
  refine Engine.meets_items.2 ⟨⟨hm.upkeep, .inl rfl⟩, ?_, ?_⟩
  · rintro rows _ ⟨_, rfl⟩
    obtain ⟨pending, hpending⟩ := Option.isSome_iff_exists.1 hm.upkeep
    have hm' : Upkeep { m with upkeep := m.upkeep.map fun _ => rows.map (·.id) } n :=
      { hm with upkeep := by rw [Option.isSome_map]; exact hm.upkeep }
    refine meets_readRows fun items hitems => meets_enqueueUploads (fun i hi => ?_)
      (fun _ => hgood _ _ hm') fun _ => hbad _ _ hm'
    exact ⟨rows.map (·.id), by show m.upkeep.map _ = _; rw [hpending]; rfl, hitems i hi⟩
  · rintro fault _ ⟨_, rfl⟩
    exact hbad _ _ hm

variable {b : Backup}

/-- Whatever comes of a scan or a dispatch, the main line is at its housekeeping. -/
theorem meets_perform {k : JobKey} (hk : k.isHousekeeping = true) (hm : m.Upkeep n) :
    Meets duty.engine (fun _ m' => m'.Upkeep n) (fun _ m' => m'.Upkeep n) (b.perform k) m := by
  cases k with
  | upload id => exact nomatch hk
  | scan =>
    unfold Backup.perform
    rw [meets_bind]
    refine meets_scan hm.upkeep (fun report => ?_) fun _ => hm
    rw [meets_bind, Engine.meets_emit]
    refine ⟨trivial, ?_⟩
    rintro _ _ ⟨_, rfl⟩
    split
    · rw [meets_bind]
      exact meets_enqueue (.inl rfl) (fun _ => hm) fun _ => hm
    · exact hm
  | dispatch =>
    unfold Backup.perform
    rw [meets_bind]
    refine meets_dispatch hm (fun k m' hm' => ?_) fun _ _ hm' => hm'
    rw [meets_bind, Engine.meets_emit]
    refine ⟨trivial, ?_⟩
    rintro _ _ ⟨_, rfl⟩
    exact hm'

/-- Completing a scan or a dispatch. -/
theorem meets_finish {c : Job} (hc : c.key.isHousekeeping = true) (hp : c.IsProper) (o : Outcome)
    (hm : m.Upkeep n) :
    Meets duty.engine (fun _ m' => m'.Upkeep n) (fun e m' => m'.Upkeep n ∧ e.IsFatal)
      (do match ← Engine.observe (Queue.complete b.retry c o) with
          | .ok j => pure j.state
          | .error (.failed e) => if e.isFatal then Engine.fail e else pure c.state
          | .error (.crashed words) => Engine.crash words) m := by
  rw [meets_bind, Engine.meets_observe]
  refine Meets.mono ?_ ?_ (meets_operation b.retry (.complete c o) hp fun acts st hst => ?_)
  · rintro j _ ⟨rfl, _⟩
    exact hm
  · rintro e _ ⟨rfl, acts, hends⟩
    obtain ⟨error, rfl⟩ := hends.2.1 e rfl
    dsimp only
    split
    · rename_i hf
      exact ⟨hm, error, rfl, hf⟩
    · exact hm
  · cases st with
    | updateIf j change =>
      obtain ⟨rfl, _⟩ := hst
      exact .inl hc
    | _ => exact hst.elim

/-- The work at a scan or a dispatch is stopped only by the database. -/
theorem meets_work {c : Job} (hc : c.key.isHousekeeping = true) (hp : c.IsProper) (hm : m.Upkeep n) :
    Meets duty.engine (fun _ m' => m'.Upkeep n) (fun e m' => m'.Upkeep n ∧ e.IsFatal) (b.work c) m := by
  unfold Backup.work
  rw [meets_bind, Engine.meets_observe]
  refine Meets.mono (fun o m' hm' => meets_finish hc hp o hm') ?_ (meets_perform hc hm)
  intro e m' hm'
  cases e with
  | crashed words => exact meets_finish hc hp _ hm'
  | failed e =>
    dsimp only
    split
    · rename_i hf
      exact ⟨hm', e, rfl, hf⟩
    · rw [meets_bind]
      unfold Backup.outcomeOf
      dsimp only
      split
      · rw [meets_bind, Engine.meets_emit]
        refine ⟨trivial, ?_⟩
        rintro _ _ ⟨_, rfl⟩
        exact meets_finish hc hp _ hm'
      · exact meets_finish hc hp _ hm'
      · exact meets_finish hc hp _ hm'

end Line

end MediaBackup
