import MediaBackup.Proofs.Life.Basic
import MediaBackup.Proofs.Queue.Rules
import MediaBackup.Proofs.Upload.Acknowledged
import MediaBackup.Proofs.Workers.Habits
import MediaBackup.Queue.Enqueue

/-
  What a dispatch queues while others are at work.

  A dispatch reads the list of pending items once and then requests one upload after another, and between two
  of its calls others do to both tables what they like.  So an item that was pending when the list was read
  need not be when its upload is queued.

  The crux is the protocol `dispatches`: a fresh job is written only for an item that was on the list, and only
  where every earlier try to write one was refused.  What a dispatch queues is read off it
  (`Run.queues_only_listed`): items on the list, each once, in the place of no job that is under way.  An item
  whose upload ended in between is queued once more (`Run.queues_uploaded`).
-/

namespace MediaBackup

/-- No two rows of a table have one name. -/
structure Scene.IsKeyed (s : Scene) : Prop where
  jobs : s.jobs.Keyed
  items : s.items.Keyed

theorem Scene.IsKeyed.answers {s t : Scene} (hs : s.IsKeyed) {c : Call} {x : c.Answer} (h : s.Answers c x t) :
    t.IsKeyed := by
  refine ⟨Workers.keyed_of_answers hs.jobs (Scene.Answers.workers h), ?_⟩
  rcases Scene.Answers.items_eq h with he | ⟨st, _, he⟩
  · exact he ▸ hs.items
  · exact he ▸ ItemTable.keyed_run hs.items st

/-- The row is that of a job that succeeded, or that was given up but not for good. -/
def JobRow.MayReturn (r : JobRow) : Prop :=
  r.state = "succeeded" ∨ (r.state = "abandoned" ∧ r.abandonReason ≠ some "permanent")

namespace Dispatching

open Script

/-! ## Deeds -/

/-- A deed of a dispatch: one of its calls was answered, which made one scene of the other. -/
structure Deed where
  call : Call
  answer : call.Answer
  before : Scene
  after : Scene

namespace Deed

/-- The deed read the list of pending items, and this one was on it. -/
def Lists (id : String) : Deed → Prop
  | ⟨.items .listPending, .ok rows, _, _⟩ => id ∈ rows.map ItemRow.id
  | _ => False

/-- The deed tried to write a fresh job under a key. -/
def Writes (key : String) (d : Deed) : Prop :=
  match d.call with
  | .jobs (.insertIfAbsent job) => job.key.text = key
  | .jobs (.replaceIf job _) => job.key.text = key
  | _ => False

/-- The deed tried to write a fresh job, and the table refused. -/
def IsRefused : Deed → Prop
  | ⟨.jobs (.insertIfAbsent _), .ok won, _, _⟩ => won = false
  | ⟨.jobs (.replaceIf _ _), .ok won, _, _⟩ => won = false
  | _ => False

/-- The deed changed the row of a key, and the job of the key is queued now. -/
def Queues (key : String) (d : Deed) : Prop :=
  d.before.jobs.row? key ≠ d.after.jobs.row? key ∧
    ∃ row, d.after.jobs.row? key = some row ∧ row.state = JobState.queued.name

end Deed

/-! ## What a dispatch asks -/

/-- Every try to write a fresh job under the key was refused. -/
def Open (key : String) (past : List Deed) : Prop := ∀ d ∈ past, d.Writes key → d.IsRefused

/-- The job is a fresh upload of an item that was on the list, and none was queued for it yet. -/
def IsWanted (constraints : Constraints) (past : List Deed) (job : Job) : Prop :=
  ∃ id now, job = .fresh (.upload id constraints) now ∧ (∃ d ∈ past, d.Lists id) ∧ Open job.key.text past

/-- What a dispatch may ask after its deeds so far. -/
def May (constraints : Constraints) (past : List Deed) : Call → Prop
  | .now | .emit _ => True
  | .items .listPending => past = []
  | .jobs (.find _) => True
  | .jobs (.quarantine _ _ _) => True
  | .jobs (.insertIfAbsent job) => IsWanted constraints past job
  | .jobs (.replaceIf job observed) => IsWanted constraints past job ∧ observed.key = job.key ∧
      observed.isReplaceable = true ∧ observed.state ≠ .failed
  | _ => False

/-- The protocol of dispatches.  Others may have done anything between two calls. -/
def dispatches (constraints : Constraints) : Protocol Call Call.Answer (List Deed) where
  may := May constraints
  answers past c x past' := ∃ s t : Scene, s.IsKeyed ∧ s.Answers c x t ∧ past' = ⟨c, x, s, t⟩ :: past

/-- Of the keys in `p` no fresh job was written from one past to the other. -/
structure Spares (p : String → Prop) (past past' : List Deed) : Prop where
  subset : past ⊆ past'
  opened : ∀ key, p key → Open key past → Open key past'

namespace Spares

variable {p q : String → Prop} {past past' past'' : List Deed}

theorem refl (past : List Deed) : Spares p past past := ⟨List.Subset.refl _, fun _ _ h => h⟩

theorem trans (h : Spares p past past') (h' : Spares p past' past'') : Spares p past past'' :=
  ⟨List.Subset.trans h.subset h'.subset, fun key hk ho => h'.opened key hk (h.opened key hk ho)⟩

theorem mono (h : Spares q past past') (hpq : ∀ key, p key → q key) : Spares p past past' :=
  ⟨h.subset, fun key hk => h.opened key (hpq key hk)⟩

theorem cons {d : Deed} (h : ∀ key, p key → d.Writes key → d.IsRefused) : Spares p past (d :: past) := by
  refine ⟨List.subset_cons_self d past, ?_⟩
  intro key hk ho e he hw
  rcases List.mem_cons.1 he with rfl | he
  · exact h key hk hw
  · exact ho e he hw

/-- A deed that writes no fresh job spares every key. -/
theorem idle {d : Deed} (h : ∀ key, ¬ d.Writes key) : Spares p past (d :: past) :=
  cons fun key _ hw => absurd hw (h key)

/-- So does one that was refused. -/
theorem refused {d : Deed} (h : d.IsRefused) : Spares p past (d :: past) := cons fun _ _ _ => h

/-- A deed that writes a fresh job spares every other key. -/
theorem tried {d : Deed} {key : String} (h : ∀ k, d.Writes k → k = key) : Spares (· ≠ key) past (d :: past) :=
  cons fun k hk hw => absurd (h k hw) hk

end Spares

section Rules

variable {constraints : Constraints} {past past' : List Deed}

theorem jobs_ok {st : JobStatement} {x : st.Answer}
    (h : (dispatches constraints).answers past (.jobs st) (.ok x) past') :
    ∃ s t : Scene, s.IsKeyed ∧ x = (st.run s.jobs).1 ∧ past' = ⟨.jobs st, .ok x, s, t⟩ :: past := by
  obtain ⟨s, t, hs, ⟨hx, _⟩, rfl⟩ := h
  exact ⟨s, t, hs, hx, rfl⟩

/-- Looking at the clock and telling listeners writes nothing. -/
theorem dispatches_silent (constraints : Constraints) : (dispatches constraints).Silent (Spares fun _ => True) where
  trans _ _ _ := Spares.trans
  mayNow _ := trivial
  now := by
    rintro past x _ ⟨s, t, _, ⟨hd, _⟩, rfl⟩
    exact ⟨hd, .idle fun _ hw => hw.elim⟩
  mayEmit _ _ := trivial
  emit := by
    rintro past e _ ⟨s, t, _, _, rfl⟩
    exact .idle fun _ hw => hw.elim

theorem quarantine_keeps {key : String} {reason : RowFault} {good : Unit → List Deed → Prop}
    (hgood : ∀ past', Spares (fun _ => True) past past' → good () past') :
    Meets (dispatches constraints) good (fun _ _ => True) (Queue.quarantine key reason) past := by
  have hw := dispatches_silent constraints
  unfold Queue.quarantine
  rw [meets_bind, Engine.meets_now]
  refine ⟨trivial, ?_⟩
  intro now p₁ h₁
  rw [meets_bind]
  refine Engine.meets_jobs.2 ⟨trivial, ?_, fun _ _ _ => trivial⟩
  intro x p₂ h₂
  obtain ⟨s, t, _, _, rfl⟩ := jobs_ok h₂
  rw [Engine.meets_emit]
  refine ⟨trivial, ?_⟩
  intro _ p₃ h₃
  have hgivenUp : Spares (fun _ => True) p₁ (⟨.jobs (.quarantine key reason.message now), .ok x, s, t⟩ :: p₁) :=
    .idle fun _ hw => hw.elim
  exact hgood _ (((hw.now _ _ _ h₁).2.trans hgivenUp).trans (hw.emit _ _ _ h₃))

/-- What a request reads is a row of some keyed table, and reading it writes nothing. -/
theorem find_ok {key : String} {found : Option Decoded}
    (h : (dispatches constraints).answers past (.jobs (.find key)) (.ok found) past') :
    (∃ t : JobTable, found = (t.row? key).map JobRow.decode) ∧ Spares (fun _ => True) past past' := by
  obtain ⟨s, t, _, hfound, rfl⟩ := jobs_ok h
  exact ⟨⟨s.jobs, hfound⟩, .idle fun _ hw => hw.elim⟩

/-- A job that is read under the key of an upload is an upload of the item, in a state that a row can hold. -/
theorem of_find_upload {t : JobTable} {id : String} {j : Job}
    (h : some (.valid j) = (t.row? (JobKey.upload id).text).map JobRow.decode) :
    j.key = .upload id ∧ j.state ≠ .failed := by
  obtain ⟨row, hrow, hd⟩ := Option.map_eq_some_iff.1 h.symm
  have hholds : row.Says j := JobRow.decode_eq_valid_iff.1 hd
  exact ⟨JobKey.text_injective (hholds.key.symm.trans (JobTable.key_of_row? hrow)), hholds.isStorable⟩

/-- Requesting the upload of an item on the list writes under its key alone, until a write is not refused. -/
theorem enqueueWithin_keeps {id : String} (rounds : Nat) (hlisted : ∃ d ∈ past, d.Lists id)
    (hopen : Open (JobKey.upload id).text past) :
    Meets (dispatches constraints) (fun _ past' => Spares (· ≠ (JobKey.upload id).text) past past')
      (fun _ _ => True) (Queue.enqueueWithin (.upload id constraints) rounds) past := by
  have hw := dispatches_silent constraints
  induction rounds generalizing past with
  | zero => trivial
  | succ rounds ih =>
    -- a further round begins as this one did, as long as every write was refused
    have hagain : ∀ p, Spares (fun _ => True) past p →
        Meets (dispatches constraints) (fun _ past' => Spares (· ≠ (JobKey.upload id).text) past past')
          (fun _ _ => True) (Queue.enqueueWithin (.upload id constraints) rounds) p := by
      intro p hp
      obtain ⟨d, hd, hl⟩ := hlisted
      refine Meets.mono ?_ (fun _ _ h => h) (ih ⟨d, hp.subset hd, hl⟩ (hp.opened _ trivial hopen))
      exact fun _ _ h => (hp.mono fun _ _ => trivial).trans h
    have hwanted : ∀ p now, Spares (fun _ => True) past p →
        IsWanted constraints p (.fresh (.upload id constraints) now) := by
      intro p now hp
      obtain ⟨d, hd, hl⟩ := hlisted
      exact ⟨id, now, rfl, ⟨d, hp.subset hd, hl⟩, hp.opened _ trivial hopen⟩
    unfold Queue.enqueueWithin
    rw [meets_bind, Engine.meets_now]
    refine ⟨trivial, ?_⟩
    intro now p₁ h₁
    dsimp only
    rw [meets_bind, Engine.meets_jobs]
    refine ⟨trivial, ?_, fun _ _ _ => trivial⟩
    intro found p₂ h₂
    obtain ⟨⟨t, hfound⟩, hidle⟩ := find_ok h₂
    have hread : Spares (fun _ => True) past p₂ := (hw.now _ _ _ h₁).2.trans hidle
    cases found with
    | none =>
      dsimp only
      rw [meets_bind, Engine.meets_jobs]
      refine ⟨hwanted p₂ now hread, ?_, fun _ _ _ => trivial⟩
      intro won p₃ h₃
      obtain ⟨s, t, _, _, rfl⟩ := jobs_ok h₃
      cases won with
      | false => exact hagain _ (hread.trans (.refused rfl))
      | true => exact (hread.mono fun _ _ => trivial).trans (.tried fun _ hkey => hkey.symm)
    | some row =>
      cases row with
      | corrupt key reason =>
        dsimp only
        rw [meets_bind]
        exact quarantine_keeps fun p hp => hagain p (hread.trans hp)
      | valid j =>
        dsimp only
        split
        · exact hread.mono fun _ _ => trivial
        · rename_i hcan
          obtain ⟨hkey, hstate⟩ := of_find_upload hfound
          rw [meets_bind, Engine.meets_jobs]
          refine ⟨⟨hwanted p₂ now hread, hkey, by simpa using hcan, hstate⟩, ?_, fun _ _ _ => trivial⟩
          intro won p₃ h₃
          obtain ⟨s, t, _, _, rfl⟩ := jobs_ok h₃
          cases won with
          | false => exact hagain _ (hread.trans (.refused rfl))
          | true =>
            rw [if_pos rfl, meets_bind]
            refine Queue.meets_announce hw fun p hp => ?_
            have hwon : Spares (· ≠ (JobKey.upload id).text) p₂
                (⟨.jobs (.replaceIf (.fresh (.upload id constraints) now) j), .ok true, s, t⟩ :: p₂) :=
              .tried fun _ hkey => hkey.symm
            exact ((hread.mono fun _ _ => trivial).trans hwon).trans (hp.mono fun _ _ => trivial)

/-- Requesting uploads of different items on the list. -/
theorem enqueueUploads_keeps {items : List Item} {count : Nat} (hnodup : (items.map Item.id).Nodup)
    (h : ∀ i ∈ items, (∃ d ∈ past, d.Lists i.id) ∧ Open (JobKey.upload i.id).text past) :
    Meets (dispatches constraints) (fun _ _ => True) (fun _ _ => True)
      (Queue.enqueueUploads constraints items count) past := by
  induction items generalizing count past with
  | nil => trivial
  | cons i items ih =>
    obtain ⟨hi, hnodup⟩ := List.nodup_cons.1 hnodup
    obtain ⟨hlisted, hopen⟩ := h i List.mem_cons_self
    unfold Queue.enqueueUploads
    rw [meets_bind]
    refine Meets.mono ?_ (fun _ _ _ => trivial) (enqueueWithin_keeps Queue.enqueueRounds hlisted hopen)
    intro outcome past' hspares
    refine ih hnodup ?_
    intro k hk
    obtain ⟨⟨d, hd, hl⟩, ho⟩ := h k (List.mem_cons_of_mem _ hk)
    have hne : (JobKey.upload k.id).text ≠ (JobKey.upload i.id).text := by
      intro he
      have hid : k.id = i.id := JobKey.upload.inj (JobKey.text_injective he)
      exact hi (hid ▸ List.mem_map_of_mem hk)
    exact ⟨⟨d, hspares.subset hd, hl⟩, hspares.opened _ hne ho⟩

/-- Reading the rows of the list gives some of its items in their order. -/
theorem readRows_keeps {rows : List ItemRow} {good : List Item → List Deed → Prop}
    (hgood : ∀ items past', (items.map Item.id).Sublist (rows.map ItemRow.id) →
      Spares (fun _ => True) past past' → good items past') :
    Meets (dispatches constraints) good (fun _ _ => True) (Ledger.readRows true rows) past := by
  induction rows generalizing past good with
  | nil => exact hgood [] past (List.Sublist.refl _) (Spares.refl _)
  | cons row rows ih =>
    unfold Ledger.readRows
    cases hi : row.item with
    | ok i =>
      dsimp only
      rw [meets_bind]
      refine ih fun items past' hids hspares => ?_
      have hcons : ((i :: items).map Item.id).Sublist ((row :: rows).map ItemRow.id) := by
        rw [List.map_cons, List.map_cons, ItemRow.id_of_item hi]
        exact hids.cons_cons _
      exact hgood _ _ hcons hspares
    | error fault =>
      dsimp only
      rw [if_pos rfl, meets_bind, Engine.meets_emit]
      refine ⟨trivial, ?_⟩
      intro _ p₁ h₁
      refine ih fun items past' hids hspares => ?_
      exact hgood _ _ (hids.cons _) (((dispatches_silent constraints).emit _ _ _ h₁).trans hspares)

/-- A dispatch keeps to its protocol. -/
theorem dispatch_keeps (constraints : Constraints) :
    (Queue.dispatch constraints).run.Keeps (dispatches constraints) (fun _ _ => True) [] := by
  suffices h : Meets (dispatches constraints) (fun _ _ => True) (fun _ _ => True)
      (Queue.dispatch constraints) [] from Keeps.mono (fun _ _ _ => trivial) h
  unfold Queue.dispatch Ledger.pending
  rw [meets_bind, meets_bind, Engine.meets_items]
  refine ⟨rfl, ?_, fun _ _ _ => trivial⟩
  rintro rows _ ⟨s, t, hs, ⟨hrows, _⟩, rfl⟩
  have hnodup : (rows.map ItemRow.id).Nodup := by
    have hperm := (List.mergeSort_perm (s.items.filter (·.uploadedAt.isNone)) ItemRow.pendingBefore).map ItemRow.id
    rw [hrows]
    exact hperm.nodup_iff.2 (Rows.keyed_filter hs.items _)
  refine readRows_keeps fun items past hids hspares => ?_
  refine enqueueUploads_keeps (hnodup.sublist hids) ?_
  intro i hi
  have hid : i.id ∈ rows.map ItemRow.id := hids.subset (List.mem_map_of_mem hi)
  refine ⟨⟨_, hspares.subset List.mem_cons_self, hid⟩, hspares.opened _ trivial ?_⟩
  -- so far the list was read and nothing else
  intro d hd hw
  obtain rfl := List.mem_singleton.1 hd
  exact hw.elim

end Rules

/-! ## What a deed does to the row of a key -/

/-- The deed is one that a dispatch may do after the earlier ones. -/
structure Deed.Follows (constraints : Constraints) (earlier : List Deed) (d : Deed) : Prop where
  keyed : d.before.IsKeyed
  may : May constraints earlier d.call
  answers : d.before.Answers d.call d.answer d.after

/-- A row that a fresh upload may take the place of. -/
theorem mayReturn_of_isObserved {r : JobRow} {j : Job} (hr : r.isObserved j = true) (hj : j.isReplaceable = true)
    (hs : j.state ≠ .failed) (hu : j.key.isUpload = true) : r.MayReturn := by
  obtain ⟨_, hstate, _, hreason⟩ := JobRow.isObserved_iff.1 hr
  unfold Job.isReplaceable at hj
  unfold JobRow.MayReturn
  rw [hstate, hreason]
  cases hj' : j.state with
  | succeeded => exact .inl rfl
  | abandoned =>
    refine .inr ⟨rfl, ?_⟩
    simp only [hj', Job.isTombstone, hu, beq_self_eq_true, Bool.true_and, Bool.and_true] at hj
    cases ha : j.abandonReason with
    | none => simp
    | some reason =>
      cases reason with
      | permanent => simp [ha] at hj
      | exhausted => decide
  | failed => exact absurd hj' hs
  | queued => simp [hj', hu] at hj
  | retrying => simp [hj', hu] at hj
  | running => simp [hj'] at hj

section Deeds

variable {constraints : Constraints} {earlier : List Deed} {d : Deed} {key : String}

/-- Only a statement changes the row of a key, and it changes it as its effect says. -/
theorem Deed.Follows.exists_statement (h : d.Follows constraints earlier)
    (hne : d.before.jobs.row? key ≠ d.after.jobs.row? key) :
    ∃ st, d.call = .jobs st ∧ d.after.jobs.row? key = st.effect key (d.before.jobs.row? key) := by
  rcases (Scene.Answers.workers h.answers).table_eq with he | ⟨st, hcall, he⟩
  · exact absurd (congrArg (JobTable.row? · key) he).symm hne
  · exact ⟨st, hcall, he ▸ JobTable.row?_run h.keyed.jobs st key⟩

/-- A deed that was refused changes no row. -/
theorem Deed.Follows.row?_of_isRefused (h : d.Follows constraints earlier) (hr : d.IsRefused) :
    d.before.jobs.row? key = d.after.jobs.row? key := by
  refine Classical.not_not.1 fun hne => ?_
  obtain ⟨st, hcall, heffect⟩ := h.exists_statement hne
  obtain ⟨call, answer, before, after⟩ := d
  have hanswers := Scene.Answers.workers h.answers
  have hkeyed := h.keyed.jobs
  dsimp only at hcall hne hanswers hkeyed heffect
  subst hcall
  refine hne ?_
  rw [heffect]
  cases st with
  | insertIfAbsent job =>
    cases answer with
    | error _ => exact hr.elim
    | ok won =>
      -- the key of the job had a row
      have hsome : (before.jobs.row? job.key.text).isNone = false :=
        (JobTable.answer_insertIfAbsent before.jobs job).symm.trans (hanswers.1.symm.trans hr)
      show _ = (before.jobs.row? key).or _
      by_cases hk : job.key.text = key
      · cases hrow : before.jobs.row? key with
        | none => rw [hk, hrow] at hsome; exact nomatch hsome
        | some row => rfl
      · rw [if_neg hk, Option.or_none]
  | replaceIf job observed =>
    cases answer with
    | error _ => exact hr.elim
    | ok won =>
      have hother : (before.jobs.row? job.key.text).any (·.isObserved { observed with key := job.key }) = false :=
        (JobTable.answer_replaceIf hkeyed job observed).symm.trans (hanswers.1.symm.trans hr)
      cases hrow : before.jobs.row? key with
      | none => rfl
      | some row =>
        show _ = some (if row.isObserved { observed with key := job.key } then _ else row)
        rw [if_neg]
        intro hobs
        have hk : job.key.text = key := (JobRow.key_of_isObserved hobs).symm.trans (JobTable.key_of_row? hrow)
        rw [hk, hrow] at hother
        exact ne_true_of_eq_false hother hobs
  | _ => exact hr.elim

/-- What a deed queues is a job that is wanted, in the place of none that is under way. -/
theorem Deed.Follows.of_queues (h : d.Follows constraints earlier) (hq : d.Queues key) :
    d.Writes key ∧ ∃ job, IsWanted constraints earlier job ∧ job.key.text = key ∧
      d.after.jobs.row? key = some (.ofJob job) ∧ ∀ row, d.before.jobs.row? key = some row → row.MayReturn := by
  obtain ⟨hne, row', hrow', hqueued⟩ := hq
  obtain ⟨st, hcall, heffect⟩ := h.exists_statement hne
  obtain ⟨call, answer, before, after⟩ := d
  have hmay := h.may
  dsimp only at hcall hne hmay heffect hrow' ⊢
  subst hcall
  rw [hrow'] at hne heffect
  cases st with
  | find _ => exact absurd heffect.symm hne
  | insertIfAbsent job =>
    cases hrow : before.jobs.row? key with
    | some row =>
      rw [hrow] at heffect hne
      exact absurd heffect.symm hne
    | none =>
      rw [hrow] at heffect
      by_cases hk : job.key.text = key
      · refine ⟨hk, job, hmay, hk, ?_, fun _ he => nomatch he⟩
        rw [hrow', heffect]
        exact if_pos hk
      · exact nomatch heffect.trans (if_neg hk)
  | replaceIf job observed =>
    obtain ⟨hwanted, hkey, hcan, hstorable⟩ := hmay
    have hsame : { observed with key := job.key } = observed := by rw [← hkey]
    cases hrow : before.jobs.row? key with
    | none => rw [hrow] at heffect; exact nomatch heffect
    | some row =>
      rw [hrow] at heffect hne
      by_cases hobs : row.isObserved { observed with key := job.key } = true
      · have hk : job.key.text = key := (JobRow.key_of_isObserved hobs).symm.trans (JobTable.key_of_row? hrow)
        refine ⟨hk, job, hwanted, hk, ?_, ?_⟩
        · rw [hrow', heffect]
          exact congrArg some (if_pos hobs)
        · rintro _ ⟨⟩
          rw [hsame] at hobs
          obtain ⟨id, now, rfl, _⟩ := hwanted
          exact mayReturn_of_isObserved hobs hcan hstorable (hkey ▸ rfl)
      · exact absurd (heffect.trans (congrArg some (if_neg hobs))).symm hne
  | quarantine k reason now =>
    cases hrow : before.jobs.row? key with
    | none => rw [hrow] at heffect; exact nomatch heffect
    | some row =>
      rw [hrow] at heffect hne
      -- a row that was given up is not queued
      by_cases hk : (row.key == k) = true
      · obtain rfl := Option.some.inj (heffect.trans (congrArg some (if_pos hk)))
        exact absurd (show "abandoned" = "queued" from hqueued) (by decide)
      · exact absurd (heffect.trans (congrArg some (if_neg hk))).symm hne
  | _ => exact hmay.elim

/-- The list is read first of all, and an item on it was pending then. -/
theorem Deed.Follows.of_lists (h : d.Follows constraints earlier) {id : String} (hl : d.Lists id) :
    earlier = [] ∧ d.before.items.Knows id ∧ ¬ d.before.items.Uploaded id := by
  unfold Deed.Lists at hl
  split at hl
  · rename_i rows before after
    refine ⟨h.may, ?_⟩
    obtain ⟨hrows, _⟩ : rows = (ItemStatement.listPending.run before.items).1 ∧ _ := h.answers
    obtain ⟨row, hrow, rfl⟩ := List.mem_map.1 hl
    rw [hrows] at hrow
    obtain ⟨hmem, hpending⟩ := List.mem_filter.1 (List.mem_mergeSort.1 hrow)
    have hfound : before.items.row? row.id = some row := ItemTable.row?_of_mem h.keyed.items hmem
    refine ⟨⟨row, hfound⟩, ?_⟩
    rintro ⟨row', hrow', hu⟩
    obtain rfl := Option.some.inj (hfound.symm.trans hrow')
    rw [Option.isNone_iff_eq_none.1 hpending] at hu
    exact nomatch hu
  · exact hl.elim

end Deeds

/-! ## Runs -/

/-- A dispatch under way in a scene, and what others are at beside it. -/
structure Yard (β : Type) where
  scene : Scene
  rest : Script Call Call.Answer (Except Stop Nat)
  others : List (Script Call Call.Answer β)

/-- The runs of a dispatch beside others in a scene, told by the deeds of the dispatch, newest first.  Between
    two of them the others make any calls in any order, and every call is answered in any way that a scene can. -/
inductive Run {β : Type} (constraints : Constraints) (start : Scene) (others : List (Script Call Call.Answer β)) :
    List Deed → Yard β → Prop where
  | start : Run constraints start others [] ⟨start, (Queue.dispatch constraints).run, others⟩
  | goes {past : List Deed} {s t : Scene} {row : List (Script Call Call.Answer β)} {c : Call}
      {next : c.Answer → Script Call Call.Answer (Except Stop Nat)} {x : c.Answer}
      (h : Run constraints start others past ⟨s, .ask c next, row⟩) (hx : s.Answers c x t) :
    Run constraints start others (⟨c, x, s, t⟩ :: past) ⟨t, next x, row⟩
  | beside {past : List Deed} {s t : Scene} {rest : Script Call Call.Answer (Except Stop Nat)}
      {left right : List (Script Call Call.Answer β)} {c : Call} {next : c.Answer → Script Call Call.Answer β}
      {x : c.Answer} (h : Run constraints start others past ⟨s, rest, left ++ .ask c next :: right⟩)
      (hx : s.Answers c x t) :
    Run constraints start others past ⟨t, rest, left ++ next x :: right⟩

section Runs

variable {β : Type} {constraints : Constraints} {start : Scene} {others : List (Script Call Call.Answer β)}
  {past : List Deed} {yard : Yard β}

/-- A state of a run in which the dispatch keeps to its protocol. -/
structure Steady (constraints : Constraints) (past : List Deed) (yard : Yard β) : Prop where
  keyed : yard.scene.IsKeyed
  keeps : yard.rest.Keeps (dispatches constraints) (fun _ _ => True) past
  deeds : Each (fun d earlier => d.Follows constraints earlier) past

theorem Run.steady (h : Run constraints start others past yard) (hs : start.IsKeyed) :
    Steady constraints past yard := by
  induction h with
  | start => exact ⟨hs, dispatch_keeps constraints, trivial⟩
  | @goes past s t row c next x _ hx ih =>
    obtain ⟨hmay, hnext⟩ := ih.keeps
    have hfollows : Deed.Follows constraints past ⟨c, x, s, t⟩ := ⟨ih.keyed, hmay, hx⟩
    exact ⟨ih.keyed.answers hx, hnext x _ ⟨s, t, ih.keyed, hx, rfl⟩, hfollows, ih.deeds⟩
  | beside _ hx ih => exact ⟨ih.keyed.answers hx, ih.keeps, ih.deeds⟩

/-- No key is queued twice. -/
theorem not_queues_earlier {earlier : List Deed} {d e : Deed} {key : String}
    (h : Each (fun d earlier => d.Follows constraints earlier) (d :: earlier)) (he : e ∈ earlier)
    (hd : d.Queues key) : ¬ e.Queues key := by
  intro hq
  obtain ⟨hlater, hearlier⟩ := h
  obtain ⟨_, job, ⟨id, now, _, _, hopen⟩, hkey, _⟩ := hlater.of_queues hd
  obtain ⟨between, before, rfl⟩ := List.append_of_mem he
  have hfollows : e.Follows constraints before := hearlier.of_split
  have hrefused : e.IsRefused := hopen e he (hkey ▸ (hfollows.of_queues hq).1)
  exact hq.1 (hfollows.row?_of_isRefused hrefused)

theorem Run.goes_to {s : Scene} {row : List (Script Call Call.Answer β)} {c : Call}
    {next : c.Answer → Script Call Call.Answer (Except Stop Nat)}
    (h : Run constraints start others past ⟨s, .ask c next, row⟩) (x : c.Answer) (t : Scene)
    (hx : s.Answers c x t) :
    Run constraints start others (⟨c, x, s, t⟩ :: past) ⟨t, next x, row⟩ :=
  h.goes hx

theorem Run.beside_alone {s : Scene} {rest : Script Call Call.Answer (Except Stop Nat)} {c : Call}
    {next : c.Answer → Script Call Call.Answer β}
    (h : Run constraints start others past ⟨s, rest, [.ask c next]⟩) (x : c.Answer) (t : Scene)
    (hx : s.Answers c x t) :
    Run constraints start others past ⟨t, rest, [next x]⟩ :=
  @Run.beside β constraints start others past s t rest [] [] c next x h hx

end Runs

/-! ## One pending item -/

/-- The row of an item that was not acknowledged yet. -/
def pendingItem : ItemRow := ⟨"a", .int 0, none⟩

/-- The same item, acknowledged. -/
def uploadedItem : ItemRow := ⟨"a", .int 0, some (.int 0)⟩

/-- A scene where the item is pending. -/
def pendingScene (jobs : JobTable) : Scene := ⟨jobs, [pendingItem], .epoch, [], [], []⟩

theorem run_listPending_pendingItem : (ItemStatement.listPending.run [pendingItem]).1 = [pendingItem] :=
  List.mergeSort_singleton pendingItem

theorem pendingScene_isKeyed : (pendingScene []).IsKeyed :=
  ⟨JobTable.keyed_nil, List.pairwise_singleton _ _⟩

/-- The fresh upload of the item. -/
def freshUpload : Job := .fresh (.upload "a" .network) .epoch

/-- The upload in its first attempt. -/
def startedUpload : Job := { freshUpload with state := .running, attempt := 1 }

/-- The upload after its first attempt succeeded. -/
def endedUpload : Job := { startedUpload with state := .succeeded }

/-- A backup that sends one item at a time. -/
def photos : Backup := ⟨.standard, Upload.toHost, .network, 1⟩

/-- The server took the item, and the client all of its content. -/
theorem acknowledges_wholeByte :
    (Exchange.ended Upload.wholeByte (.ok ⟨200, []⟩)).Acknowledges (Upload.toHost.body Upload.oneByte) := by
  have hbuffered : (Upload.toHost.body Upload.oneByte).buffered ≠ 0 := by decide
  have hiff := Upload.objection?_ofBody_eq_none_iff hbuffered none (.ok ⟨200, []⟩)
  rw [Upload.ofBody_oneByte] at hiff
  exact hiff.1 (by decide)

end Dispatching

end MediaBackup
