import MediaBackup.Proofs.Store.Table

/-
  What housekeeping does to the rows of uploads.

  Most statements that a backup runs are not about uploads at all, and the others treat the row of an upload
  gently: they delete it only when it is over and queue it only when it waits.  `SparesUploads` tells these
  statements by their form.  For an item with a name they leave a row that runs as it is
  (`JobTable.spares_run`); the one statement that stops running uploads is the recovery at a start
  (`JobTable.tame_run`).
-/

namespace MediaBackup

/-- The row of the upload of an item. -/
def JobTable.upload? (t : JobTable) (id : String) : Option JobRow := t.row? (JobKey.upload id).text

namespace JobRow

/-- The job of the row is over. -/
def IsOver (r : JobRow) : Prop := r.state = JobState.succeeded.name ∨ r.state = JobState.abandoned.name

/-- The job of the row is still to be run. -/
def Waits (r : JobRow) : Prop := r.state = JobState.queued.name ∨ r.state = JobState.retrying.name

theorem IsOver.not_waits {r : JobRow} (h : r.IsOver) : ¬ r.Waits := by
  unfold Waits
  rcases h with h | h
  · rw [h]
    decide
  · rw [h]
    decide

/-- The row of a job that runs is neither over nor waiting. -/
theorem not_isOver_of_running {r : JobRow} (h : r.state = JobState.running.name) : ¬ r.IsOver := by
  unfold IsOver
  rw [h]
  decide

theorem not_waits_of_running {r : JobRow} (h : r.state = JobState.running.name) : ¬ r.Waits := by
  unfold Waits
  rw [h]
  decide

/-- What may become of the row of an upload that nobody asks for: it comes from a row, and if that was over it is
    over, and only if that succeeded it succeeded. -/
structure Tame (o o' : Option JobRow) : Prop where
  known : ∀ r', o' = some r' → ∃ r, o = some r
  ended : (∀ r, o = some r → r.IsOver) → ∀ r', o' = some r' → r'.IsOver
  done : ∀ r', o' = some r' → r'.state = JobState.succeeded.name → ∃ r, o = some r ∧
    r.state = JobState.succeeded.name

/-- It is tame, does not stop a job that runs and does not make one wait that did not. -/
structure Spared (o o' : Option JobRow) : Prop extends Tame o o' where
  kept : ∀ r, o = some r → r.state = JobState.running.name → o' = some r
  still : (∀ r, o = some r → ¬ r.Waits) → ∀ r', o' = some r' → ¬ r'.Waits

theorem Spared.refl (o : Option JobRow) : Spared o o :=
  ⟨⟨fun r h => ⟨r, h⟩, fun h => h, fun r h hs => ⟨r, h, hs⟩⟩, fun _ h _ => h, fun h => h⟩

/-- A row that changed its state from one kind to the same kind. -/
theorem tame_map {o : Option JobRow} {p : JobRow → Bool} {f : JobRow → JobRow}
    (h : ∀ r, p r = true → ¬ r.IsOver ∧ (f r).state ≠ JobState.succeeded.name) :
    Tame o (o.map fun r => if p r then f r else r) := by
  cases o with
  | none => exact (Spared.refl none).toTame
  | some r =>
    by_cases hp : p r = true
    · obtain ⟨hr, hf⟩ := h r hp
      rw [Option.map_some, if_pos hp]
      refine ⟨fun _ _ => ⟨r, rfl⟩, fun ho => absurd (ho r rfl) hr, ?_⟩
      intro r' hr' hs
      obtain rfl := Option.some.inj hr'
      exact absurd hs hf
    · rw [Option.map_some, if_neg hp]
      exact (Spared.refl (some r)).toTame

end JobRow

namespace JobStatement

/-- The statement asks for no upload and stops none. -/
def SparesUploads : JobStatement → Prop
  | insertIfAbsent job | replaceIf job _ => job.key.isHousekeeping = true
  | updateIf observed _ => observed.key.isHousekeeping = true
  | quarantine key _ _ => JobKey.parse? key = none
  | resetRunning _ => False
  | promote _ | deleteTerminal _ | find _ | listDue _ | count _ => True

theorem text_ne_of_isHousekeeping {k : JobKey} (h : k.isHousekeeping = true) (id : String) :
    k.text ≠ (JobKey.upload id).text := by
  intro e
  rw [JobKey.text_injective e] at h
  exact nomatch h

/-- A statement about another job leaves the row of an upload as it is. -/
theorem effect_of_isHousekeeping {id : String} {o : Option JobRow}
    (ho : ∀ r, o = some r → r.key = (JobKey.upload id).text) {k : JobKey} (hk : k.isHousekeeping = true)
    {p : JobRow → Bool} (hp : ∀ r, p r = true → r.key = k.text) (f : JobRow → JobRow) :
    (o.map fun r => if p r then f r else r) = o := by
  cases o with
  | none => rfl
  | some r =>
    have hr : ¬ p r = true := fun h => text_ne_of_isHousekeeping hk id ((hp r h).symm.trans (ho r rfl))
    rw [Option.map_some, if_neg hr]

/-- A statement that spares uploads spares a row, unless it gives up just this one. -/
theorem SparesUploads.spared {s : JobStatement} (h : s.SparesUploads) {id : String} {o : Option JobRow}
    (ho : ∀ r, o = some r → r.key = (JobKey.upload id).text)
    (hq : ∀ key reason now, s = .quarantine key reason now → (JobKey.upload id).text ≠ key) :
    JobRow.Spared o (s.effect (JobKey.upload id).text o) := by
  have hsame : ∀ o', o' = o → JobRow.Spared o o' := fun o' e => e ▸ JobRow.Spared.refl o
  cases s with
  | insertIfAbsent job =>
    refine hsame _ ?_
    show o.or (if job.key.text = _ then _ else _) = o
    rw [if_neg (text_ne_of_isHousekeeping h id), Option.or_none]
  | replaceIf job observed =>
    have hkey : ∀ r : JobRow, r.isObserved { observed with key := job.key } = true → r.key = job.key.text :=
      fun r hr => JobRow.key_of_isObserved (j := { observed with key := job.key }) hr
    exact hsame _ (effect_of_isHousekeeping ho h hkey fun _ => JobRow.ofJob job)
  | updateIf observed change =>
    exact hsame _ (effect_of_isHousekeeping ho h (fun r hr => JobRow.key_of_isCurrent hr) _)
  | quarantine key reason now =>
    refine hsame _ ?_
    cases o with
    | none => rfl
    | some r =>
      have hr : ¬ (r.key == key) = true := fun e => hq _ _ _ rfl ((ho r rfl).symm.trans (eq_of_beq e))
      show some (if r.key == key then _ else r) = some r
      rw [if_neg hr]
  | resetRunning now => exact h.elim
  | find key => exact hsame _ rfl
  | listDue now => exact hsame _ rfl
  | count state => exact hsame _ rfl
  | promote now =>
    have hp : ∀ r : JobRow, r.isPromotable now = true → r.state = JobState.retrying.name := by
      intro r hr
      unfold JobRow.isPromotable at hr
      rw [Bool.and_eq_true, beq_iff_eq] at hr
      exact hr.1
    refine ⟨JobRow.tame_map fun r hr => ⟨fun hover => hover.not_waits (.inr (hp r hr)), ?_⟩, ?_, ?_⟩
    · show "queued" ≠ JobState.succeeded.name
      decide
    · rintro r rfl hr
      show some (if r.isPromotable now then _ else r) = some r
      rw [if_neg]
      intro hpr
      rw [hp r hpr] at hr
      exact absurd hr (by decide)
    · intro hw r' hr'
      obtain ⟨r, rfl, rfl⟩ := Option.map_eq_some_iff.1 hr'
      split
      · rename_i hpr
        exact absurd (.inr (hp r hpr)) (hw r rfl)
      · exact hw r rfl
  | deleteTerminal limit =>
    have hfilter : ∀ r', (o.filter fun r => !r.isPrunable limit) = some r' → o = some r' :=
      fun r' hr' => (Option.filter_eq_some_iff.1 hr').1
    refine ⟨⟨fun r' hr' => ⟨r', hfilter r' hr'⟩, fun hover r' hr' => hover r' (hfilter r' hr'),
      fun r' hr' hs => ⟨r', hfilter r' hr', hs⟩⟩, ?_, fun hw r' hr' => hw r' (hfilter r' hr')⟩
    rintro r rfl hr
    have hp : (!r.isPrunable limit) = true := by
      unfold JobRow.isPrunable
      rw [hr]
      simp [JobState.name]
    exact Option.filter_some_pos (p := fun r : JobRow => !r.isPrunable limit) hp

/-- A statement that spares uploads, and the recovery, are tame with the row of any item. -/
theorem tame_effect {s : JobStatement} (h : s.SparesUploads ∨ ∃ now, s = .resetRunning now) {id : String}
    {o : Option JobRow} (ho : ∀ r, o = some r → r.key = (JobKey.upload id).text) :
    JobRow.Tame o (s.effect (JobKey.upload id).text o) := by
  rcases h with h | ⟨now, rfl⟩
  · cases s with
    | quarantine key reason now =>
      cases o with
      | none => exact (JobRow.Spared.refl none).toTame
      | some r =>
        show JobRow.Tame (some r) (some (if r.key == key then r.quarantined reason now else r))
        split
        · refine ⟨fun _ _ => ⟨r, rfl⟩, ?_, ?_⟩
          · rintro _ r' hr'
            obtain rfl := Option.some.inj hr'
            exact .inr rfl
          · rintro r' hr' hs
            obtain rfl := Option.some.inj hr'
            exact absurd hs (by show "abandoned" ≠ JobState.succeeded.name; decide)
        · exact (JobRow.Spared.refl (some r)).toTame
    | _ => exact (h.spared ho fun _ _ _ e => (nomatch e)).toTame
  · refine JobRow.tame_map fun r hr => ⟨JobRow.not_isOver_of_running (eq_of_beq hr), ?_⟩
    show "queued" ≠ JobState.succeeded.name
    decide

end JobStatement

namespace JobTable

theorem key_of_upload? {t : JobTable} {id : String} {r : JobRow} (h : t.upload? id = some r) :
    r.key = (JobKey.upload id).text := key_of_row? h

theorem upload?_run {t : JobTable} (h : Keyed t) (s : JobStatement) (id : String) :
    upload? (s.run t).2 id = s.effect (JobKey.upload id).text (t.upload? id) := row?_run h s _

/-- A change to the row of an upload that is the one of the copy. -/
theorem upload?_updateIf {t : JobTable} (h : Keyed t) {id : String} {r : JobRow}
    (hr : t.upload? id = some r) {j : Job}
    (hc : r.isCurrent j = true) (change : Change) :
    upload? ((JobStatement.updateIf j change).run t).2 id = some (r.apply change) := by
  rw [upload?_run h, hr]
  show some (if r.isCurrent j then r.apply change else r) = _
  rw [if_pos hc]

/-- It leaves the uploads of other items alone. -/
theorem upload?_updateIf_of_ne {t : JobTable} (h : Keyed t) {id id' : String} {j : Job}
    (hj : j.key = .upload id)
    (hne : id' ≠ id) (change : Change) :
    upload? ((JobStatement.updateIf j change).run t).2 id' = t.upload? id' := by
  rw [upload?_run h]
  cases hr : t.upload? id' with
  | none => rfl
  | some r =>
    have hc : ¬ r.isCurrent j = true := by
      intro hc
      have hk := (key_of_upload? hr).symm.trans (JobRow.key_of_isCurrent hc)
      rw [hj] at hk
      exact hne (JobKey.upload.inj (JobKey.text_injective hk))
    show some (if r.isCurrent j then r.apply change else r) = _
    rw [if_neg hc]

/-- One table comes tamely from another. -/
def Tame (t t' : JobTable) : Prop := ∀ id, JobRow.Tame (t.upload? id) (t'.upload? id)

/-- One table comes tamely from another, which spares the uploads of items with a name. -/
structure Spares (t t' : JobTable) : Prop where
  tame : Tame t t'
  spared : ∀ id, id ≠ "" → JobRow.Spared (t.upload? id) (t'.upload? id)

theorem Spares.refl (t : JobTable) : Spares t t :=
  ⟨fun _ => (JobRow.Spared.refl _).toTame, fun _ _ => JobRow.Spared.refl _⟩

theorem tame_run {t : JobTable} (h : Keyed t) {s : JobStatement}
    (hs : s.SparesUploads ∨ ∃ now, s = .resetRunning now) : Tame t (s.run t).2 := by
  intro id
  rw [upload?_run h]
  exact JobStatement.tame_effect hs fun _ => key_of_upload?

/-- What such a statement does to the table. -/
theorem spares_run {t : JobTable} (h : Keyed t) {s : JobStatement} (hs : s.SparesUploads) :
    Spares t (s.run t).2 := by
  refine ⟨tame_run h (.inl hs), fun id hid => ?_⟩
  rw [upload?_run h]
  refine hs.spared (fun _ => key_of_upload?) ?_
  rintro key reason now rfl e
  replace hs : JobKey.parse? key = none := hs
  rw [← e, JobKey.parse?_text fun he => hid (JobKey.upload.inj he)] at hs
  exact nomatch hs

end JobTable

end MediaBackup
