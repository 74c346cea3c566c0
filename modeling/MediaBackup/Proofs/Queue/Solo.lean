import Mathlib.Logic.Relation
import MediaBackup.Proofs.Queue.Rounds
import MediaBackup.Proofs.Recovery.Rows
import MediaBackup.Proofs.Recovery.Upkeep
import MediaBackup.Proofs.Store.ItemReading
import MediaBackup.Queue.Enqueue

/-
  A dispatch that is run alone, in a world in which any statement may fail.

  A WATCH is a scene together with the failures of the database that the program met, so that an error can be told
  to be one of them.  A request is served in its first round, if its key can be read or has no row
  (`meets_enqueue`).  A request for a key that cannot be read but has a row is lost: its row is found corrupt and
  given up in every round, and is there again in the next one (`meets_enqueueWithin_nameless`).  There is one such key, that
  of the item without a name.

  So a dispatch serves every item that is to be sent; but if the one without a name is among them and its upload has a
  row, the dispatch stops there (`keeps_dispatch`).
-/

namespace MediaBackup

/-- A script, and the world that it is run in alone, after one answer. -/
inductive Script.Goes {α σ : Type} (W : Ways σ) :
    Script Call Call.Answer α × σ → Script Call Call.Answer α × σ → Prop where
  | answer {c : Call} {next : c.Answer → Script Call Call.Answer α} {x : c.Answer} {s t : σ} (hx : W s c x t) :
    Goes W (.ask c next, s) (next x, t)

/-- What a program keeps in a world that answers every call, it comes to. -/
theorem Script.comes_of_keeps {α σ : Type} {W : Ways σ} (hW : ∀ s c, ∃ x t, W s c x t)
    {p : Script Call Call.Answer α} {post : α → σ → Prop} {s : σ} (h : p.Keeps (Protocol.alone W) post s) :
    Comes (Script.Goes W) (fun a => ∃ r, a.1 = .done r ∧ post r a.2) (p, s) := by
  induction p generalizing s with
  | done r => exact .here ⟨r, rfl, h⟩
  | ask c next ih =>
    refine .goes ?_ fun a ha => ?_
    · obtain ⟨x, t, hx⟩ := hW s c
      exact ⟨_, .answer hx⟩
    · cases ha with
      | answer hx => exact ih _ (h.2 _ _ hx)

/-- What the database failed with at a call. -/
def Call.faults : (c : Call) → c.Answer → List StoreFault
  | .jobs _, .error fault | .items _, .error fault => [fault]
  | _, _ => []

/-- A scene, and the failures of the database so far. -/
structure Watch where
  scene : Scene
  faults : List StoreFault

/-- A scene answers, and the failure of its database is noted. -/
def Watch.Goes : Ways Watch := fun w c x v => w.scene.Answers c x v.scene ∧ v.faults = w.faults ++ c.faults x

/-- The row of a job that is still looked at. -/
def JobRow.IsActive (r : JobRow) : Prop := r.state = JobState.running.name ∨ r.Waits

namespace Scene

/-- The items that are handed out to be sent, in their order. -/
def listed (s : Scene) : List String := (ItemStatement.listPending.run s.items).1.map ItemRow.id

/-- The item was seen and not acknowledged. -/
def Pends (s : Scene) (id : String) : Prop := ∃ r, s.items.row? id = some r ∧ r.uploadedAt = none

/-- There is an upload of the item that is still looked at, or its tombstone. -/
def Serves (s : Scene) (id : String) : Prop :=
  ∃ r, s.jobs.at? (.upload id) = some r ∧ (r.IsActive ∨ r.IsTombstone)

/-- The item without a name is to be sent, and its upload has a row. -/
def IsBlocked (s : Scene) : Prop := s.Pends "" ∧ ∃ r, s.jobs.at? (.upload "") = some r

variable {s t : Scene} {id : String}

/-- Where no two rows have one id, the pending items are listed, each once. -/
theorem mem_listed_iff (h : s.items.Keyed) : id ∈ s.listed ↔ s.Pends id := by
  have hrows : id ∈ s.listed ↔ ∃ r ∈ s.items, r.uploadedAt = none ∧ r.id = id := by
    unfold listed
    rw [List.mem_map]
    refine exists_congr fun r => ?_
    show r ∈ (s.items.filter (·.uploadedAt.isNone)).mergeSort ItemRow.pendingBefore ∧ _ ↔ _
    rw [List.mem_mergeSort, List.mem_filter, Option.isNone_iff_eq_none, and_assoc]
  rw [hrows]
  constructor
  · rintro ⟨r, hr, hnone, rfl⟩
    exact ⟨r, ItemTable.row?_of_mem h hr, hnone⟩
  · rintro ⟨r, hr, hnone⟩
    exact ⟨r, ItemTable.mem_of_row? hr, hnone, ItemTable.id_of_row? hr⟩

theorem nodup_listed (h : s.items.Keyed) : s.listed.Nodup := by
  have hperm : ((s.items.filter (·.uploadedAt.isNone)).mergeSort ItemRow.pendingBefore).Perm
      (s.items.filter (·.uploadedAt.isNone)) := List.mergeSort_perm _ _
  refine (hperm.map ItemRow.id).nodup_iff.2 (List.Nodup.sublist ?_ h)
  exact List.filter_sublist.map _

/-- Where nothing is blocked, the uploads of pending items have keys that can be read, or no row. -/
theorem named_or_none (h : ¬ s.IsBlocked) (hp : s.Pends id) : id ≠ "" ∨ s.jobs.at? (.upload id) = none := by
  by_cases hid : id = ""
  · subst hid
    refine .inr (Option.eq_none_iff_forall_ne_some.2 fun r hr => ?_)
    exact h ⟨hp, r, hr⟩
  · exact .inl hid

/-- An item is served as long as its row stays. -/
theorem Serves.of_at? (h : s.Serves id) (he : t.jobs.at? (.upload id) = s.jobs.at? (.upload id)) : t.Serves id := by
  unfold Serves
  rw [he]
  exact h

end Scene

namespace Watch

open Script

/-! ## Rules -/

/-- The protocol of a program that is run alone. -/
abbrev alone : Protocol Call Call.Answer Watch := Protocol.alone Goes

/-- A failure of the database that was met. -/
def Met (e : Stop) (w : Watch) : Prop := ∃ fault ∈ w.faults, e = .failed (.database fault)

variable {w : Watch} {bad : Stop → Watch → Prop}

section Answers

variable {v : Watch}

/-- Where nothing failed the watch is told by its scene. -/
theorem eq_of_faults (h : v.faults = w.faults ++ []) : v = { w with scene := v.scene } := by
  obtain ⟨scene, faults⟩ := v
  rw [List.append_nil] at h
  exact congrArg (mk scene) h

theorem Goes.of_now {now : Instant} (h : Goes w .now now v) :
    now.IsDate ∧ v = { w with scene := { w.scene with clock := now } } := by
  obtain ⟨⟨hdate, hscene⟩, hfaults⟩ := h
  exact ⟨hdate, hscene ▸ eq_of_faults hfaults⟩

theorem Goes.of_emit {e : SyncEvent} {x : Unit} (h : Goes w (.emit (.sync e)) x v) : v = w := by
  obtain ⟨hscene, hfaults⟩ := h
  replace hscene : v.scene = w.scene := hscene
  rw [eq_of_faults hfaults, hscene]

theorem Goes.of_jobs {st : JobStatement} {x : st.Answer} (h : Goes w (.jobs st) (.ok x) v) :
    x = (st.run w.scene.jobs).1 ∧ v = { w with scene := { w.scene with jobs := (st.run w.scene.jobs).2 } } := by
  obtain ⟨⟨hx, hscene⟩, hfaults⟩ := h
  exact ⟨hx, hscene ▸ eq_of_faults hfaults⟩

end Answers

theorem meets_emit {e : SyncEvent} {good : Unit → Watch → Prop} (h : good () w) :
    Meets alone good bad (Engine.emit e) w := by
  refine Engine.meets_emit.2 ⟨trivial, fun _ v hv => ?_⟩
  obtain rfl := Goes.of_emit hv
  exact h

theorem met_of_faults {v : Watch} {fault : StoreFault} (h : v.faults = w.faults ++ [fault]) :
    Met (.failed (.database fault)) v := by
  have hmem : fault ∈ v.faults := h ▸ List.mem_append_right _ (List.mem_singleton.2 rfl)
  exact ⟨fault, hmem, rfl⟩

/-- A statement on the items is answered by the table, or the database fails. -/
theorem meets_items {st : ItemStatement} {good : st.Answer → Watch → Prop}
    (h : good (st.run w.scene.items).1 { w with scene := { w.scene with items := (st.run w.scene.items).2 } })
    (hbad : ∀ e v, Met e v → bad e v) : Meets alone good bad (Engine.items st) w := by
  refine Engine.meets_items.2 ⟨trivial, ?_, ?_⟩
  · rintro _ ⟨v, faults⟩ ⟨⟨rfl, rfl⟩, rfl⟩
    rwa [← List.append_nil w.faults] at h
  · rintro fault v ⟨_, hv⟩
    exact hbad _ _ (met_of_faults hv)

/-! ## Programs that are run alone come to their end -/

variable {α : Type} {p : Script Call Call.Answer α} {post : α → Watch → Prop}

/-- A scene answers every call, and its database need not fail. -/
theorem exists_goes (w : Watch) (c : Call) : ∃ x v, w.Goes c x v ∧ v.faults = w.faults := by
  have hexists : ∃ (x : c.Answer) (t : Scene), w.scene.Answers c x t ∧ c.faults x = [] := by
    cases c with
    | jobs st => exact ⟨.ok _, _, ⟨rfl, rfl⟩, rfl⟩
    | items st => exact ⟨.ok _, _, ⟨rfl, rfl⟩, rfl⟩
    | now => exact ⟨.epoch, _, ⟨by decide, rfl⟩, rfl⟩
    | emit e => exact ⟨(), _, rfl, rfl⟩
    | network => exact ⟨none, _, rfl, rfl⟩
    | list => exact ⟨.crashed none, _, rfl, rfl⟩
    | openItem id => exact ⟨.crashed none, _, rfl, rfl⟩
    | send request body => exact ⟨_, _, ⟨rfl, rfl⟩, rfl⟩
    | await n =>
      refine ⟨.late, w.scene, ?_, rfl⟩
      show w.scene.Exchanges n .late w.scene
      unfold Scene.Exchanges
      split
      · exact ⟨fun _ _ he => (nomatch he), .inr ⟨id, rfl⟩⟩
      · rfl
  obtain ⟨x, t, hx, hfaults⟩ := hexists
  refine ⟨x, ⟨t, w.faults⟩, ⟨hx, ?_⟩, rfl⟩
  rw [hfaults, List.append_nil]

/-- What a program keeps when it is run alone, it comes to. -/
theorem comes_of_keeps (h : p.Keeps alone post w) :
    Comes (Script.Goes Watch.Goes) (fun a => ∃ r, a.1 = .done r ∧ post r a.2) (p, w) :=
  Script.comes_of_keeps (fun w c => let ⟨x, v, hx, _⟩ := w.exists_goes c; ⟨x, v, hx⟩) h

/-- It can be run to that end with no failure of the database. -/
theorem exists_end (h : p.Keeps alone post w) :
    ∃ r v, Relation.ReflTransGen (Script.Goes Watch.Goes) (p, w) (.done r, v) ∧ v.faults = w.faults ∧ post r v := by
  induction p generalizing w with
  | done r => exact ⟨r, w, .refl, rfl, h⟩
  | ask c next ih =>
    obtain ⟨x, u, hx, hu⟩ := w.exists_goes c
    obtain ⟨r, v, hv, hfaults, hpost⟩ := ih x (h.2 x u hx)
    exact ⟨r, v, .head (.answer hx) hv, hfaults.trans hu, hpost⟩

/-! ## Requests -/

/-- What is left when requests for the uploads of these items were served. -/
structure Served (ids : List String) (w v : Watch) : Prop where
  faults : v.faults = w.faults
  items : v.scene.items = w.scene.items
  jobs : v.scene.jobs.IsSound
  others : ∀ k, (∀ id ∈ ids, k ≠ .upload id) → v.scene.jobs.at? k = w.scene.jobs.at? k
  serves : ∀ id ∈ ids, v.scene.Serves id

theorem Served.nil (hs : w.scene.jobs.IsSound) : Served [] w w :=
  ⟨rfl, rfl, hs, fun _ _ => rfl, fun _ hid => absurd hid List.not_mem_nil⟩

theorem Served.trans {ids ids' : List String} {u v : Watch} (h : Served ids w u) (h' : Served ids' u v) :
    Served (ids ++ ids') w v where
  faults := h'.faults.trans h.faults
  items := h'.items.trans h.items
  jobs := h'.jobs
  others k hk := by
    have hk' : ∀ id ∈ ids', k ≠ .upload id := fun id hid => hk id (List.mem_append_right _ hid)
    exact (h'.others k hk').trans (h.others k fun id hid => hk id (List.mem_append_left _ hid))
  serves id hid := by
    by_cases hlater : id ∈ ids'
    · exact h'.serves id hlater
    · have hfirst : id ∈ ids := (List.mem_append.1 hid).resolve_right hlater
      refine (h.serves id hfirst).of_at? (h'.others _ ?_)
      rintro id' hid' he
      exact hlater (JobKey.upload.inj he ▸ hid')

variable {id : String} {constraints : Constraints}

/-- A fresh upload that was written serves its item. -/
theorem served_of_sets {now : Instant} {st : JobStatement} (hst : st.IsProper) (hs : w.scene.jobs.IsSound)
    (hsets : w.scene.jobs.Sets (.upload id) (.ofJob (.fresh (.upload id constraints) now)) (st.run w.scene.jobs).2) :
    Served [id] w { w with scene := { w.scene with clock := now, jobs := (st.run w.scene.jobs).2 } } where
  faults := rfl
  items := rfl
  jobs := JobTable.isSound_run hs hst
  others k hk := hsets.others k (hk id (List.mem_singleton.2 rfl))
  serves := by
    intro id' hid'
    obtain rfl := List.mem_singleton.1 hid'
    exact ⟨_, hsets.own, .inl (.inr (.inl rfl))⟩

/-- A row that covers the request serves its item. -/
theorem served_of_covers {now : Instant} (hs : w.scene.jobs.IsSound) {row : JobRow} {j : Job}
    (hrow : w.scene.jobs.at? (.upload id) = some row) (hj : row.Says j) (hc : Workers.Covers j) :
    Served [id] w { w with scene := { w.scene with clock := now } } where
  faults := rfl
  items := rfl
  jobs := hs
  others _ _ := rfl
  serves := by
    intro id' hid'
    obtain rfl := List.mem_singleton.1 hid'
    refine ⟨row, hrow, ?_⟩
    rcases hj.of_covers hc with hruns | ⟨_, hwaits | htomb⟩
    · exact .inl (.inl hruns)
    · exact .inl (.inr hwaits)
    · exact .inr htomb

theorem solitary : Solitary Goes fun w => w.scene.jobs where
  now h := by
    obtain ⟨hdate, rfl⟩ := Goes.of_now h
    exact ⟨hdate, rfl⟩
  emit h := by rw [Goes.of_emit h]
  run h := by
    obtain ⟨rfl, rfl⟩ := Goes.of_jobs h
    exact ⟨rfl, rfl⟩

theorem bad_of_fault (hbad : ∀ e v, Met e v → bad e v) (w : Watch) (st : JobStatement) (fault : StoreFault) (v : Watch)
    (h : Goes w (.jobs st) (.error fault) v) : bad (.failed (.database fault)) v := hbad _ _ (met_of_faults h.2)

theorem eq_of_finds {key : String} {now : Instant} {found : Option Decoded} {v : Watch}
    (h : Finds Goes key w now found v) : v = { w with scene := { w.scene with clock := now } } := by
  obtain ⟨-, t, hnow, hfind⟩ := h
  obtain ⟨-, rfl⟩ := Goes.of_now hnow
  exact (Goes.of_jobs hfind).2

theorem eq_of_replaces {fresh existing : Job} {v : Watch} (h : Replaces Goes fresh existing w v) :
    v = { w with scene := {
      w.scene with jobs := ((JobStatement.replaceIf fresh existing).run w.scene.jobs).2 } } := by
  obtain ⟨u, hreplaced, htold⟩ := h
  rw [Goes.of_emit htold]
  exact (Goes.of_jobs hreplaced).2

/-- A request is served, if its key can be read or has no row. -/
theorem meets_enqueue (hs : w.scene.jobs.IsSound) (hid : id ≠ "" ∨ w.scene.jobs.at? (.upload id) = none)
    (hbad : ∀ e v, Met e v → bad e v) :
    Meets alone (fun _ v => Served [id] w v) bad (Queue.enqueue (.upload id constraints)) w := by
  -- the first round decides
  refine Queue.meets_round solitary hs.keyed (bad_of_fault hbad) 15 ?_ ?_ ?_ ?_
  · intro now u v hfinds hrow hadds
    have hproper : (Job.fresh (.upload id constraints) now).IsProper := Job.fresh_isProper _ hfinds.1
    obtain rfl := eq_of_finds hfinds
    obtain rfl := (Goes.of_jobs hadds).2
    replace hrow : w.scene.jobs.at? (Job.fresh (.upload id constraints) now).key = none := hrow
    exact served_of_sets hproper hs (JobTable.sets_insertIfAbsent hs.keyed hrow)
  · intro now u row j hfinds hrow hj _ hstays
    obtain rfl := eq_of_finds hfinds
    exact served_of_covers hs hrow hj (Workers.covers_of_not_isReplaceable hstays)
  · intro now u v row j hfinds hrow hj hkey _ hreplaces
    have hproper : (Job.fresh (.upload id constraints) now).IsProper := Job.fresh_isProper _ hfinds.1
    obtain rfl := eq_of_finds hfinds
    obtain rfl := eq_of_replaces hreplaces
    replace hrow : w.scene.jobs.at? (Job.fresh (.upload id constraints) now).key = some row := hrow
    exact served_of_sets hproper hs (JobTable.sets_replaceIf hs.keyed hkey hrow hj.isObserved)
  · intro now u later v row reason _ hrow hdecode
    replace hrow : w.scene.jobs.at? (.upload id) = some row := hrow
    have hkey : (JobKey.upload id).IsProper :=
      fun e => (hid.resolve_right (hrow ▸ Option.some_ne_none row)) (JobKey.upload.inj e)
    obtain ⟨j, hj, _⟩ := hs.exists_job hkey hrow
    exact nomatch (JobRow.decode_eq_valid_iff.2 hj).symm.trans hdecode

/-! ## The request that is lost -/

/-- The upload of the item without a name has a row, and nothing was done but to that row. -/
structure Lost (w v : Watch) : Prop where
  faults : v.faults = w.faults
  items : v.scene.items = w.scene.items
  jobs : v.scene.jobs.IsSound
  own : ∃ r, v.scene.jobs.at? (.upload "") = some r
  others : ∀ k, k ≠ .upload "" → v.scene.jobs.at? k = w.scene.jobs.at? k

theorem Lost.trans {u v : Watch} (h : Lost w u) (h' : Lost u v) : Lost w v where
  faults := h'.faults.trans h.faults
  items := h'.items.trans h.items
  jobs := h'.jobs
  own := h'.own
  others k hk := (h'.others k hk).trans (h.others k hk)

/-- The row of the item without a name holds no job, whatever its other columns say. -/
theorem exists_corrupt {r : JobRow} (hr : r.key = (JobKey.upload "").text) :
    ∃ reason, r.decode = .corrupt (JobKey.upload "").text reason := by
  cases hd : r.decode with
  | corrupt key reason => exact ⟨reason, by rw [JobRow.key_of_decode hd, hr]⟩
  | valid j =>
    have hj : r.Says j := JobRow.decode_eq_valid_iff.1 hd
    exact absurd (JobKey.text_injective (hj.key.symm.trans hr)) hj.isProper

/-- Giving up the row leaves a row. -/
theorem lost_quarantine (hs : w.scene.jobs.IsSound) {r : JobRow} (hrow : w.scene.jobs.at? (.upload "") = some r)
    (reason : String) {now : Instant} (hdate : now.IsDate) :
    Lost w { w with
      scene := {
        w.scene with
        clock := now
        jobs := ((JobStatement.quarantine (JobKey.upload "").text reason now).run w.scene.jobs).2 } } where
  faults := rfl
  items := rfl
  jobs := JobTable.isSound_run hs hdate
  own := by
    unfold JobTable.at? at hrow ⊢
    dsimp only
    rw [JobTable.row?_run hs.keyed, hrow]
    exact ⟨_, rfl⟩
  others k hk := JobTable.row?_run_of_target hs.keyed rfl fun he => hk (JobKey.text_injective he)

theorem eq_of_givesUp {key : String} {reason : RowFault} {now : Instant} {v : Watch}
    (h : GivesUp Goes key reason w now v) :
    v = { w with
      scene := {
        w.scene with
        clock := now
        jobs := ((JobStatement.quarantine key reason.message now).run w.scene.jobs).2 } } := by
  obtain ⟨-, t, u, hnow, hgiven, htold⟩ := h
  obtain ⟨-, rfl⟩ := Goes.of_now hnow
  rw [Goes.of_emit htold]
  exact (Goes.of_jobs hgiven).2

/-- A request for the upload of the item without a name is lost if there is a row, in however many rounds. -/
theorem meets_enqueueWithin_nameless (hs : w.scene.jobs.IsSound)
    (hrow : ∃ r, w.scene.jobs.at? (.upload "") = some r) (hbad : ∀ e v, Met e v → bad e v)
    (hlost : ∀ v, Lost w v → bad (.failed (.transition (.contended (.upload "") Queue.enqueueRounds))) v)
    (rounds : Nat) {good : Enqueued → Watch → Prop} :
    Meets alone good bad (Queue.enqueueWithin (.upload "" constraints) rounds) w := by
  induction rounds generalizing w with
  | zero => exact hlost w ⟨rfl, rfl, hs, hrow, fun _ _ => rfl⟩
  | succ rounds ih =>
    obtain ⟨r, hr⟩ := hrow
    obtain ⟨fault, hd⟩ := exists_corrupt (JobTable.key_of_row? hr)
    have hnone : ∀ row j, w.scene.jobs.at? (.upload "") = some row → ¬row.Says j := by
      intro row j hrow hj
      obtain rfl := Option.some.inj (hr.symm.trans hrow)
      exact nomatch (JobRow.decode_eq_valid_iff.2 hj).symm.trans hd
    refine Queue.meets_round solitary hs.keyed (bad_of_fault hbad) rounds ?_ ?_ ?_ ?_
    · intro now u v _ hnew
      exact nomatch hr.symm.trans hnew
    · exact fun now u row j _ hrow hj => absurd hj (hnone row j hrow)
    · exact fun now u v row j _ hrow hj => absurd hj (hnone row j hrow)
    · intro now u later v row reason hfinds hrow _ hgiven
      have hdate := hgiven.1
      obtain rfl := eq_of_finds hfinds
      obtain rfl := eq_of_givesUp hgiven
      -- the next round finds the row that was given up, which holds no job either
      have hlost' : Lost w _ := lost_quarantine hs hrow reason.message hdate
      exact ih hlost'.jobs hlost'.own fun v hv => hlost v (hlost'.trans hv)

/-! ## Requests for one item after another -/

/-- The requests for some items come after those for the items before them. -/
theorem meets_enqueueUploads_append {before after : List Item} {count : Nat} {good : Nat → Watch → Prop} :
    Meets alone good bad (Queue.enqueueUploads constraints (before ++ after) count) w ↔
      Meets alone (fun n v => Meets alone good bad (Queue.enqueueUploads constraints after n) v) bad
        (Queue.enqueueUploads constraints before count) w := by
  induction before generalizing w count with
  | nil => exact Iff.rfl
  | cons i before ih =>
    simp only [List.cons_append, Queue.enqueueUploads, meets_bind, ih]

/-- Every item is served whose upload's key can be read or has no row. -/
theorem meets_enqueueUploads {items : List Item} (hs : w.scene.jobs.IsSound)
    (hnodup : (items.map Item.id).Nodup)
    (hids : ∀ i ∈ items, i.id ≠ "" ∨ w.scene.jobs.at? (.upload i.id) = none)
    (hbad : ∀ e v, Met e v → bad e v) (count : Nat) :
    Meets alone (fun _ v => Served (items.map Item.id) w v) bad (Queue.enqueueUploads constraints items count) w := by
  induction items generalizing w count with
  | nil => exact Served.nil hs
  | cons i items ih =>
    rw [List.map_cons, List.nodup_cons] at hnodup
    obtain ⟨hnew, hnodup⟩ := hnodup
    unfold Queue.enqueueUploads
    rw [meets_bind]
    refine Meets.mono ?_ (fun _ _ h => h) (meets_enqueue hs (hids i List.mem_cons_self) hbad)
    intro outcome v hv
    have hrest : ∀ j ∈ items, j.id ≠ "" ∨ v.scene.jobs.at? (.upload j.id) = none := by
      intro j hj
      refine (hids j (List.mem_cons_of_mem _ hj)).imp id fun hnone => ?_
      refine (hv.others _ fun id hid he => ?_).trans hnone
      -- the item that was served is another one
      obtain rfl := List.mem_singleton.1 hid
      exact hnew (JobKey.upload.inj he ▸ List.mem_map_of_mem hj)
    refine Meets.mono ?_ (fun _ _ h => h) (ih hv.jobs hnodup hrest _)
    exact fun _ u hu => hv.trans hu

/-- The item without a name ends the row of requests, if its upload has a row. -/
theorem meets_enqueueUploads_nameless {before after : List Item} {i : Item} (hs : w.scene.jobs.IsSound)
    (hnodup : ((before ++ i :: after).map Item.id).Nodup) (hi : i.id = "")
    (hrow : ∃ r, w.scene.jobs.at? (.upload "") = some r) (hbad : ∀ e v, Met e v → bad e v)
    (hlost : ∀ u v, Served (before.map Item.id) w u → Lost u v →
      bad (.failed (.transition (.contended (.upload "") Queue.enqueueRounds))) v)
    (count : Nat) {good : Nat → Watch → Prop} :
    Meets alone good bad (Queue.enqueueUploads constraints (before ++ i :: after) count) w := by
  rw [List.map_append, List.map_cons, List.nodup_append] at hnodup
  obtain ⟨hbefore, _, hapart⟩ := hnodup
  have hnamed : ∀ id ∈ before.map Item.id, id ≠ "" := fun id hid => hi ▸ hapart id hid i.id List.mem_cons_self
  rw [meets_enqueueUploads_append]
  refine Meets.mono ?_ (fun _ _ h => h)
    (meets_enqueueUploads hs hbefore (fun j hj => .inl (hnamed _ (List.mem_map_of_mem hj))) hbad count)
  intro _ u hu
  have hrow' : ∃ r, u.scene.jobs.at? (.upload "") = some r := by
    rw [hu.others _ fun id hid he => hnamed id hid (JobKey.upload.inj he).symm]
    exact hrow
  unfold Queue.enqueueUploads
  rw [hi, meets_bind]
  exact meets_enqueueWithin_nameless hu.jobs hrow' hbad (fun v hv => hlost u v hu hv) _

/-! ## Dispatches -/

/-- What a dispatch that is run alone comes to, where it began on the scene `s`. -/
inductive Dispatched (s : Scene) : Except Stop Nat → Watch → Prop where
  /-- A statement failed, and the dispatch ends with its failure. -/
  | failed {e : Stop} {v : Watch} (h : Met e v) : Dispatched s (.error e) v
  /-- Every item that is to be sent is served. -/
  | served {n : Nat} {v : Watch} (hfaults : v.faults = []) (hitems : v.scene.items = s.items)
      (hfree : ¬ s.IsBlocked) (hserves : ∀ id, s.Pends id → v.scene.Serves id) : Dispatched s (.ok n) v
  /-- The item without a name is to be sent and its upload has a row: the items before it are served, and for those
      after it nothing is done. -/
  | stopped {before after : List String} {v : Watch} (hfaults : v.faults = []) (hitems : v.scene.items = s.items)
      (hblocked : s.IsBlocked) (hlisted : s.listed = before ++ "" :: after)
      (hbefore : ∀ id ∈ before, v.scene.Serves id)
      (hafter : ∀ id ∈ after, v.scene.jobs.at? (.upload id) = s.jobs.at? (.upload id)) :
    Dispatched s (.error (.failed (.transition (.contended (.upload "") Queue.enqueueRounds)))) v

/-- Where the request of the item without a name was lost, the items before it are served, and for those after it
    nothing was done. -/
theorem dispatched_of_lost {before after : List String} {u v : Watch} (hfaults : w.faults = [])
    (hblocked : w.scene.IsBlocked) (hlisted : w.scene.listed = before ++ "" :: after) (hnodup : w.scene.listed.Nodup)
    (hu : Served before w u) (hv : Lost u v) :
    Dispatched w.scene (.error (.failed (.transition (.contended (.upload "") Queue.enqueueRounds)))) v := by
  rw [hlisted, List.nodup_append, List.nodup_cons] at hnodup
  obtain ⟨_, ⟨hafter, _⟩, hapart⟩ := hnodup
  refine .stopped (hv.faults.trans (hu.faults.trans hfaults)) (hv.items.trans hu.items) hblocked hlisted ?_ ?_
  · intro id hid
    have hne : id ≠ "" := hapart id hid "" List.mem_cons_self
    exact (hu.serves id hid).of_at? (hv.others _ fun he => hne (JobKey.upload.inj he))
  · intro id hid
    have hne : id ≠ "" := fun he => hafter (he ▸ hid)
    rw [hv.others _ fun he => hne (JobKey.upload.inj he)]
    refine hu.others _ fun id' hid' he => ?_
    exact hapart id' hid' id (List.mem_cons_of_mem _ hid) (JobKey.upload.inj he).symm

/-- A dispatch that begins with no failure, on tables whose jobs are sound and whose items can all be read. -/
theorem keeps_dispatch (hs : w.scene.jobs.IsSound) (hkeyed : w.scene.items.Keyed)
    (hread : ∀ r ∈ w.scene.items, ∃ i, r.Says i) (hfaults : w.faults = []) :
    (Queue.dispatch constraints).run.Keeps alone (Dispatched w.scene) w := by
  have hmeets : Meets alone (fun n => Dispatched w.scene (.ok n)) (fun e => Dispatched w.scene (.error e))
      (Queue.dispatch constraints) w := by
    have hbad : ∀ e v, Met e v → Dispatched w.scene (.error e) v := fun _ _ => .failed
    have hrows : ∀ r ∈ (ItemStatement.listPending.run w.scene.items).1, ∃ i, r.item = .ok i := by
      intro r hr
      obtain ⟨i, hi⟩ := hread r (List.mem_filter.1 (List.mem_mergeSort.1 hr)).1
      exact ⟨i, ItemRow.item_eq_ok_iff.2 hi⟩
    obtain ⟨items, hitems, hlisted⟩ := Scene.exists_readRows true hrows
    replace hlisted : items.map Item.id = w.scene.listed := hlisted
    have hnodup : w.scene.listed.Nodup := Scene.nodup_listed hkeyed
    unfold Queue.dispatch Ledger.pending
    rw [meets_bind, meets_bind]
    refine meets_items ?_ hbad
    rw [hitems, meets_pure]
    by_cases hblocked : w.scene.IsBlocked
    · have hmem : "" ∈ items.map Item.id := hlisted ▸ (Scene.mem_listed_iff hkeyed).2 hblocked.1
      obtain ⟨i, hi, hname⟩ := List.mem_map.1 hmem
      obtain ⟨before, after, rfl⟩ := List.append_of_mem hi
      refine meets_enqueueUploads_nameless hs (hlisted ▸ hnodup) hname hblocked.2 hbad (fun u v hu hv => ?_) 0
      rw [List.map_append, List.map_cons, hname] at hlisted
      exact dispatched_of_lost hfaults hblocked hlisted.symm hnodup hu hv
    · have hids : ∀ i ∈ items, i.id ≠ "" ∨ w.scene.jobs.at? (.upload i.id) = none := by
        intro i hi
        have hpends : w.scene.Pends i.id := (Scene.mem_listed_iff hkeyed).1 (hlisted ▸ List.mem_map_of_mem hi)
        exact Scene.named_or_none hblocked hpends
      refine Meets.mono ?_ (fun _ _ h => h) (meets_enqueueUploads hs (hlisted ▸ hnodup) hids hbad 0)
      intro n v hv
      refine .served (hv.faults.trans hfaults) hv.items hblocked fun id hid => hv.serves id ?_
      exact hlisted ▸ (Scene.mem_listed_iff hkeyed).2 hid
  refine Keeps.mono (fun r v h => ?_) hmeets
  cases r with
  | ok n => exact h
  | error e => exact h

end Watch

end MediaBackup
