import Mathlib.Data.List.Basic
import MediaBackup.Proofs.Queue.Rounds
import MediaBackup.Proofs.Queue.Solo

/-
  What a dispatch covers, whatever the two tables hold.

  Nothing is asked of the rows, but that no two have one key and that every item has a name.  A row that cannot be
  read is given up in the first round of a request and replaced in the second one (`meets_request`); so one request
  settles one key and leaves all others, and a dispatch settles the keys of all items that are to be sent
  (`keeps_dispatch_any`).  What it leaves stands, so the next dispatch finds nothing to do.
-/

namespace MediaBackup

/-! ## What stands, and what gives way -/

/-- The items that are to be sent and whose rows can be read. -/
def ItemTable.pending (t : ItemTable) : List Item :=
  t.filterMap fun r => match r.item with
    | .ok i => if i.isPending then some i else none
    | .error _ => none

/-- The row holds a job that is still looked at, or the tombstone of an upload. -/
def JobRow.Stands (r : JobRow) : Prop := ∃ j, r.job = .ok j ∧ (j.state.isActive = true ∨ j.isTombstone = true)

/-- Nothing stands under the key: it has no row, or a row that holds no job, or its job succeeded or was given up
    without being a tombstone. -/
def JobTable.isOpen (t : JobTable) (k : JobKey) : Bool :=
  match t.at? k with
  | none => true
  | some r => match r.job with
    | .error _ => true
    | .ok j => j.state == .succeeded || (j.state == .abandoned && !j.isTombstone)

/-- What a dispatch leaves: for every pending item there is a job that stands, the rows of all other keys are as they
    were, and so are those that stood before. -/
structure Scene.Dispatched (s t : Scene) : Prop where
  stands : ∀ i ∈ s.items.pending, ∃ r, t.jobs.at? (.upload i.id) = some r ∧ r.Stands
  others : ∀ key, (∀ i ∈ s.items.pending, key ≠ (JobKey.upload i.id).text) → t.jobs.row? key = s.jobs.row? key
  kept : ∀ key r, s.jobs.row? key = some r → r.Stands → t.jobs.row? key = some r
  items : t.items = s.items

section Rows

variable {t : JobTable} {k : JobKey} {r : JobRow} {j : Job}

/-- The job of an upload gives way if it is over and no tombstone. -/
theorem Job.isReplaceable_of_isUpload (hu : j.key.isUpload = true) (hf : j.state ≠ .failed) :
    j.isReplaceable = (j.state == .succeeded || (j.state == .abandoned && !j.isTombstone)) := by
  unfold Job.isReplaceable
  cases hs : j.state with
  | failed => exact absurd hs hf
  | _ => simp [hu]

/-- Else it stands. -/
theorem Job.stands_of_not_isReplaceable (h : j.isReplaceable = false) :
    j.state.isActive = true ∨ j.isTombstone = true := by
  rcases Workers.covers_of_not_isReplaceable h with hs | ⟨-, hs | hs⟩ | ⟨hs, hu, hreason⟩
  · exact .inl (hs ▸ rfl)
  · exact .inl (hs ▸ rfl)
  · exact .inl (hs ▸ rfl)
  · exact .inr (Workers.isTombstone_iff.mpr ⟨hs, hreason, hu⟩)

theorem JobTable.isOpen_of_none (h : t.at? k = none) : t.isOpen k = true := by
  unfold JobTable.isOpen
  rw [h]

theorem JobTable.isOpen_of_error {fault : RowFault} (h : t.at? k = some r) (hr : r.job = .error fault) :
    t.isOpen k = true := by
  unfold JobTable.isOpen
  rw [h]
  dsimp only
  rw [hr]

theorem JobTable.isOpen_of_says (h : t.at? k = some r) (hr : r.Says j) (hu : j.key.isUpload = true) :
    t.isOpen k = j.isReplaceable := by
  unfold JobTable.isOpen
  rw [h, Job.isReplaceable_of_isUpload hu hr.isStorable]
  dsimp only
  rw [JobRow.job_eq_ok_iff.mpr hr]

/-- Where a job stands the key is not open. -/
theorem JobTable.isOpen_of_stands (h : t.at? k = some r) (hr : r.Stands) : t.isOpen k = false := by
  obtain ⟨j, hj, hstands⟩ := hr
  unfold JobTable.isOpen
  rw [h]
  dsimp only
  rw [hj]
  rcases hstands with hactive | htomb
  · dsimp only
    cases hs : j.state with
    | succeeded | failed | abandoned => rw [hs] at hactive; exact nomatch hactive
    | _ => rfl
  · dsimp only
    rw [(Workers.isTombstone_iff.mp htomb).1, htomb]
    rfl

/-- Whether a key is open depends on its row alone. -/
theorem JobTable.isOpen_congr {u : JobTable} (h : u.at? k = t.at? k) : u.isOpen k = t.isOpen k := by
  unfold JobTable.isOpen
  rw [h]

end Rows

namespace Watch

open Script

variable {w v : Watch} {id : String} {constraints : Constraints} {bad : Stop → Watch → Prop}

/-! ## One request -/

/-- What a request for the upload of an item comes to. -/
structure Requested (id : String) (outcome : Enqueued) (w v : Watch) : Prop where
  faults : v.faults = w.faults
  items : v.scene.items = w.scene.items
  keyed : v.scene.jobs.Keyed
  fresh : outcome.isFresh = w.scene.jobs.isOpen (.upload id)
  stands : ∃ r, v.scene.jobs.at? (.upload id) = some r ∧ r.Stands
  others : ∀ key, key ≠ (JobKey.upload id).text → v.scene.jobs.row? key = w.scene.jobs.row? key
  dropped : w.scene.jobs.isOpen (.upload id) = false → v.scene.jobs = w.scene.jobs

/-- A fresh upload was written under a key that was open. -/
theorem Requested.of_sets {outcome : Enqueued} {now : Instant} {st : JobStatement} (hid : id ≠ "") (hdate : now.IsDate)
    (hk : w.scene.jobs.Keyed) (hopen : w.scene.jobs.isOpen (.upload id) = true)
    (hst : st.target? = some (JobKey.upload id).text) (houtcome : outcome.isFresh = true)
    (hsets : w.scene.jobs.Sets (.upload id) (.ofJob (.fresh (.upload id constraints) now)) (st.run w.scene.jobs).2) :
    Requested id outcome w { w with scene := { w.scene with clock := now, jobs := (st.run w.scene.jobs).2 } } where
  faults := rfl
  items := rfl
  keyed := JobTable.keyed_run hk st
  fresh := houtcome.trans hopen.symm
  stands := by
    have hkey : (JobKey.upload id).IsProper := fun e => hid (JobKey.upload.inj e)
    have hsays := JobRow.ofJob_says (Job.fresh_isProper (.upload id constraints) hdate) hkey
    exact ⟨_, hsets.own, _, JobRow.job_eq_ok_iff.mpr hsays, .inl rfl⟩
  others key hne := JobTable.row?_run_of_target hk hst hne
  dropped h := Bool.noConfusion (hopen.symm.trans h)

/-- The job of the row covers the request. -/
theorem Requested.of_covers {now : Instant} {r : JobRow} {j : Job} (hk : w.scene.jobs.Keyed)
    (hrow : w.scene.jobs.at? (.upload id) = some r) (hj : r.Says j) (hkey : j.key = .upload id)
    (hcovers : j.isReplaceable = false) :
    Requested id .dropped w { w with scene := { w.scene with clock := now } } where
  faults := rfl
  items := rfl
  keyed := hk
  fresh := ((JobTable.isOpen_of_says hrow hj (hkey ▸ rfl)).trans hcovers).symm
  stands := ⟨r, hrow, j, JobRow.job_eq_ok_iff.mpr hj, Job.stands_of_not_isReplaceable hcovers⟩
  others _ _ := rfl
  dropped _ := rfl

/-- What a request comes to once a row that holds no job was given up. -/
theorem Requested.of_quarantine {u : Watch} {outcome : Enqueued} {r : JobRow} {fault : RowFault} {words : String}
    {now : Instant} (h : Requested id outcome u v) (hk : w.scene.jobs.Keyed)
    (hrow : w.scene.jobs.at? (.upload id) = some r) (hfault : r.job = .error fault) (hfaults : u.faults = w.faults)
    (hitems : u.scene.items = w.scene.items)
    (hjobs : u.scene.jobs = ((JobStatement.quarantine (JobKey.upload id).text words now).run w.scene.jobs).2)
    (hopen : u.scene.jobs.isOpen (.upload id) = true) : Requested id outcome w v where
  faults := h.faults.trans hfaults
  items := h.items.trans hitems
  keyed := h.keyed
  fresh := by
    rw [JobTable.isOpen_of_error hrow hfault]
    exact h.fresh.trans hopen
  stands := h.stands
  others key hne := by
    rw [h.others key hne, hjobs]
    exact JobTable.row?_run_of_target hk rfl hne
  dropped hclosed := Bool.noConfusion ((JobTable.isOpen_of_error hrow hfault).symm.trans hclosed)

/-- One request settles one key.  A row that holds no job is given up first, and the next round replaces it. -/
theorem meets_request (hk : w.scene.jobs.Keyed) (hid : id ≠ "") (hbad : ∀ e v, Met e v → bad e v) :
    Meets alone (fun outcome v => Requested id outcome w v) bad (Queue.enqueue (.upload id constraints)) w := by
  have hproper : (JobKey.upload id).IsProper := fun e => hid (JobKey.upload.inj e)
  refine Queue.meets_enqueue solitary hk hproper (bad_of_fault hbad) ?_ ?_ ?_ ?_
  · intro now u v hfinds hrow hadds
    have hdate := hfinds.1
    obtain rfl := eq_of_finds hfinds
    obtain rfl := (Goes.of_jobs hadds).2
    replace hrow : w.scene.jobs.row? (Job.fresh (.upload id constraints) now).key.text = none := hrow
    exact .of_sets hid hdate hk (JobTable.isOpen_of_none hrow) rfl rfl (JobTable.sets_insertIfAbsent hk hrow)
  · intro now u row j hfinds hrow hj hkey hstays
    obtain rfl := eq_of_finds hfinds
    exact .of_covers hk hrow hj hkey hstays
  · intro now u v row j hfinds hrow hj hkey hgives hreplaces
    have hdate := hfinds.1
    obtain rfl := eq_of_finds hfinds
    obtain rfl := eq_of_replaces hreplaces
    have hopen := (JobTable.isOpen_of_says hrow hj (hkey ▸ rfl)).trans hgives
    replace hrow : w.scene.jobs.row? (Job.fresh (.upload id constraints) now).key.text = some row := hrow
    exact .of_sets hid hdate hk hopen rfl rfl (JobTable.sets_replaceIf hk hkey hrow hj.isObserved)
  · intro now u later v again u' v' row reason j hfinds hrow hdecode hgiven hfinds' hj hkey hreplaces
    obtain rfl := eq_of_finds hfinds
    obtain ⟨hleft, i, hi, -, hgives⟩ := solitary.row?_of_givesUp hgiven hk hproper hrow
    obtain rfl := hi.job_unique hj
    have hjobs := solitary.jobs_of_givesUp hgiven
    have hkeyed : v.scene.jobs.Keyed := hjobs ▸ JobTable.keyed_run hk _
    have hopen := (JobTable.isOpen_of_says hleft hj (hkey ▸ rfl)).trans hgives
    -- the round after it meets a job that gives way
    have hafter : Requested id .replaced v v' := by
      have hdate := hfinds'.1
      obtain rfl := eq_of_finds hfinds'
      obtain rfl := eq_of_replaces hreplaces
      replace hleft : v.scene.jobs.row? (Job.fresh (.upload id constraints) again).key.text = some _ := hleft
      exact .of_sets hid hdate hkeyed hopen rfl rfl (JobTable.sets_replaceIf hkeyed hkey hleft hj.isObserved)
    refine hafter.of_quarantine hk hrow (JobRow.job_of_decode hdecode) ?_ ?_ hjobs hopen
    · rw [eq_of_givesUp hgiven]
    · rw [eq_of_givesUp hgiven]

/-! ## A request for each item -/

/-- What requests for the uploads of these items come to. -/
structure Covered (list : List Item) (fresh : Nat) (w v : Watch) : Prop where
  faults : v.faults = w.faults
  items : v.scene.items = w.scene.items
  keyed : v.scene.jobs.Keyed
  count : fresh = list.countP fun i => w.scene.jobs.isOpen (.upload i.id)
  stands : ∀ i ∈ list, ∃ r, v.scene.jobs.at? (.upload i.id) = some r ∧ r.Stands
  others : ∀ key, (∀ i ∈ list, key ≠ (JobKey.upload i.id).text) → v.scene.jobs.row? key = w.scene.jobs.row? key
  kept : ∀ key r, w.scene.jobs.row? key = some r → r.Stands → v.scene.jobs.row? key = some r
  dropped : (∀ i ∈ list, w.scene.jobs.isOpen (.upload i.id) = false) → v.scene.jobs = w.scene.jobs

/-- One request after the others. -/
theorem Covered.cons {i : Item} {items : List Item} {outcome : Enqueued} {fresh : Nat} {u : Watch}
    (hnew : i.id ∉ items.map Item.id) (hfirst : Requested i.id outcome w u) (hrest : Covered items fresh u v) :
    Covered (i :: items) (fresh + if outcome.isFresh then 1 else 0) w v := by
  have hother : ∀ j ∈ items, (JobKey.upload j.id).text ≠ (JobKey.upload i.id).text := fun j hj he =>
    hnew (JobKey.upload.inj (JobKey.text_injective he) ▸ List.mem_map_of_mem hj)
  have hsame : ∀ j ∈ items, u.scene.jobs.isOpen (.upload j.id) = w.scene.jobs.isOpen (.upload j.id) :=
    fun j hj => JobTable.isOpen_congr (hfirst.others _ (hother j hj))
  refine ⟨hrest.faults.trans hfirst.faults, hrest.items.trans hfirst.items, hrest.keyed, ?_, ?_, ?_, ?_, ?_⟩
  · rw [List.countP_cons, hrest.count, hfirst.fresh]
    congr 1
    exact List.countP_congr fun j hj => by rw [hsame j hj]
  · intro j hj
    rcases List.mem_cons.mp hj with rfl | hj
    · obtain ⟨r, hrow, hstands⟩ := hfirst.stands
      exact ⟨r, hrest.kept _ r hrow hstands, hstands⟩
    · exact hrest.stands j hj
  · intro key hkey
    refine (hrest.others key fun j hj => hkey j (.tail _ hj)).trans (hfirst.others key (hkey i (.head _)))
  · intro key r hrow hstands
    refine hrest.kept key r ?_ hstands
    by_cases hkey : key = (JobKey.upload i.id).text
    · subst hkey
      rwa [hfirst.dropped (JobTable.isOpen_of_stands hrow hstands)]
    · rwa [hfirst.others key hkey]
  · intro hclosed
    have hlater : ∀ j ∈ items, u.scene.jobs.isOpen (.upload j.id) = false :=
      fun j hj => (hsame j hj).trans (hclosed j (.tail _ hj))
    exact (hrest.dropped hlater).trans (hfirst.dropped (hclosed i (.head _)))

theorem meets_requests {items : List Item} (hk : w.scene.jobs.Keyed) (hnodup : (items.map Item.id).Nodup)
    (hnamed : ∀ i ∈ items, i.id ≠ "") (hbad : ∀ e v, Met e v → bad e v) (count : Nat) :
    Meets alone (fun n v => ∃ fresh, n = count + fresh ∧ Covered items fresh w v) bad
      (Queue.enqueueUploads constraints items count) w := by
  induction items generalizing w count with
  | nil =>
    refine ⟨0, rfl, rfl, rfl, hk, rfl, ?_, fun _ _ => rfl, fun _ _ hrow _ => hrow, fun _ => rfl⟩
    exact fun i hi => absurd hi List.not_mem_nil
  | cons i items ih =>
    obtain ⟨hnew, hnodup⟩ := List.nodup_cons.mp hnodup
    unfold Queue.enqueueUploads
    rw [meets_bind]
    refine Meets.mono (fun outcome u hu => ?_) (fun _ _ he => he) (meets_request hk (hnamed i (.head _)) hbad)
    refine Meets.mono ?_ (fun _ _ he => he) (ih hu.keyed hnodup (fun j hj => hnamed j (.tail _ hj)) _)
    rintro n v ⟨fresh, rfl, hv⟩
    refine ⟨_, ?_, hv.cons hnew hu⟩
    split <;> omega

/-! ## The items that a dispatch reads -/

/-- Rows that cannot be read are left out. -/
theorem meets_readRows {rows : List ItemRow} {good : List Item → Watch → Prop}
    (h : good (rows.filterMap fun r => r.item.toOption) w) :
    Meets alone good bad (Ledger.readRows true rows) w := by
  induction rows generalizing good with
  | nil => exact h
  | cons r rows ih =>
    unfold Ledger.readRows
    cases hr : r.item with
    | ok i =>
      rw [List.filterMap_cons_some (by rw [hr]; rfl)] at h
      dsimp only
      rw [meets_bind]
      exact ih h
    | error fault =>
      rw [List.filterMap_cons_none (by rw [hr]; rfl)] at h
      dsimp only
      rw [if_pos rfl, meets_bind]
      exact meets_emit (ih h)

/-- What is read are the pending items, in some order. -/
theorem listed_perm_pending (t : ItemTable) :
    ((ItemStatement.listPending.run t).1.filterMap fun r => r.item.toOption).Perm t.pending := by
  have hperm : (ItemStatement.listPending.run t).1.Perm (t.filter (·.uploadedAt.isNone)) := List.mergeSort_perm _ _
  refine (hperm.filterMap _).trans (.of_eq ?_)
  unfold ItemTable.pending
  rw [List.filterMap_filter]
  refine List.filterMap_congr fun r _ => ?_
  cases hr : r.item with
  | error fault => split <;> rfl
  | ok i =>
    have hsame : i.uploadedAt.isNone = r.uploadedAt.isNone := by
      have hrel := (ItemRow.item_eq_ok_iff.mp hr).uploadedAt
      generalize r.uploadedAt = a, i.uploadedAt = b at hrel
      cases hrel <;> rfl
    show (if r.uploadedAt.isNone = true then some i else none) = if i.uploadedAt.isNone = true then some i else none
    rw [hsame]

theorem mem_pending_iff {t : ItemTable} {i : Item} :
    i ∈ t.pending ↔ ∃ r ∈ t, r.item = .ok i ∧ i.isPending = true := by
  unfold ItemTable.pending
  rw [List.mem_filterMap]
  refine exists_congr fun r => and_congr_right fun _ => ?_
  cases r.item with
  | error fault => exact ⟨fun h => (nomatch h), fun h => (nomatch h.1)⟩
  | ok j =>
    dsimp only
    by_cases hp : j.isPending = true
    · rw [if_pos hp]
      exact ⟨fun h => ⟨congrArg _ (Option.some.inj h), Option.some.inj h ▸ hp⟩, fun h => congrArg _ (Except.ok.inj h.1)⟩
    · rw [if_neg hp]
      exact ⟨fun h => (nomatch h), fun h => absurd (Except.ok.inj h.1 ▸ h.2) hp⟩

/-- Each pending item is one of the table's. -/
theorem nodup_pending {t : ItemTable} (h : t.Keyed) : (t.pending.map Item.id).Nodup := by
  have hsub : (t.pending.map Item.id).Sublist (t.map ItemRow.id) := by
    clear h
    induction t with
    | nil => exact .slnil
    | cons r t ih =>
      unfold ItemTable.pending
      rw [List.filterMap_cons]
      split
      · exact ih.cons _
      · rename_i i hi
        have hid : i.id = r.id := by
          cases hr : r.item with
          | error fault => rw [hr] at hi; exact nomatch hi
          | ok j =>
            rw [hr] at hi
            dsimp only at hi
            split at hi
            · exact Option.some.inj hi ▸ (ItemRow.item_eq_ok_iff.mp hr).id.symm
            · exact nomatch hi
        rw [List.map_cons, List.map_cons, hid]
        exact ih.cons_cons _
  exact hsub.nodup h

/-! ## Dispatches -/

/-- A dispatch settles the pending items, and gives as many fresh jobs as keys were open. -/
theorem keeps_dispatch_any {s : Scene} (hjobs : s.jobs.Keyed) (hitems : s.items.Keyed)
    (hnamed : ∀ r ∈ s.items, r.id ≠ "") (constraints : Constraints) :
    (Queue.dispatch constraints).run.Keeps alone (fun r v => v.faults = [] →
      r = .ok (s.items.pending.countP fun i => s.jobs.isOpen (.upload i.id)) ∧ v.scene.jobs.Keyed ∧
        s.Dispatched v.scene ∧
        ((∀ i ∈ s.items.pending, s.jobs.isOpen (.upload i.id) = false) → v.scene.jobs = s.jobs)) ⟨s, []⟩ := by
  have hmeets : Meets alone (fun n v => ∃ items, items.Perm s.items.pending ∧ Covered items n ⟨s, []⟩ v) Met
      (Queue.dispatch constraints) ⟨s, []⟩ := by
    have hperm := listed_perm_pending s.items
    unfold Queue.dispatch Ledger.pending
    rw [meets_bind, meets_bind]
    refine meets_items (meets_readRows ?_) fun _ _ he => he
    have hnames : ∀ i ∈ s.items.pending, i.id ≠ "" := by
      intro i hi
      obtain ⟨r, hr, hitem, -⟩ := mem_pending_iff.mp hi
      exact (ItemRow.item_eq_ok_iff.mp hitem).id ▸ hnamed r hr
    refine Meets.mono ?_ (fun _ _ he => he) (meets_requests hjobs ((hperm.map _).nodup_iff.mpr (nodup_pending hitems))
      (fun i hi => hnames i (hperm.mem_iff.mp hi)) (fun _ _ he => he) 0)
    rintro n v ⟨fresh, rfl, hv⟩
    exact ⟨_, hperm, (Nat.zero_add fresh).symm ▸ hv⟩
  refine Keeps.mono (fun r v hv hfaults => ?_) hmeets
  cases r with
  | error e =>
    obtain ⟨fault, hmem, -⟩ := hv
    rw [hfaults] at hmem
    exact absurd hmem List.not_mem_nil
  | ok n =>
    obtain ⟨items, hperm, hv⟩ := hv
    have hmem : ∀ {i}, i ∈ s.items.pending → i ∈ items := hperm.mem_iff.mpr
    refine ⟨congrArg _ (hv.count.trans (hperm.countP_eq _)), hv.keyed, ⟨?_, ?_, hv.kept, hv.items⟩, ?_⟩
    · exact fun i hi => hv.stands i (hmem hi)
    · exact fun key hkey => hv.others key fun i hi => hkey i (hperm.mem_iff.mp hi)
    · exact fun hclosed => hv.dropped fun i hi => hclosed i (hperm.mem_iff.mp hi)

/-- **A dispatch covers every pending item, and the next one finds nothing to do.**  On whatever tables, a dispatch that
    is run alone comes to its end; and if no statement failed it tells how many pending items had no upload that
    stands, and leaves an upload that stands for each of them, every other key and every row that stood being as it
    was.  A second dispatch right after it tells of none and changes no row. -/
theorem dispatch_covers {s : Scene} (hjobs : s.jobs.Keyed) (hitems : s.items.Keyed)
    (hnamed : ∀ r ∈ s.items, r.id ≠ "") (constraints : Constraints) :
    Comes (Script.Goes Watch.Goes) (fun a => ∃ r v, a = (.done r, v) ∧ (v.faults = [] →
      r = .ok (s.items.pending.countP fun i => s.jobs.isOpen (.upload i.id)) ∧ s.Dispatched v.scene ∧
      Comes (Script.Goes Watch.Goes) (fun b => ∃ q u, b = (.done q, u) ∧ (u.faults = [] →
        q = .ok 0 ∧ u.scene.jobs = v.scene.jobs ∧ u.scene.items = v.scene.items))
        ((Queue.dispatch constraints).run, v))) ((Queue.dispatch constraints).run, ⟨s, []⟩) := by
  refine (comes_of_keeps (keeps_dispatch_any hjobs hitems hnamed constraints)).trans ?_
  rintro ⟨_, v⟩ ⟨r, rfl, hend⟩
  refine .here ⟨r, v, rfl, fun hfaults => ?_⟩
  obtain ⟨rfl, hkeyed, hsettled, -⟩ := hend hfaults
  refine ⟨rfl, hsettled, ?_⟩
  obtain ⟨t, faults⟩ := v
  obtain rfl : faults = [] := hfaults
  have hclosed : ∀ i ∈ t.items.pending, t.jobs.isOpen (.upload i.id) = false := by
    intro i hi
    obtain ⟨r, hrow, hstands⟩ := hsettled.stands i (hsettled.items ▸ hi)
    exact JobTable.isOpen_of_stands hrow hstands
  have hnone : t.items.pending.countP (fun i => t.jobs.isOpen (.upload i.id)) = 0 :=
    List.countP_eq_zero.mpr fun i hi => ne_true_of_eq_false (hclosed i hi)
  have hsecond := keeps_dispatch_any hkeyed (hsettled.items ▸ hitems) (hsettled.items ▸ hnamed) constraints
  refine (comes_of_keeps hsecond).trans ?_
  rintro ⟨_, u⟩ ⟨q, rfl, hend⟩
  refine .here ⟨q, u, rfl, fun hfaults => ?_⟩
  obtain ⟨hq, -, hagain, hsame⟩ := hend hfaults
  exact ⟨hnone ▸ hq, hsame hclosed, hagain.items⟩

/-! ## Damaged tables -/

/-- An upload whose count of attempts is none. -/
def uncountedUpload : JobRow := { JobRow.ofJob (.fresh (.upload "a" .network) .epoch) with attempt := .int (-1) }

/-- An upload that was given up for good. -/
def buriedUpload : Job :=
  { Job.fresh (.upload "d" .network) .epoch with state := .abandoned, attempt := 1, abandonReason := some .permanent }

/-- Four items are to be sent.  The upload of the first cannot be read, nor can the second item; the third has no
    upload, and that of the last was given up for good. -/
def damaged : Scene where
  jobs := [uncountedUpload, .ofJob buriedUpload]
  items := [⟨"a", .int 0, none⟩, ⟨"b", .text "soon", none⟩, ⟨"c", .int 0, none⟩, ⟨"d", .int 0, none⟩]
  clock := .epoch
  sent := []
  acknowledged := []
  reported := []

theorem countP_isOpen_damaged : damaged.items.pending.countP (fun i => damaged.jobs.isOpen (.upload i.id)) = 2 := by
  have hpending : damaged.items.pending = [⟨"a", .epoch, none⟩, ⟨"c", .epoch, none⟩, ⟨"d", .epoch, none⟩] := rfl
  have hburied : damaged.jobs.isOpen (.upload "d") = false := by
    have hsays := JobRow.ofJob_says (j := buriedUpload)
      ⟨JobState.noConfusion, by decide, by decide, by decide, by decide⟩ (by decide)
    exact JobTable.isOpen_of_stands (r := .ofJob buriedUpload) rfl ⟨_, JobRow.job_eq_ok_iff.mpr hsays, .inr rfl⟩
  have hdamaged : damaged.jobs.isOpen (.upload "a") = true := rfl
  have hnone : damaged.jobs.isOpen (.upload "c") = true := rfl
  rw [hpending]
  simp [hburied, hdamaged, hnone]

/-- A dispatch gives the first and the third a fresh upload, and can do so with no failure. -/
theorem dispatch_covers_damaged :
    damaged.jobs.Keyed ∧ damaged.items.Keyed ∧ (∀ r ∈ damaged.items, r.id ≠ "") ∧
    (∃ r v, Relation.ReflTransGen (Script.Goes Watch.Goes) ((Queue.dispatch .network).run, ⟨damaged, []⟩)
      (.done r, v) ∧ v.faults = []) ∧
    Comes (Script.Goes Watch.Goes) (fun a => ∃ r v, a = (.done r, v) ∧
      (v.faults = [] → r = .ok 2 ∧ damaged.Dispatched v.scene)) ((Queue.dispatch .network).run, ⟨damaged, []⟩) := by
  have hjobs : damaged.jobs.Keyed := List.pairwise_pair.mpr (by decide)
  have hitems : damaged.items.Keyed := by
    show (damaged.items.map ItemRow.id).Nodup
    decide
  have hnamed : ∀ r ∈ damaged.items, r.id ≠ "" := by decide
  obtain ⟨r, v, hrun, hfaults, -⟩ := exists_end (keeps_dispatch_any hjobs hitems hnamed .network)
  refine ⟨hjobs, hitems, hnamed, ⟨r, v, hrun, hfaults⟩, ?_⟩
  refine (dispatch_covers hjobs hitems hnamed .network).trans ?_
  rintro a ⟨r, v, rfl, hend⟩
  refine .here ⟨r, v, rfl, fun hfaults => ?_⟩
  obtain ⟨hr, hsettled, -⟩ := hend hfaults
  exact ⟨hr.trans (congrArg _ countP_isOpen_damaged), hsettled⟩

end Watch

end MediaBackup
