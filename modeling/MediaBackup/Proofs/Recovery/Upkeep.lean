import MediaBackup.Pass.Backup
import MediaBackup.Proofs.Recovery.Tidy

/-
  The work at a scan and at a dispatch, each run alone in a world in which nothing fails.

  A scan makes all items of the library known, and if it found any that was not, a dispatch waits after it.  A dispatch
  leaves every known item covered.  Both keep the scene tidy and the copies current, and are marked as succeeded.
-/

namespace MediaBackup

namespace Scene

open Script Workers

variable {ids : List String} {s : Scene} {hand : Option JobKey} {jobs : List Job}

/-- Nothing stops a program here. -/
abbrev never : Stop → Scene → Prop := fun _ _ => False

/-! ## Scans -/

/-- What writing down listed items does. -/
structure Discovers (list : List String) (before after : ScanReport) (s t : Scene) : Prop where
  jobs : t.jobs = s.jobs
  fit : t.Fit
  le : s.clock.nanos ≤ t.clock.nanos
  mono : ∀ id, s.items.Knows id → t.items.Knows id
  known : ∀ id ∈ list, t.items.Knows id
  more : before.discovered ≤ after.discovered
  same : after.discovered = before.discovered → t.items = s.items

theorem meets_discoverAll {list : List String} (hlist : ∀ id ∈ list, id ≠ "") (h : s.Fit)
    (report : ScanReport) :
    Meets (alone ids) (fun after t => Discovers list report after s t) never
      (Ledger.discoverAll list report) s := by
  induction list generalizing s report with
  | nil =>
    exact ⟨rfl, h, Int.le_refl _, fun _ hk => hk, fun _ hid => absurd hid List.not_mem_nil,
      Nat.le_refl _, fun _ => rfl⟩
  | cons id list ih =>
    unfold Ledger.discoverAll
    rw [meets_bind, meets_now]
    intro c hdate hle
    rw [meets_bind]
    refine meets_items.2 ?_
    let u : Scene := { s with clock := c, items := ((ItemStatement.insertIfAbsent id c).run s.items).2 }
    have hclock : Fit { s with clock := c } := h.later ⟨rfl, hle, hdate⟩ h.jobs
    have hu : u.Fit := hclock.discover (hlist id List.mem_cons_self) hdate
    have hknown : u.items.Knows id := by
      unfold ItemTable.Knows
      rw [ItemTable.row?_run]
      show ∃ r, (ItemTable.row? s.items id).or (if id = id then _ else none) = some r
      rw [if_pos rfl]
      cases ItemTable.row? s.items id with
      | none => exact ⟨_, rfl⟩
      | some r => exact ⟨r, rfl⟩
    have hfound : ((ItemStatement.insertIfAbsent id c).run s.items).1 = false → u.items = s.items := by
      show (if s.items.any (·.id == id) then (false, s.items) else
        (true, s.items ++ [⟨id, c.cell, none⟩])).1 = false →
        (if s.items.any (·.id == id) then (false, s.items) else
          (true, s.items ++ [⟨id, c.cell, none⟩])).2 = s.items
      split
      · exact fun _ => rfl
      · exact fun hf => nomatch hf
    generalize ((ItemStatement.insertIfAbsent id c).run s.items).1 = new at hfound
    refine Meets.mono ?_ (fun _ _ hf => hf)
      (ih (fun id' hid' => hlist id' (List.mem_cons_of_mem _ hid')) hu _)
    rintro after t ⟨hjobs, hfit, hle', hmono, hrest, hmore, hsame⟩
    refine ⟨hjobs, hfit, Int.le_trans hle hle', fun id' hk => hmono id' (hk.run _), ?_, ?_, ?_⟩
    · intro id' hid'
      rcases List.mem_cons.1 hid' with rfl | hid'
      · exact hmono _ hknown
      · exact hrest id' hid'
    · cases new with
      | true => exact Nat.le_of_succ_le hmore
      | false => exact hmore
    · cases new with
      | true =>
        intro he
        exact absurd (he ▸ hmore) (Nat.not_succ_le_self _)
      | false => exact fun he => (hsame he).trans (hfound rfl)

/-- A scan writes down all items of the library. -/
theorem meets_scan (hids : ∀ id ∈ ids, id ≠ "") (h : s.Fit) :
    Meets (alone ids) (fun report t => Discovers ids ⟨0, 0⟩ report s t) never Ledger.scan s := by
  unfold Ledger.scan
  rw [meets_bind, meets_list, meets_bind]
  have hfit : Fit { s with reported := ids ++ s.reported } := h.later ⟨rfl, Int.le_refl _, h.clock⟩ h.jobs
  show Meets (alone ids) _ never (Ledger.discoverAll ids ⟨0, 0⟩ >>= fun report => pure report) _
  rw [meets_bind]
  refine Meets.mono ?_ (fun _ _ hf => hf) (meets_discoverAll hids hfit ⟨0, 0⟩)
  rintro report t ⟨hjobs, hfit, hle, hmono, hknown, hmore, hsame⟩
  exact ⟨hjobs, hfit, hle, hmono, hknown, hmore, hsame⟩

/-- What the work at a scan leaves. -/
structure Scanned (ids : List String) (jobs : List Job) (s t : Scene) : Prop where
  tidy : Tidy (some .scan) t
  copies : Copies jobs t
  own : t.jobs.at? .scan = s.jobs.at? .scan
  known : Known ids t
  /-- A dispatch waits, or there was no reason for one. -/
  asked : t.Waits .dispatch ∨ (t.jobs = s.jobs ∧ t.items = s.items)

/-- A scan that runs keeps a dispatch from neither running nor being asked for. -/
theorem meets_perform_scan (b : Backup) (hids : ∀ id ∈ ids, id ≠ "") (h : Tidy (some .scan) s)
    (hc : Copies jobs s) :
    Meets (alone ids) (fun o t => o = .success ∧ Scanned ids jobs s t) never (b.perform .scan) s := by
  unfold Backup.perform
  rw [meets_bind]
  refine Meets.mono ?_ (fun _ _ hf => hf) (meets_scan hids h.fit)
  intro report t hd
  have htidy : Tidy (some .scan) t := h.same hd.fit hd.le hd.jobs
  have hcopies : Copies jobs t := hc.later hd.jobs
  rw [meets_bind, meets_emit]
  split
  · rw [meets_bind]
    refine meets_enqueue hd.fit (by decide) ?_ ?_
    · -- a dispatch that runs, or any that would cover the request, there is none
      intro u row j _ _ hrow hj hcovers
      obtain ⟨j', hj', hkey⟩ := hd.fit.jobs.says_at hrow
      obtain rfl := hj.job_unique hj'
      rcases hj.of_covers hcovers with hrun | ⟨hu, _⟩
      · exact absurd hrun (htidy.quiet .dispatch row hrow (by decide)).1
      · rw [hkey] at hu
        exact nomatch hu
    · intro _ u hw _
      refine ⟨rfl, htidy.freshens hw, hcopies.freshens htidy rfl hw, ?_, ?_, .inl (hw.waits (.inl rfl))⟩
      · rw [hw.sets.others .scan (by decide), hd.jobs]
      · exact (known_iff hw.items).2 hd.known
  · rename_i hnone
    refine ⟨rfl, htidy, hcopies, by rw [hd.jobs], hd.known, .inr ⟨hd.jobs, hd.same ?_⟩⟩
    show report.discovered = 0
    omega

/-! ## Dispatches -/

/-- Rows that can all be read are read. -/
theorem exists_readRows (reports : Bool) {rows : List ItemRow} (h : ∀ r ∈ rows, ∃ i, r.item = .ok i) :
    ∃ items, Ledger.readRows reports rows = pure items ∧ items.map Item.id = rows.map ItemRow.id := by
  induction rows with
  | nil => exact ⟨[], rfl, rfl⟩
  | cons r rows ih =>
    obtain ⟨i, hi⟩ := h r List.mem_cons_self
    obtain ⟨items, hitems, hmap⟩ := ih fun q hq => h q (List.mem_cons_of_mem _ hq)
    refine ⟨i :: items, ?_, ?_⟩
    · unfold Ledger.readRows
      rw [hi, hitems]
      rfl
    · rw [List.map_cons, List.map_cons, hmap, ItemRow.id_of_item hi]

/-- What queueing uploads for items leaves. -/
structure Queued (list : List String) (jobs : List Job) (hand : Option JobKey) (s t : Scene) : Prop where
  tidy : Tidy hand t
  copies : Copies jobs t
  items : t.items = s.items
  others : ∀ k, k.isHousekeeping = true → t.jobs.at? k = s.jobs.at? k
  kept : ∀ id r, s.jobs.at? (.upload id) = some r → r.Waits ∨ r.IsTombstone →
    t.jobs.at? (.upload id) = some r
  covered : ∀ id ∈ list, t.Waits (.upload id) ∨ t.Buried id

theorem Queued.trans {list list' : List String} {t u : Scene} (h : Queued list jobs hand s t)
    (h' : Queued list' jobs hand t u) : Queued (list ++ list') jobs hand s u where
  tidy := h'.tidy
  copies := h'.copies
  items := h'.items.trans h.items
  others k hk := (h'.others k hk).trans (h.others k hk)
  kept id r hr hw := h'.kept id r (h.kept id r hr hw) hw
  covered id hid := by
    rcases List.mem_append.1 hid with hid | hid
    · rcases h.covered id hid with ⟨r, hr, hw⟩ | ⟨r, hr, hw⟩
      · exact .inl ⟨r, h'.kept id r hr (.inl hw), hw⟩
      · exact .inr ⟨r, h'.kept id r hr (.inr hw), hw⟩
    · exact h'.covered id hid

/-- Asking for the upload of one item. -/
theorem meets_enqueue_upload (constraints : Constraints) {id : String} (hid : id ≠ "") (h : Tidy hand s)
    (hhand : hand ≠ some (.upload id)) (hc : Copies jobs s) :
    Meets (alone ids) (fun _ t => Queued [id] jobs hand s t) never
      (Queue.enqueue (.upload id constraints)) s := by
  refine meets_enqueue h.fit (fun he => hid (JobKey.upload.inj he)) ?_ ?_
  · intro t row j hl hj hrow hsay hcovers
    have hwaits : row.Waits ∨ row.IsTombstone := by
      rcases hsay.of_covers hcovers with hrun | ⟨_, hw⟩
      · exact absurd hrun (h.quiet _ row hrow hhand).1
      · exact hw
    refine ⟨h.later hl hj, hc.later hj, hl.items, fun _ _ => by rw [hj],
      fun _ _ hr _ => by rw [hj]; exact hr, ?_⟩
    intro id' hid'
    obtain rfl := List.mem_singleton.1 hid'
    unfold Waits Buried
    rw [hj]
    rcases hwaits with hw | hw
    · exact .inl ⟨row, hrow, hw⟩
    · exact .inr ⟨row, hrow, hw⟩
  · intro _ t hw hgives
    -- a row that waits or is a tombstone would have covered the request
    have hover : ∀ r, s.jobs.at? (.upload id) = some r → ¬ (r.Waits ∨ r.IsTombstone) := by
      intro r hr hwaits
      obtain ⟨j, hj, hkey⟩ := h.fit.jobs.says_at hr
      have hno := hj.of_givesWay (hkey ▸ rfl) (hgives r j hr hj)
      exact hwaits.elim hno.1 hno.2
    refine ⟨h.freshens hw, hc.writes hw ?_, hw.items, ?_, ?_, ?_⟩
    · intro j hj he
      obtain ⟨r, hr, hwaits⟩ := hc.waits hj
      rw [he] at hr
      exact hover r hr (.inl hwaits)
    · intro k hk
      exact hw.sets.others k (upload_ne_of_isHousekeeping hk id).symm
    · intro id' r hr hwaits
      refine (hw.sets.others _ fun he => ?_).trans hr
      obtain rfl := JobKey.upload.inj he
      exact hover r hr hwaits
    · intro id' hid'
      obtain rfl := List.mem_singleton.1 hid'
      exact .inl (hw.waits (.inl rfl))

theorem meets_enqueueUploads (constraints : Constraints) {items : List Item} (hids : ∀ i ∈ items, i.id ≠ "")
    (h : Tidy hand s) (hhand : ∀ id, hand ≠ some (.upload id)) (hc : Copies jobs s) (count : Nat) :
    Meets (alone ids) (fun _ t => Queued (items.map Item.id) jobs hand s t) never
      (Queue.enqueueUploads constraints items count) s := by
  induction items generalizing s count with
  | nil => exact ⟨h, hc, rfl, fun _ _ => rfl, fun _ _ hr _ => hr, fun _ hid => absurd hid List.not_mem_nil⟩
  | cons i items ih =>
    unfold Queue.enqueueUploads
    rw [meets_bind]
    refine Meets.mono ?_ (fun _ _ hf => hf)
      (meets_enqueue_upload constraints (hids i List.mem_cons_self) h (hhand _) hc)
    intro outcome t ht
    have hrest := ih (fun i hi => hids i (List.mem_cons_of_mem _ hi)) ht.tidy ht.copies
      (if outcome.isFresh then count + 1 else count)
    exact Meets.mono (fun _ u hu => ht.trans hu) (fun _ _ hf => hf) hrest

/-- A dispatch leaves every known item covered. -/
theorem meets_perform_dispatch (b : Backup) (h : Tidy (some .dispatch) s) (hc : Copies jobs s) :
    Meets (alone ids) (fun o t => o = .success ∧ t.Covered ∧ ∃ list,
      Queued list jobs (some .dispatch) s t) never
      (b.perform .dispatch) s := by
  -- the pending rows are those of the items that are not uploaded
  let rows := (s.items.filter (·.uploadedAt.isNone)).mergeSort ItemRow.pendingBefore
  have hrows : ∀ r, r ∈ rows ↔ s.items.row? r.id = some r ∧ r.uploadedAt = none := by
    intro r
    rw [List.mem_mergeSort, List.mem_filter, Option.isNone_iff_eq_none]
    refine and_congr_left fun _ => ⟨ItemTable.row?_of_mem h.fit.items, ItemTable.mem_of_row?⟩
  obtain ⟨items, hread, hmap⟩ := exists_readRows true fun r hr => by
    obtain ⟨hrow, hpending⟩ := (hrows r).1 hr
    exact h.fit.readable r.id r hrow hpending
  have hnamed : ∀ i ∈ items, i.id ≠ "" := by
    intro i hi
    obtain ⟨r, hr, he⟩ := List.mem_map.1 (hmap ▸ List.mem_map_of_mem hi)
    exact he ▸ h.fit.named r.id ⟨r, ((hrows r).1 hr).1⟩
  unfold Backup.perform
  rw [meets_bind]
  unfold Queue.dispatch Ledger.pending
  rw [meets_bind, meets_bind]
  refine meets_items.2 ?_
  show Meets (alone ids) _ never (Ledger.readRows true rows) s
  rw [hread, meets_pure]
  refine Meets.mono ?_ (fun _ _ hf => hf)
    (meets_enqueueUploads b.constraints hnamed h (fun _ => nofun) hc 0)
  intro count t ht
  rw [meets_bind, meets_emit]
  refine ⟨rfl, fun id hk => ?_, _, ht⟩
  rw [ht.items] at hk ⊢
  obtain ⟨r, hr⟩ := hk
  cases hu : r.uploadedAt with
  | some c => exact .inl ⟨r, hr, by rw [hu]; rfl⟩
  | none =>
    have hid := ItemTable.id_of_row? hr
    refine .inr (ht.covered id ?_)
    rw [hmap, ← hid]
    exact List.mem_map_of_mem ((hrows r).2 ⟨hid.symm ▸ hr, hu⟩)

end Scene

end MediaBackup
