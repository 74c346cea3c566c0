import MediaBackup.Proofs.Commons.Kept
import MediaBackup.Proofs.Queue.Solo

/-
  A dispatch on tables that were built by what can be undertaken.

  Whatever was undertaken since the tables were empty, the jobs are sound and the items can all be read.  So a
  dispatch that nobody disturbs comes to its end, and that end is one of three (`Reaches.dispatches`): a statement
  failed, or every item that is to be sent is served, or the item without a name was in the way.

  The first dispatch after that item was seen serves it, with a row under the key `upload:`.  No later one can read
  that row, so as long as the item is to be sent and the row is there, no dispatch reaches the items after it.
-/

namespace MediaBackup

namespace Commons

variable {b : Backup} {c : Commons} {s t : Scene} {clock : Instant}

/-- Empty tables. -/
def blank (clock : Instant) : Scene := ⟨[], [], clock, [], [], []⟩

/-- No two items have one id, and every item can be read. -/
def ItemsRead (s : Scene) : Prop := s.items.Keyed ∧ ∀ r ∈ s.items, ∃ i, r.Says i

theorem ItemsRead.writes (h : ItemsRead s) (hw : Writes s t) : ItemsRead t := by
  unfold ItemsRead
  rcases hw.items with he | ⟨st, hdated, he⟩
  · rw [he]
    exact h
  · rw [he]
    exact ⟨ItemTable.keyed_run h.1 st, ItemTable.says_run hdated h.2⟩

/-- What is undertaken from empty tables on leaves tables that a dispatch finds its way through. -/
theorem Reaches.keeps_dispatch (h : Reaches b (still (blank clock)) c) :
    (Queue.dispatch b.constraints).run.Keeps Watch.alone (Watch.Dispatched c.scene) ⟨c.scene, []⟩ := by
  have hblank : ItemsRead (blank clock) := ⟨ItemTable.keyed_nil, fun _ hr => absurd hr List.not_mem_nil⟩
  obtain ⟨hkept, hkeyed, hread⟩ := h.preserves (fun _ _ _ hw hr => ItemsRead.writes hr hw)
    (kept_still JobTable.isSound_nil) hblank
  exact Watch.keeps_dispatch hkept.jobs hkeyed hread rfl

/-- **What a dispatch comes to** that nobody disturbs, on tables that were built by what can be undertaken. -/
theorem Reaches.dispatches (h : Reaches b (still (blank clock)) c) :
    Comes (Script.Goes Watch.Goes) (fun a => ∃ r, a.1 = .done r ∧ Watch.Dispatched c.scene r a.2)
      ((Queue.dispatch b.constraints).run, ⟨c.scene, []⟩) := Watch.comes_of_keeps h.keeps_dispatch

/-! ## The item without a name -/

/-- An item that was seen at the epoch and not acknowledged. -/
def unsent (id : String) : ItemRow := ⟨id, Instant.epoch.cell, none⟩

/-- The upload of the item without a name. -/
def namelessUpload : Job := .fresh (.upload "" .network) .epoch

/-- The item without a name is seen, and then one that has a name. -/
theorem exists_both_seen : ∃ c, Reaches photos (still (blank .epoch)) c ∧
    c.scene = { blank .epoch with items := [unsent "", unsent "a"] } := by
  have hdate : Instant.epoch.IsDate := by decide
  have h₀ : Reaches photos (still (blank .epoch)) (still (blank .epoch)) := .refl
  have h₁ := ((h₀.begin (.discover "" .epoch) hdate).call (c := .items (.insertIfAbsent "" .epoch)) (.ok true)
    { blank .epoch with items := [unsent ""] } ⟨rfl, rfl⟩).leave
  have h₂ := ((h₁.begin (.discover "a" .epoch) hdate).call (c := .items (.insertIfAbsent "a" .epoch)) (.ok true)
    { blank .epoch with items := [unsent "", unsent "a"] } ⟨rfl, rfl⟩).leave
  exact ⟨_, h₂, rfl⟩

/-- The item without a name is seen and dispatched, and then one is seen that has a name. -/
theorem exists_dispatched_between : ∃ c, Reaches photos (still (blank .epoch)) c ∧
    c.scene = { blank .epoch with jobs := [.ofJob namelessUpload], items := [unsent "", unsent "a"] } := by
  have hdate : Instant.epoch.IsDate := by decide
  have h₀ : Reaches photos (still (blank .epoch)) (still (blank .epoch)) := .refl
  have h₁ := ((h₀.begin (.discover "" .epoch) hdate).call (c := .items (.insertIfAbsent "" .epoch)) (.ok true)
    { blank .epoch with items := [unsent ""] } ⟨rfl, rfl⟩).leave
  have hlisted : (ItemStatement.listPending.run [unsent ""]).1 = [unsent ""] := List.mergeSort_singleton _
  have h₂ := (h₁.begin .dispatch trivial).call (c := .items .listPending) (.ok [unsent ""])
    { blank .epoch with items := [unsent ""] } ⟨hlisted.symm, rfl⟩
  have h₃ := ((h₂.call Instant.epoch { blank .epoch with items := [unsent ""] } ⟨hdate, rfl⟩).call
    (c := .jobs (.find (JobKey.upload "").text)) (.ok none) { blank .epoch with items := [unsent ""] } ⟨rfl, rfl⟩).call
    (c := .jobs (.insertIfAbsent namelessUpload)) (.ok true)
    { blank .epoch with jobs := [.ofJob namelessUpload], items := [unsent ""] } ⟨rfl, rfl⟩
  have h₄ := ((h₃.leave.begin (.discover "a" .epoch) hdate).call (c := .items (.insertIfAbsent "a" .epoch)) (.ok true)
    { blank .epoch with jobs := [.ofJob namelessUpload], items := [unsent "", unsent "a"] } ⟨rfl, rfl⟩).leave
  exact ⟨_, h₄, rfl⟩

/-- Both items are served by the first dispatch, unless a statement fails. -/
theorem dispatches_both : ∃ c, Reaches photos (still (blank .epoch)) c ∧
    c.scene.Pends "" ∧ c.scene.Pends "a" ∧ ¬ c.scene.IsBlocked ∧
      Comes (Script.Goes Watch.Goes) (fun a => ∃ r, a.1 = .done r ∧ Watch.Dispatched c.scene r a.2)
        ((Queue.dispatch photos.constraints).run, ⟨c.scene, []⟩) := by
  obtain ⟨c, hc, hscene⟩ := exists_both_seen
  refine ⟨c, hc, ?_, ?_, ?_, hc.dispatches⟩
  · rw [hscene]
    exact ⟨unsent "", rfl, rfl⟩
  · rw [hscene]
    exact ⟨unsent "a", rfl, rfl⟩
  · rw [hscene]
    rintro ⟨_, r, hr⟩
    exact nomatch hr

/-- With no failure of the database, a dispatch ends with an error and the item with a name has no upload. -/
theorem dispatch_stops : ∃ c v, Reaches photos (still (blank .epoch)) c ∧ c.scene.Pends "a" ∧
    Relation.ReflTransGen (Script.Goes Watch.Goes) ((Queue.dispatch photos.constraints).run, ⟨c.scene, []⟩)
      (.done (.error (.failed (.transition (.contended (.upload "") 16)))), v) ∧
    v.faults = [] ∧ v.scene.jobs.at? (.upload "a") = none := by
  obtain ⟨c, hc, hscene⟩ := exists_dispatched_between
  obtain ⟨r, v, hgoes, hfaults, hend⟩ := Watch.exists_end hc.keeps_dispatch
  have hpends : c.scene.Pends "a" := by
    rw [hscene]
    exact ⟨unsent "a", rfl, rfl⟩
  have hblocked : c.scene.IsBlocked := by
    rw [hscene]
    exact ⟨⟨unsent "", rfl, rfl⟩, _, rfl⟩
  have hlisted : c.scene.listed = ["", "a"] := by
    rw [hscene]
    show ([unsent "", unsent "a"].mergeSort ItemRow.pendingBefore).map ItemRow.id = _
    rw [List.mergeSort_of_pairwise (by decide)]
    rfl
  cases hend with
  | failed hmet =>
    obtain ⟨fault, hmem, _⟩ := hmet
    exact absurd (hfaults ▸ hmem) List.not_mem_nil
  | served _ _ hfree _ => exact absurd hblocked hfree
  | @stopped before after _ _ _ _ hsplit _ hafter =>
    refine ⟨c, v, hc, hpends, hgoes, hfaults, ?_⟩
    rw [hlisted] at hsplit
    have hmem : "a" ∈ after := by
      cases before with
      | nil => exact (List.cons.inj hsplit).2 ▸ List.mem_singleton.2 rfl
      | cons id before =>
        have htail : ["a"] = before ++ "" :: after := (List.cons.inj hsplit).2
        have hname : "" ∈ ["a"] := htail ▸ List.mem_append_right _ List.mem_cons_self
        exact absurd hname (by decide)
    rw [hafter "a" hmem, hscene]
    decide

end Commons

end MediaBackup
