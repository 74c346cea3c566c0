import MediaBackup.Proofs.Store.Items
import MediaBackup.Proofs.Store.Reading

/-
  What the row of an item says.

  As for jobs, `ItemRow.Says` says column by column when a row holds an item, and `item_eq_ok_iff` that reading
  finds that item exactly then.  Whatever is seen and acknowledged at dates can be read (`says_run`).
-/

namespace MediaBackup

/-- The row holds the item, column by column. -/
structure ItemRow.Says (r : ItemRow) (i : Item) : Prop where
  id : r.id = i.id
  discoveredAt : r.discoveredAt.Shows i.discoveredAt
  uploadedAt : Option.Rel Cell.Shows r.uploadedAt i.uploadedAt

namespace ItemRow

variable {r : ItemRow} {i : Item}

/-- Reading a row finds an item exactly if the row says it column by column. -/
theorem item_eq_ok_iff : r.item = .ok i ↔ r.Says i := by
  obtain ⟨id, discovered, uploaded⟩ := r
  constructor
  · intro h
    unfold item at h
    cases hd : discovered.instant "discovered_at" false with
    | error fault =>
      rw [hd] at h
      exact nomatch h
    | ok t =>
      rw [hd] at h
      cases uploaded with
      | none =>
        obtain rfl := Except.ok.inj h
        exact ⟨rfl, Cell.instant_eq_ok_iff.1 hd, .none⟩
      | some c =>
        cases hu : c.instant "uploaded_at" true with
        | error fault =>
          dsimp only at h
          rw [hu] at h
          exact nomatch h
        | ok u =>
          dsimp only at h
          rw [hu] at h
          obtain rfl := Except.ok.inj h
          exact ⟨rfl, Cell.instant_eq_ok_iff.1 hd, .some (Cell.instant_eq_ok_iff.1 hu)⟩
  · rintro ⟨rfl, hd, hu⟩
    have hdiscovered : discovered.instant "discovered_at" false = .ok i.discoveredAt := Cell.instant_eq_ok_iff.2 hd
    obtain ⟨id, discoveredAt, uploadedAt⟩ := i
    unfold item
    dsimp only at hdiscovered ⊢
    rw [hdiscovered]
    cases hu with
    | none => rfl
    | @some c u hu =>
      have huploaded : c.instant "uploaded_at" true = .ok u := Cell.instant_eq_ok_iff.2 hu
      dsimp only
      rw [huploaded]
      rfl

/-- A row that is marked at a date can be read. -/
theorem Says.marked (h : r.Says i) {time : Instant} (ht : time.IsDate) : ∃ j, (r.marked time).Says j := by
  have hgreater : ∃ u, (time.cell.greater r.discoveredAt).Shows u := by
    unfold Cell.greater
    split
    · exact ⟨_, ht.shows⟩
    · exact ⟨_, h.discoveredAt⟩
  obtain ⟨u, hu⟩ := hgreater
  exact ⟨{ i with uploadedAt := some u }, h.id, h.discoveredAt, .some hu⟩

end ItemRow

/-- The time that the statement writes is a date. -/
def ItemStatement.IsDated : ItemStatement → Prop
  | insertIfAbsent _ time | mark _ time => time.IsDate
  | listPending | «exists» _ | find _ | count => True

/-- Statements with dates keep a table whose rows can all be read. -/
theorem ItemTable.says_run {t : ItemTable} {st : ItemStatement} (hst : st.IsDated) (h : ∀ r ∈ t, ∃ i, r.Says i) :
    ∀ r ∈ (st.run t).2, ∃ i, r.Says i := by
  cases st with
  | insertIfAbsent id time =>
    show ∀ r ∈ (if t.any (·.id == id) then (false, t) else (true, t ++ [⟨id, time.cell, none⟩])).2, ∃ i, r.Says i
    split
    · exact h
    · intro r hr
      rcases List.mem_append.1 hr with hr | hr
      · exact h r hr
      · obtain rfl := List.mem_singleton.1 hr
        have hshows : time.cell.Shows time.floor := Instant.IsDate.shows hst
        exact ⟨⟨id, time.floor, none⟩, rfl, hshows, .none⟩
  | mark id time =>
    intro r hr
    obtain ⟨q, hq, rfl⟩ := List.mem_map.1 hr
    obtain ⟨i, hi⟩ := h q hq
    split
    · exact hi.marked hst
    · exact ⟨i, hi⟩
  | listPending => exact h
  | «exists» id => exact h
  | find id => exact h
  | count => exact h

end MediaBackup
