import MediaBackup.Proofs.Store.Rows
import MediaBackup.Store.Items

/-
  What a statement does to the row of one item.

  As for the table of jobs, `ItemStatement.effect` says what a statement makes of the row of one id.  Rows are
  never deleted and a time of acknowledgement is never taken back, so an item that is known stays known and
  one that is uploaded stays uploaded.
-/

namespace MediaBackup

/-- An item that is read from a row has its id. -/
theorem ItemRow.id_of_item {r : ItemRow} {i : Item} (h : r.item = .ok i) : i.id = r.id := by
  unfold ItemRow.item at h
  cases hd : r.discoveredAt.instant "discovered_at" false with
  | error fault =>
    rw [hd] at h
    exact nomatch h
  | ok discovered =>
    rw [hd] at h
    cases hu : r.uploadedAt with
    | none =>
      rw [hu] at h
      exact Except.ok.inj h ▸ rfl
    | some c =>
      rw [hu] at h
      cases hc : c.instant "uploaded_at" true with
      | error fault =>
        dsimp only at h
        rw [hc] at h
        exact nomatch h
      | ok uploaded =>
        dsimp only at h
        rw [hc] at h
        exact Except.ok.inj h ▸ rfl

/-- What a statement makes of the row of `id`, if there is one, or of its absence. -/
def ItemStatement.effect (id : String) : ItemStatement → Option ItemRow → Option ItemRow
  | insertIfAbsent key seen, o => o.or (if key = id then some ⟨key, seen.cell, none⟩ else none)
  | mark key time, o => o.map fun r => if r.isMarkable key then r.marked time else r
  | listPending, o | «exists» _, o | find _, o | count, o => o

namespace ItemTable

/-- No two rows have one id. -/
def Keyed (t : ItemTable) : Prop := Rows.Keyed ItemRow.id t

/-- The item has a row. -/
def Knows (t : ItemTable) (id : String) : Prop := ∃ r, t.row? id = some r

/-- The item has a row with a time of acknowledgement. -/
def Uploaded (t : ItemTable) (id : String) : Prop := ∃ r, t.row? id = some r ∧ r.uploadedAt.isSome = true

variable {t : ItemTable} {id : String}

theorem keyed_nil : Keyed [] := Rows.keyed_nil

theorem id_of_row? {r : ItemRow} (h : row? t id = some r) : r.id = id := Rows.name_of_row? h

theorem mem_of_row? {r : ItemRow} (h : row? t id = some r) : r ∈ t := Rows.mem_of_row? h

/-- In a keyed table every row is the row of its id. -/
theorem row?_of_mem (h : Keyed t) {r : ItemRow} (hr : r ∈ t) : row? t r.id = some r := Rows.row?_of_mem h hr

/-- Running a statement makes of the row of an id what the effect on that id says. -/
theorem row?_run (t : ItemTable) (s : ItemStatement) (id : String) :
    row? (s.run t).2 id = s.effect id (row? t id) := by
  cases s with
  | insertIfAbsent key seen =>
    show row? (if t.any (·.id == key) then (false, t) else (true, t ++ [⟨key, seen.cell, none⟩])).2 id =
      (row? t id).or (if key = id then some ⟨key, seen.cell, none⟩ else none)
    by_cases ha : t.any (·.id == key) = true
    · rw [if_pos ha]
      rw [Rows.any_name_eq t key, Option.isSome_iff_exists] at ha
      obtain ⟨r, hr⟩ := ha
      by_cases hk : key = id
      · replace hr : row? t id = some r := hk ▸ hr
        rw [hr, Option.some_or]
      · rw [if_neg hk, Option.or_none]
    · rw [if_neg ha]
      exact Rows.row?_append_single t ⟨key, seen.cell, none⟩ id
  | mark key time => exact Rows.row?_map_ite t id fun _ _ => rfl
  | listPending => rfl
  | «exists» _ => rfl
  | find _ => rfl
  | count => rfl

/-- Statements keep a table keyed. -/
theorem keyed_run (h : Keyed t) (s : ItemStatement) : Keyed (s.run t).2 := by
  cases s with
  | insertIfAbsent key seen =>
    show Keyed (if t.any (·.id == key) then (false, t) else (true, t ++ [⟨key, seen.cell, none⟩])).2
    by_cases ha : t.any (·.id == key) = true
    · rw [if_pos ha]
      exact h
    · rw [if_neg ha]
      rw [Rows.any_name_eq t key, Option.isSome_iff_ne_none, Classical.not_not] at ha
      exact Rows.keyed_append_single h ha
  | mark key time => exact Rows.keyed_map_ite h fun _ _ => rfl
  | listPending => exact h
  | «exists» _ => exact h
  | find _ => exact h
  | count => exact h

/-- What is known stays known. -/
theorem Knows.run (h : Knows t id) (s : ItemStatement) : Knows (s.run t).2 id := by
  obtain ⟨r, hr⟩ := h
  unfold Knows
  rw [row?_run, hr]
  cases s with
  | insertIfAbsent key seen => exact ⟨r, rfl⟩
  | mark key time => exact ⟨_, rfl⟩
  | listPending => exact ⟨r, rfl⟩
  | «exists» _ => exact ⟨r, rfl⟩
  | find _ => exact ⟨r, rfl⟩
  | count => exact ⟨r, rfl⟩

/-- What is uploaded stays uploaded. -/
theorem Uploaded.run (h : Uploaded t id) (s : ItemStatement) : Uploaded (s.run t).2 id := by
  obtain ⟨r, hr, hu⟩ := h
  unfold Uploaded
  rw [row?_run, hr]
  cases s with
  | insertIfAbsent key seen => exact ⟨r, rfl, hu⟩
  | mark key time =>
    refine ⟨_, rfl, ?_⟩
    dsimp only
    split
    · rfl
    · exact hu
  | listPending => exact ⟨r, rfl, hu⟩
  | «exists» _ => exact ⟨r, rfl, hu⟩
  | find _ => exact ⟨r, rfl, hu⟩
  | count => exact ⟨r, rfl, hu⟩

/-- Only its mark makes an item uploaded. -/
theorem uploaded_of_run {s : ItemStatement} (h : Uploaded (s.run t).2 id) :
    Uploaded t id ∨ ∃ time, s = .mark id time := by
  obtain ⟨r, hr, hu⟩ := h
  rw [row?_run] at hr
  cases s with
  | insertIfAbsent key seen =>
    rcases Option.or_eq_some_iff.1 hr with hr | ⟨_, hr⟩
    · exact .inl ⟨r, hr, hu⟩
    · split at hr
      · obtain rfl := Option.some.inj hr
        exact nomatch hu
      · exact nomatch hr
  | mark key time =>
    obtain ⟨q, hq, rfl⟩ := Option.map_eq_some_iff.1 hr
    by_cases hm : q.isMarkable key = true
    · refine .inr ⟨time, ?_⟩
      unfold ItemRow.isMarkable at hm
      rw [Bool.and_eq_true, beq_iff_eq] at hm
      rw [← hm.1, id_of_row? hq]
    · rw [if_neg hm] at hu
      exact .inl ⟨q, hq, hu⟩
  | listPending => exact .inl ⟨r, hr, hu⟩
  | «exists» _ => exact .inl ⟨r, hr, hu⟩
  | find _ => exact .inl ⟨r, hr, hu⟩
  | count => exact .inl ⟨r, hr, hu⟩

/-- A known item is uploaded once it is marked. -/
theorem uploaded_run_mark (h : Knows t id) (time : Instant) :
    Uploaded ((ItemStatement.mark id time).run t).2 id := by
  obtain ⟨r, hr⟩ := h
  unfold Uploaded
  rw [row?_run, hr]
  refine ⟨_, rfl, ?_⟩
  dsimp only
  split
  · rfl
  · rename_i hm
    unfold ItemRow.isMarkable at hm
    rw [id_of_row? hr, beq_self_eq_true, Bool.true_and] at hm
    cases hu : r.uploadedAt with
    | none =>
      rw [hu] at hm
      exact absurd rfl hm
    | some c => rfl

end ItemTable

end MediaBackup
