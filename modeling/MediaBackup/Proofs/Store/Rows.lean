/-
  Rows that are found by a name.

  Both tables are lists of rows with a name, the key of a job or the id of an item, and no two rows have one
  name.  What finding a row by its name comes to is said here once for both: after rows were changed in place,
  after a row was added and after rows were deleted.
-/

namespace MediaBackup.Rows

variable {ρ : Type} {name : ρ → String}

/-- No two rows have one name. -/
def Keyed (name : ρ → String) (t : List ρ) : Prop := (t.map name).Nodup

/-- The row of a name. -/
def row? (name : ρ → String) (t : List ρ) (key : String) : Option ρ := t.find? fun r => name r == key

variable {t : List ρ} {key : String} {r : ρ}

theorem keyed_nil : Keyed name [] := List.nodup_nil

theorem keyed_cons : Keyed name (r :: t) ↔ (∀ q ∈ t, name q ≠ name r) ∧ Keyed name t := by
  unfold Keyed
  rw [List.map_cons, List.nodup_cons, List.mem_map]
  constructor
  · rintro ⟨hr, ht⟩
    exact ⟨fun q hq e => hr ⟨q, hq, e⟩, ht⟩
  · rintro ⟨hr, ht⟩
    exact ⟨fun ⟨q, hq, e⟩ => hr q hq e, ht⟩

theorem row?_cons (r : ρ) (t : List ρ) (key : String) :
    row? name (r :: t) key = if name r = key then some r else row? name t key := by
  unfold row?
  rw [List.find?_cons]
  by_cases h : name r = key
  · rw [if_pos h, beq_iff_eq.2 h]
  · rw [if_neg h, beq_eq_false_iff_ne.2 h]

theorem name_of_row? (h : row? name t key = some r) : name r = key :=
  eq_of_beq (List.find?_some (p := fun q : ρ => name q == key) h)

theorem mem_of_row? (h : row? name t key = some r) : r ∈ t := List.mem_of_find?_eq_some h

theorem row?_eq_none_iff : row? name t key = none ↔ ∀ r ∈ t, name r ≠ key := by
  unfold row?
  rw [List.find?_eq_none]
  constructor
  · intro h r hr e
    exact h r hr (beq_iff_eq.2 e)
  · intro h r hr e
    exact h r hr (eq_of_beq e)

/-- Where no two rows have one name, every row is the row of its name. -/
theorem row?_of_mem (h : Keyed name t) (hr : r ∈ t) : row? name t (name r) = some r := by
  induction t with
  | nil => exact absurd hr List.not_mem_nil
  | cons q t ih =>
    obtain ⟨hq, ht⟩ := keyed_cons.1 h
    rw [row?_cons]
    rcases List.mem_cons.1 hr with rfl | hr
    · rw [if_pos rfl]
    · rw [if_neg (hq r hr).symm]
      exact ih ht hr

/-- Whether some row of a name satisfies `p` is decided by the row of that name. -/
theorem any_eq (h : Keyed name t) (key : String) {p : ρ → Bool} (hp : ∀ r, p r = true → name r = key) :
    t.any p = (row? name t key).any p := by
  rw [Bool.eq_iff_iff, List.any_eq_true, Option.any_eq_true]
  constructor
  · rintro ⟨r, hr, hpr⟩
    exact ⟨r, hp r hpr ▸ row?_of_mem h hr, hpr⟩
  · rintro ⟨r, hr, hpr⟩
    exact ⟨r, mem_of_row? hr, hpr⟩

theorem any_name_eq (t : List ρ) (key : String) :
    (t.any fun r => name r == key) = (row? name t key).isSome := by
  unfold row?
  rw [Bool.eq_iff_iff, List.any_eq_true, List.find?_isSome]

/-! ## Changing rows in place -/

theorem name_ite {p : ρ → Bool} {f : ρ → ρ} (hf : ∀ r, p r = true → name (f r) = name r) (r : ρ) :
    name (if p r then f r else r) = name r := by
  split
  · rename_i h
    exact hf r h
  · rfl

theorem row?_map_ite (t : List ρ) (key : String) {p : ρ → Bool} {f : ρ → ρ}
    (hf : ∀ r, p r = true → name (f r) = name r) :
    row? name (t.map fun r => if p r then f r else r) key = (row? name t key).map fun r =>
      if p r then f r else r := by
  induction t with
  | nil => rfl
  | cons q t ih =>
    rw [List.map_cons, row?_cons, row?_cons, name_ite hf, ih]
    split <;> rfl

theorem keyed_map_ite (h : Keyed name t) {p : ρ → Bool} {f : ρ → ρ}
    (hf : ∀ r, p r = true → name (f r) = name r) :
    Keyed name (t.map fun r => if p r then f r else r) := by
  have hmap : (t.map fun r => if p r then f r else r).map name = t.map name := by
    rw [List.map_map]
    exact List.map_congr_left fun r _ => name_ite hf r
  unfold Keyed
  rw [hmap]
  exact h

/-! ## Adding and deleting rows -/

theorem row?_append_single (t : List ρ) (r : ρ) (key : String) :
    row? name (t ++ [r]) key = (row? name t key).or (if name r = key then some r else none) := by
  unfold row?
  rw [List.find?_append, List.find?_cons, List.find?_nil]
  by_cases h : name r = key
  · rw [if_pos h, beq_iff_eq.2 h]
  · rw [if_neg h, beq_eq_false_iff_ne.2 h]

theorem keyed_append_single (h : Keyed name t) (hr : row? name t (name r) = none) :
    Keyed name (t ++ [r]) := by
  unfold Keyed
  rw [List.map_append, List.map_singleton, List.nodup_append]
  refine ⟨h, List.pairwise_singleton _ _, ?_⟩
  intro a ha b hb e
  obtain ⟨q, hq, rfl⟩ := List.mem_map.1 ha
  rw [List.mem_singleton.1 hb] at e
  exact row?_eq_none_iff.1 hr q hq e

theorem keyed_filter (h : Keyed name t) (p : ρ → Bool) : Keyed name (t.filter p) :=
  List.Nodup.sublist (List.Sublist.map _ List.filter_sublist) h

theorem row?_filter (h : Keyed name t) (p : ρ → Bool) (key : String) :
    row? name (t.filter p) key = (row? name t key).filter p := by
  induction t with
  | nil => rfl
  | cons q t ih =>
    obtain ⟨hq, ht⟩ := keyed_cons.1 h
    rw [row?_cons, List.filter_cons]
    by_cases hk : name q = key
    · rw [if_pos hk]
      by_cases hp : p q = true
      · rw [if_pos hp, row?_cons, if_pos hk, Option.filter_some_pos hp]
      · have hnone : row? name t key = none := row?_eq_none_iff.2 fun r hr => hk ▸ hq r hr
        rw [if_neg hp, ih ht, hnone, Option.filter_some_neg (eq_false_of_ne_true hp), Option.filter_none]
    · rw [if_neg hk]
      by_cases hp : p q = true
      · rw [if_pos hp, row?_cons, if_neg hk, ih ht]
      · rw [if_neg hp, ih ht]

end MediaBackup.Rows
