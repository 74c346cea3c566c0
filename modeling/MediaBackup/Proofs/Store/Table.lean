import MediaBackup.Proofs.Store.Reading
import MediaBackup.Proofs.Store.Rows

/-
  What a statement does to the row of one key.

  A table is KEYED if no two rows have one key.  On such a table a statement acts on every key by itself:
  `JobStatement.effect s key` says what it makes of the row of `key`, and the crux `row?_run` that running
  the statement makes just that of it.  So a history of the whole table is, for one key, a history of one
  row.  `isSound_run` adds that a table whose rows can be read stays one under proper statements.
-/

namespace MediaBackup

namespace JobTable

/-- No two rows have one key. -/
def Keyed (t : JobTable) : Prop := Rows.Keyed JobRow.key t

variable {t : JobTable} {key : String}

theorem keyed_nil : Keyed [] := Rows.keyed_nil

theorem key_of_row? {r : JobRow} (h : row? t key = some r) : r.key = key := Rows.name_of_row? h

theorem mem_of_row? {r : JobRow} (h : row? t key = some r) : r ∈ t := Rows.mem_of_row? h

/-- In a keyed table every row is the row of its key. -/
theorem row?_of_mem (h : Keyed t) {r : JobRow} (hr : r ∈ t) : row? t r.key = some r := Rows.row?_of_mem h hr

theorem any_key_eq (t : JobTable) (key : String) : t.any (·.key == key) = (row? t key).isSome :=
  Rows.any_name_eq t key

theorem row?_mapWhere (t : JobTable) (key : String) {p : JobRow → Bool} {f : JobRow → JobRow}
    (hf : ∀ r, p r = true → (f r).key = r.key) :
    row? (mapWhere t p f) key = (row? t key).map fun r => if p r then f r else r :=
      Rows.row?_map_ite t key hf

theorem keyed_mapWhere (h : Keyed t) {p : JobRow → Bool} {f : JobRow → JobRow}
    (hf : ∀ r, p r = true → (f r).key = r.key) : Keyed (mapWhere t p f) := Rows.keyed_map_ite h hf

/-- The rows that are selected have different keys in whatever order. -/
theorem keyed_sorted (h : Keyed t) (p : JobRow → Bool) (before : JobRow → JobRow → Bool) :
    Keyed ((t.filter p).mergeSort before) :=
  ((List.mergeSort_perm (t.filter p) before).map JobRow.key).nodup_iff.2 (Rows.keyed_filter h p)

theorem forall_mem_mapWhere {q : JobRow → Prop} (h : ∀ r ∈ t, q r) {p : JobRow → Bool}
    {f : JobRow → JobRow} (hf : ∀ r, q r → p r = true → q (f r)) : ∀ r ∈ mapWhere t p f, q r := by
  intro r hr
  unfold mapWhere at hr
  obtain ⟨s, hs, rfl⟩ := List.mem_map.1 hr
  split
  · rename_i hp
    exact hf s (h s hs) hp
  · exact h s hs

end JobTable

/-! ## The effect of a statement on one key -/

/-- What a statement makes of the row of `key`, if there is one, or of its absence. -/
def JobStatement.effect (key : String) : JobStatement → Option JobRow → Option JobRow
  | insertIfAbsent job, o => o.or (if job.key.text = key then some (JobRow.ofJob job) else none)
  | replaceIf job observed, o =>
    o.map fun r => if r.isObserved { observed with key := job.key } then JobRow.ofJob job else r
  | updateIf observed change, o => o.map fun r => if r.isCurrent observed then r.apply change else r
  | quarantine k reason now, o => o.map fun r => if r.key == k then r.quarantined reason now else r
  | promote now, o => o.map fun r => if r.isPromotable now then r.promoted now else r
  | resetRunning now, o => o.map fun r => if r.state == "running" then r.reset now else r
  | deleteTerminal limit, o => o.filter fun r => !r.isPrunable limit
  | find _, o | listDue _, o | count _, o => o

/-- The key whose row a statement writes, if it is about one key. -/
def JobStatement.target? : JobStatement → Option String
  | insertIfAbsent job | replaceIf job _ => some job.key.text
  | updateIf observed _ => some observed.key.text
  | quarantine key _ _ => some key
  | _ => none

namespace JobRow

theorem key_of_isObserved {r : JobRow} {j : Job} (h : r.isObserved j = true) : r.key = j.key.text := by
  simp only [isObserved, Bool.and_eq_true] at h
  exact eq_of_beq h.1.1.1

theorem key_of_isCurrent {r : JobRow} {j : Job} (h : r.isCurrent j = true) : r.key = j.key.text := by
  simp only [isCurrent, Bool.and_eq_true] at h
  exact eq_of_beq h.1.1

/-- A row is current for a copy exactly if key, state and count of attempts are those of the copy. -/
theorem isCurrent_iff {r : JobRow} {j : Job} :
    r.isCurrent j = true ↔ r.key = j.key.text ∧ r.state = j.state.name ∧ r.attempt = .int j.attempt := by
  simp only [isCurrent, Bool.and_eq_true, beq_iff_eq, and_assoc]

/-- A row is the observed one exactly if also its reason is that of the copy. -/
theorem isObserved_iff {r : JobRow} {j : Job} :
    r.isObserved j = true ↔ r.key = j.key.text ∧ r.state = j.state.name ∧ r.attempt = .int j.attempt ∧
      r.abandonReason = j.abandonReason.map AbandonReason.name := by
  simp only [isObserved, Bool.and_eq_true, beq_iff_eq, and_assoc]

/-- A row is the observed one for the copy that was read from it. -/
theorem Says.isObserved {r : JobRow} {j : Job} (h : r.Says j) : r.isObserved j = true :=
  isObserved_iff.2 ⟨h.key, h.state, h.attempt, h.abandonReason⟩

theorem Says.isCurrent {r : JobRow} {j : Job} (h : r.Says j) : r.isCurrent j = true :=
  isCurrent_iff.2 ⟨h.key, h.state, h.attempt⟩

/-- A row can be promoted if it waits for another attempt and is due. -/
theorem isPromotable_iff {r : JobRow} {now : Instant} :
    r.isPromotable now = true ↔ r.state = "retrying" ∧ r.nextRunAt.le now.cell = true := by
  simp only [isPromotable, Bool.and_eq_true, beq_iff_eq]

/-- Only the row of a job that is over can be pruned. -/
theorem isOver_of_isPrunable {r : JobRow} {limit : Instant} (h : r.isPrunable limit = true) :
    r.state = "succeeded" ∨ r.state = "abandoned" := by
  simp only [isPrunable, Bool.and_eq_true, Bool.or_eq_true, beq_iff_eq] at h
  rcases h.2 with hs | ⟨hs, _⟩
  · exact .inl hs
  · exact .inr hs

end JobRow

namespace JobTable

/-- Running a statement makes of the row of a key what the effect on that key says. -/
theorem row?_run {t : JobTable} (h : Keyed t) (s : JobStatement) (key : String) :
    row? (s.run t).2 key = s.effect key (row? t key) := by
  cases s with
  | insertIfAbsent job =>
    show row?
      (if t.any (·.key == job.key.text) then (false, t) else (true, t ++ [JobRow.ofJob job])).2 key =
      (row? t key).or (if job.key.text = key then some (JobRow.ofJob job) else none)
    by_cases ha : t.any (·.key == job.key.text) = true
    · rw [if_pos ha]
      rw [any_key_eq, Option.isSome_iff_exists] at ha
      obtain ⟨r, hr⟩ := ha
      by_cases hk : job.key.text = key
      · rw [if_pos hk, ← hk, hr, Option.some_or]
      · rw [if_neg hk, Option.or_none]
    · rw [if_neg ha]
      exact Rows.row?_append_single t (JobRow.ofJob job) key
  | replaceIf job observed =>
    exact row?_mapWhere t key fun r hr => (JobRow.key_of_isObserved hr).symm
  | updateIf observed change => exact row?_mapWhere t key fun r _ => rfl
  | quarantine k reason now => exact row?_mapWhere t key fun r _ => rfl
  | promote now => exact row?_mapWhere t key fun r _ => rfl
  | resetRunning now => exact row?_mapWhere t key fun r _ => rfl
  | deleteTerminal limit => exact Rows.row?_filter h _ key
  | find _ => rfl
  | listDue _ => rfl
  | count _ => rfl

/-- A statement about one key leaves the rows of all others. -/
theorem row?_run_of_target {t : JobTable} (h : t.Keyed) {st : JobStatement} {key other : String}
    (hst : st.target? = some key) (hne : other ≠ key) : (st.run t).2.row? other = t.row? other := by
  have hother : ∀ r, t.row? other = some r → r.key ≠ key := fun r hr => key_of_row? hr ▸ hne
  rw [row?_run h]
  cases st with
  | insertIfAbsent job =>
    obtain rfl := Option.some.inj hst
    show (t.row? other).or (if job.key.text = other then _ else none) = _
    rw [if_neg hne.symm, Option.or_none]
  | replaceIf job observed =>
    obtain rfl := Option.some.inj hst
    cases hr : t.row? other with
    | none => rfl
    | some r =>
      refine congrArg some (if_neg fun ho => hother r hr ?_)
      exact JobRow.key_of_isObserved (j := { observed with key := job.key }) ho
  | updateIf observed change =>
    obtain rfl := Option.some.inj hst
    cases hr : t.row? other with
    | none => rfl
    | some r => exact congrArg some (if_neg fun hc => hother r hr (JobRow.key_of_isCurrent hc))
  | quarantine k words now =>
    obtain rfl := Option.some.inj hst
    cases hr : t.row? other with
    | none => rfl
    | some r => exact congrArg some (if_neg fun hk => hother r hr (eq_of_beq hk))
  | _ => exact nomatch hst

/-- Statements keep a table keyed. -/
theorem keyed_run {t : JobTable} (h : Keyed t) (s : JobStatement) : Keyed (s.run t).2 := by
  cases s with
  | insertIfAbsent job =>
    show Keyed (if t.any (·.key == job.key.text) then (false, t) else (true, t ++ [JobRow.ofJob job])).2
    by_cases ha : t.any (·.key == job.key.text) = true
    · rw [if_pos ha]
      exact h
    · rw [if_neg ha]
      rw [any_key_eq, Option.isSome_iff_ne_none, Classical.not_not] at ha
      exact Rows.keyed_append_single h ha
  | replaceIf job observed => exact keyed_mapWhere h fun r hr => (JobRow.key_of_isObserved hr).symm
  | updateIf observed change => exact keyed_mapWhere h fun r _ => rfl
  | quarantine k reason now => exact keyed_mapWhere h fun r _ => rfl
  | promote now => exact keyed_mapWhere h fun r _ => rfl
  | resetRunning now => exact keyed_mapWhere h fun r _ => rfl
  | deleteTerminal limit => exact Rows.keyed_filter h _
  | find _ => exact h
  | listDue _ => exact h
  | count _ => exact h

/-! ## What the writing statements answer -/

theorem answer_insertIfAbsent (t : JobTable) (job : Job) :
    ((JobStatement.insertIfAbsent job).run t).1 = (row? t job.key.text).isNone := by
  show (if t.any (·.key == job.key.text) then (false, t) else (true, t ++ [JobRow.ofJob job])).1 = _
  rw [any_key_eq]
  cases row? t job.key.text <;> rfl

theorem answer_replaceIf {t : JobTable} (h : Keyed t) (job observed : Job) :
    ((JobStatement.replaceIf job observed).run t).1 =
      (row? t job.key.text).any (·.isObserved { observed with key := job.key }) := by
  have hp : (fun r : JobRow => r.key == job.key.text && r.isObserved { observed with key := job.key }) =
      (·.isObserved { observed with key := job.key }) := by
    funext r
    cases hr : r.isObserved { observed with key := job.key } with
    | true =>
      have hk : r.key = job.key.text := JobRow.key_of_isObserved (j := { observed with key := job.key }) hr
      rw [Bool.and_true, hk, beq_self_eq_true]
    | false => exact Bool.and_false _
  show t.any (fun r => r.key == job.key.text && r.isObserved { observed with key := job.key }) = _
  rw [hp]
  exact Rows.any_eq h _ fun r hr => JobRow.key_of_isObserved (j := { observed with key := job.key }) hr

/-- A row that is as it was observed is replaced. -/
theorem answer_replaceIf_of_isObserved {t : JobTable} (h : Keyed t) {job observed : Job} {r : JobRow}
    (hk : observed.key = job.key) (hr : row? t job.key.text = some r) (ho : r.isObserved observed = true) :
    ((JobStatement.replaceIf job observed).run t).1 = true := by
  rw [answer_replaceIf h, hr, Option.any_some, ← hk]
  exact ho

theorem answer_updateIf {t : JobTable} (h : Keyed t) (observed : Job) (change : Change) :
    ((JobStatement.updateIf observed change).run t).1 = (row? t observed.key.text).any
    (·.isCurrent observed) :=
  Rows.any_eq h _ fun _ hr => JobRow.key_of_isCurrent hr

/-- An update of a copy whose row is not in the table changes nothing and says so. -/
theorem run_updateIf_of_not_isCurrent {t : JobTable} (h : Keyed t) {j : Job}
    (hrow : ∀ row, row? t j.key.text = some row → row.isCurrent j = false) (change : Change) :
    (JobStatement.updateIf j change).run t = (false, t) := by
  have hnone : ∀ row ∈ t, row.isCurrent j = false := by
    intro row hmem
    refine eq_false_of_ne_true fun hcurrent => ?_
    have hfound := row?_of_mem h hmem
    rw [JobRow.key_of_isCurrent hcurrent] at hfound
    rw [hrow row hfound] at hcurrent
    exact nomatch hcurrent
  have hanswer : t.any (·.isCurrent j) = false :=
    List.any_eq_false.2 fun row hmem => ne_true_of_eq_false (hnone row hmem)
  have htable : mapWhere t (·.isCurrent j) (·.apply change) = t := by
    unfold mapWhere
    refine (List.map_congr_left fun row hmem => ?_).trans (List.map_id t)
    simp [hnone row hmem]
  show (t.any (·.isCurrent j), mapWhere t (·.isCurrent j) (·.apply change)) = _
  rw [hanswer, htable]

/-! ## Sound tables -/

/-- No two rows have one key, and every row can be read, its key apart. -/
structure IsSound (t : JobTable) : Prop where
  keyed : Keyed t
  readable : ∀ r ∈ t, r.IsReadable

theorem isSound_nil : IsSound [] := ⟨keyed_nil, fun _ h => absurd h List.not_mem_nil⟩

end JobTable

/-- What the statement writes can be read. -/
def JobStatement.IsProper : JobStatement → Prop
  | insertIfAbsent job => job.IsProper
  | replaceIf job _ => job.IsProper
  | updateIf _ change => change.IsProper
  | quarantine _ _ now => now.IsDate
  | promote now => now.IsDate
  | resetRunning now => now.IsDate
  | find _ | listDue _ | count _ | deleteTerminal _ => True

/-- Proper statements keep a table sound. -/
theorem JobTable.isSound_run {t : JobTable} (h : IsSound t) {s : JobStatement} (hs : s.IsProper) :
    IsSound (s.run t).2 := by
  refine ⟨keyed_run h.keyed s, ?_⟩
  cases s with
  | insertIfAbsent job =>
    show ∀ r ∈ (if t.any (·.key == job.key.text) then (false, t) else
      (true, t ++ [JobRow.ofJob job])).2, r.IsReadable
    split
    · exact h.readable
    · intro r hr
      rcases List.mem_append.1 hr with hr | hr
      · exact h.readable r hr
      · rw [List.mem_singleton.1 hr]
        exact JobRow.ofJob_isReadable hs
  | replaceIf job observed => exact forall_mem_mapWhere h.readable fun r _ _ => JobRow.ofJob_isReadable hs
  | updateIf observed change => exact forall_mem_mapWhere h.readable fun r hr _ => hr.apply hs
  | quarantine k reason now =>
    exact forall_mem_mapWhere h.readable fun r _ _ => JobRow.quarantined_isReadable r reason hs
  | promote now => exact forall_mem_mapWhere h.readable fun r hr _ => hr.promoted hs
  | resetRunning now => exact forall_mem_mapWhere h.readable fun r hr _ => hr.reset hs
  | deleteTerminal limit => exact fun r hr => h.readable r (List.mem_filter.1 hr).1
  | find _ => exact h.readable
  | listDue _ => exact h.readable
  | count _ => exact h.readable

/-- In a sound table the row of a proper key holds a job of that key. -/
theorem JobTable.IsSound.exists_job {t : JobTable} (h : IsSound t) {k : JobKey} (hp : k.IsProper)
    {r : JobRow}
    (hr : row? t k.text = some r) : ∃ j, r.Says j ∧ j.key = k :=
  (h.readable r (mem_of_row? hr)).exists_job (key_of_row? hr) hp

end MediaBackup
