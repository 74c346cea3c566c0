import MediaBackup.Proofs.Workers.Conduct

/-
  What one call makes of the row of one key.

  A call of an operation leaves the row of a key as it is, or it makes one of eight MOVES (`Move`): each says which
  operation ran which statement, how the row looked before and what became of it.  That these are all is
  `Regular.moves`, and it is the only place where the statements are looked at one by one; an invariant of a row is
  then kept by eight small steps.  A statement that writes a fresh job RENEWS the row; all other moves go on with the
  job that is there.

  In the other direction an answered update tells about the row that it met: `Regular.granted` and
  `Regular.refused`.  What every call keeps of the table, the acts after some time keep (`kept_of_acts`).
-/

namespace MediaBackup.Workers

/-- A statement of an operation makes of the row of a key, or of its absence, what is said here.  `acts` are the acts
    of the operation so far. -/
inductive Move (rules : RetryRules) (acts : List Act) (key : String) :
    Operation → JobStatement → Option JobRow → Option JobRow → Prop where
  | inserted {r : JobRequest} {now : Instant} (hkey : r.key.text = key) (hnow : Shown acts now) :
    Move rules acts key (.enqueue r) (.insertIfAbsent (.fresh r now)) none (some (.ofJob (.fresh r now)))
  | replaced {r : JobRequest} {now : Instant} {observed : Job} {row : JobRow} (hkey : r.key.text = key)
      (hnow : Shown acts now) (hobserved : observed.isReplaceable = true) (hrow : row.isObserved observed = true) :
    Move rules acts key (.enqueue r) (.replaceIf (.fresh r now) observed) (some row) (some (.ofJob (.fresh r now)))
  | quarantined {op : Operation} {words : String} {now : Instant} {row : JobRow} (howns : Overwrites key words acts)
      (hnow : Shown acts now) :
    Move rules acts key op (.quarantine key words now) (some row) (some (row.quarantined words now))
  | claimed {j : Job} {now : Instant} {row : JobRow} (hkey : j.key.text = key) (hq : j.state = .queued)
      (hnow : Shown acts now) (hrow : row.isCurrent j = true) :
    Move rules acts key (.claim j) (.updateIf j (j.claimChange now)) (some row) (some (row.apply (j.claimChange now)))
  | completed {c : Job} {o : Outcome} {now : Instant} {row : JobRow} (hkey : c.key.text = key)
      (hrun : c.state = .running) (hnow : Shown acts now) (hrow : row.isCurrent c = true) :
    Move rules acts key (.complete c o) (.updateIf c (completeChange rules c o now)) (some row)
      (some (row.apply (completeChange rules c o now)))
  | promoted {now : Instant} {row : JobRow} (hnow : Shown acts now) (hrow : row.isPromotable now = true) :
    Move rules acts key .promote (.promote now) (some row) (some (row.promoted now))
  | reset {now : Instant} {row : JobRow} (hnow : Shown acts now) (hrow : row.state = "running") :
    Move rules acts key .recover (.resetRunning now) (some row) (some (row.reset now))
  | deleted {retention : Duration} {now : Instant} {row : JobRow} (hnow : Shown acts now)
      (hrow : row.isPrunable (now.before retention) = true) :
    Move rules acts key (.prune retention) (.deleteTerminal (now.before retention)) (some row) none

/-- The statement writes a fresh job. -/
def renews : JobStatement → Bool
  | .insertIfAbsent _ | .replaceIf _ _ => true
  | _ => false

/-- The act wrote a fresh job under a key. -/
def Act.Renews (key : String) : Act → Prop
  | .called _ _ (.jobs (.insertIfAbsent _)) _ before after => before.row? key ≠ after.row? key
  | .called _ _ (.jobs (.replaceIf _ _)) _ before after => before.row? key ≠ after.row? key
  | _ => False

variable {rules : RetryRules} {acts : List Act} {key : String} {op : Operation}

/-- What changes the row if it passes a test leaves it, or it met a row that passed the test. -/
theorem eq_or_of_map_ite {o e : Option JobRow} {p : JobRow → Bool} {f : JobRow → JobRow}
    (he : e = o.map fun r => if p r then f r else r) :
    e = o ∨ ∃ row, o = some row ∧ p row = true ∧ e = some (f row) := by
  cases o with
  | none => exact .inl he
  | some row =>
    by_cases hp : p row = true
    · exact .inr ⟨row, rfl, hp, he.trans (congrArg some (if_pos hp))⟩
    · exact .inl (he.trans (congrArg some (if_neg hp)))

/-- What an operation may run leaves the row of a key, or it is a move of it. -/
theorem Operation.MayDo.moves {s : JobStatement} (h : op.MayDo rules acts s) {o : Option JobRow}
    (hkey : ∀ row, o = some row → row.key = key) :
    s.effect key o = o ∨ Move rules acts key op s o (s.effect key o) := by
  obtain ⟨e, he⟩ : ∃ e, e = s.effect key o := ⟨_, rfl⟩
  rw [← he]
  cases s with
  | insertIfAbsent job =>
    cases op with
    | enqueue r =>
      obtain ⟨now, hnow, rfl⟩ := h
      cases o with
      | some row => exact .inl he
      | none =>
        by_cases hk : r.key.text = key
        · obtain rfl : e = some (.ofJob (.fresh r now)) := he.trans (if_pos hk)
          exact .inr (.inserted hk hnow)
        · exact .inl (he.trans (if_neg hk))
    | _ => exact h.elim
  | replaceIf job observed =>
    cases op with
    | enqueue r =>
      obtain ⟨⟨now, hnow, rfl⟩, hobserved, hreplaceable⟩ := h
      have hsame : { observed with key := (Job.fresh r now).key } = observed := by
        show { observed with key := r.key } = observed
        rw [← hobserved]
      rcases eq_or_of_map_ite (p := (·.isObserved { observed with key := (Job.fresh r now).key }))
        (f := fun _ => .ofJob (.fresh r now)) he with he | ⟨row, rfl, hp, rfl⟩
      · exact .inl he
      rw [hsame] at hp
      have hk : r.key.text = key := by
        rw [← hobserved, ← JobRow.key_of_isObserved hp]
        exact hkey row rfl
      exact .inr (.replaced hk hnow hreplaceable hp)
    | _ => exact h.elim
  | updateIf observed change =>
    rcases eq_or_of_map_ite (p := (·.isCurrent observed)) (f := (·.apply change)) he with he | ⟨row, rfl, hp, rfl⟩
    · exact .inl he
    have hk : observed.key.text = key := (JobRow.key_of_isCurrent hp).symm.trans (hkey row rfl)
    cases op with
    | claim j =>
      obtain ⟨rfl, hq, _, now, hnow, rfl⟩ := h
      exact .inr (.claimed hk hq hnow hp)
    | complete c o =>
      obtain ⟨rfl, hrun, _, now, hnow, rfl⟩ := h
      exact .inr (.completed hk hrun hnow hp)
    | _ => exact h.elim
  | quarantine k words now =>
    rcases eq_or_of_map_ite (p := (·.key == k)) (f := (·.quarantined words now)) he with he | ⟨row, rfl, hp, rfl⟩
    · exact .inl he
    obtain rfl : k = key := (eq_of_beq hp).symm.trans (hkey row rfl)
    -- a request and the list of due jobs give up rows, and nobody else does
    cases op with
    | enqueue r => exact .inr (.quarantined h.1 h.2)
    | due => exact .inr (.quarantined h.1 h.2)
    | _ => exact h.elim
  | promote now =>
    rcases eq_or_of_map_ite (p := (·.isPromotable now)) (f := (·.promoted now)) he with he | ⟨row, rfl, hp, rfl⟩
    · exact .inl he
    cases op with
    | promote => exact .inr (.promoted h hp)
    | _ => exact h.elim
  | resetRunning now =>
    rcases eq_or_of_map_ite (p := (·.state == "running")) (f := (·.reset now)) he with he | ⟨row, rfl, hp, rfl⟩
    · exact .inl he
    cases op with
    | recover => exact .inr (.reset h (eq_of_beq hp))
    | _ => exact h.elim
  | deleteTerminal limit =>
    cases o with
    | none => exact .inl he
    | some row =>
      by_cases hp : row.isPrunable limit = true
      · obtain rfl : e = none := by
          rw [he]
          show (some row).filter (fun r => !r.isPrunable limit) = none
          rw [Option.filter_some, hp]
          rfl
        cases op with
        | prune retention =>
          obtain ⟨now, hnow, rfl⟩ := h
          exact .inr (.deleted hnow hp)
        | _ => exact h.elim
      · obtain rfl : e = some row := by
          rw [he]
          show (some row).filter (fun r => !r.isPrunable limit) = some row
          rw [Option.filter_some, eq_false_of_ne_true hp]
          rfl
        exact .inl rfl
  | find _ => exact .inl he
  | listDue _ => exact .inl he
  | count _ => exact .inl he

/-! ## Calls of a run -/

variable {start : JobTable} {earlier : List Act} {n : Nat} {c : Call} {x : c.Answer} {before after : JobTable}

/-- A call leaves the row of a key, or it makes a move of it. -/
theorem Regular.moves (h : Regular rules start earlier n op c x before after) (key : String) :
    after.row? key = before.row? key ∨
      ∃ s, c = .jobs s ∧ Move rules (own n earlier) key op s (before.row? key) (after.row? key) := by
  cases c with
  | jobs s =>
    have hafter : after = before ∨ after = (s.run before).2 := by
      cases x with
      | ok x => exact .inr h.answers.2
      | error _ => exact h.answers
    rcases hafter with rfl | rfl
    · exact .inl rfl
    rw [JobTable.row?_run h.keyed]
    have hkey : ∀ row, before.row? key = some row → row.key = key := fun row hrow => JobTable.key_of_row? hrow
    rcases Operation.MayDo.moves h.mayDo hkey with hstays | hmoves
    · exact .inl hstays
    · exact .inr ⟨s, rfl, hmoves⟩
  | now =>
    obtain rfl : after = before := h.answers.2
    exact .inl rfl
  | emit _ =>
    obtain rfl : after = before := h.answers
    exact .inl rfl
  | _ => exact h.may.elim

theorem Act.renews_iff {s : JobStatement} {x : (Call.jobs s).Answer} :
    (Act.called n op (.jobs s) x before after).Renews key ↔
      renews s = true ∧ before.row? key ≠ after.row? key := by
  cases s with
  | insertIfAbsent job => exact (and_iff_right rfl).symm
  | replaceIf job observed => exact (and_iff_right rfl).symm
  | _ => exact ⟨False.elim, fun h => nomatch h.1⟩

/-- A call that writes no fresh job leaves the row of a key, or it makes a move that goes on with the job. -/
theorem Regular.moves_of_not_renews (h : Regular rules start earlier n op c x before after)
    (hnew : ¬ (Act.called n op c x before after).Renews key) :
    after.row? key = before.row? key ∨ ∃ s, c = .jobs s ∧ renews s = false ∧
      Move rules (own n earlier) key op s (before.row? key) (after.row? key) := by
  rcases h.moves key with hstays | ⟨s, rfl, hmove⟩
  · exact .inl hstays
  by_cases hsame : after.row? key = before.row? key
  · exact .inl hsame
  · refine .inr ⟨s, rfl, eq_false_of_ne_true fun hrenews => hnew ?_, hmove⟩
    exact Act.renews_iff.2 ⟨hrenews, fun e => hsame e.symm⟩

/-- Only a fresh job comes to a key without a row. -/
theorem Move.renews_of_none {s : JobStatement} {row : JobRow} (h : Move rules acts key op s none (some row)) :
    renews s = true := by
  cases h
  rfl

/-- An update that was granted met the row of its copy, and changed it. -/
theorem Regular.granted {j : Job} {change : Change}
    (h : Regular rules start earlier n op (.jobs (.updateIf j change)) (.ok true) before after) :
    ∃ row, before.row? j.key.text = some row ∧ row.isCurrent j = true ∧
      after.row? j.key.text = some (row.apply change) := by
  obtain ⟨hanswer, hafter⟩ := h.answers
  have hany : (before.row? j.key.text).any (·.isCurrent j) = true := by
    rw [← JobTable.answer_updateIf h.keyed j change]
    exact hanswer.symm
  obtain ⟨row, hrow, hcurrent⟩ := (Option.any_eq_true _ _).1 hany
  refine ⟨row, hrow, hcurrent, ?_⟩
  rw [hafter, JobTable.row?_run h.keyed, hrow]
  exact congrArg some (if_pos hcurrent)

/-- A claim that was granted changed the row, which was queued and runs now. -/
theorem Regular.changes_of_granted {j : Job} {change : Change}
    (h : Regular rules start earlier n (.claim j) (.jobs (.updateIf j change)) (.ok true) before after) :
    before.row? j.key.text ≠ after.row? j.key.text := by
  obtain ⟨row, hrow, hcurrent, hafter⟩ := h.granted
  obtain ⟨_, hq, _, now, _, rfl⟩ := h.mayDo
  rw [hrow, hafter]
  intro hsame
  have hrunning : row.state = "running" := congrArg JobRow.state (Option.some.inj hsame)
  obtain ⟨_, hqueued, _⟩ := JobRow.isCurrent_iff.1 hcurrent
  rw [hrunning, hq] at hqueued
  exact absurd hqueued (by decide)

/-- An update that was refused did not meet the row of its copy, and changed nothing. -/
theorem Regular.refused {j : Job} {change : Change}
    (h : Regular rules start earlier n op (.jobs (.updateIf j change)) (.ok false) before after) :
    (∀ row, before.row? j.key.text = some row → row.isCurrent j = false) ∧ after = before := by
  obtain ⟨hanswer, hafter⟩ := h.answers
  have hnone : (before.row? j.key.text).any (·.isCurrent j) = false := by
    rw [← JobTable.answer_updateIf h.keyed j change]
    exact hanswer.symm
  have hrow : ∀ row, before.row? j.key.text = some row → row.isCurrent j = false := by
    intro row hrow
    rw [hrow] at hnone
    exact hnone
  refine ⟨hrow, ?_⟩
  rw [hafter, JobTable.run_updateIf_of_not_isCurrent h.keyed hrow]

/-- What holds of a table holds of the one after some more acts, if each of their calls keeps it. -/
theorem kept_of_acts {may : Policy} {P : JobTable → Prop} (later : List Act)
    (hacts : Each (Act.IsRegular rules may start) (later ++ earlier)) (h : P (tableAfter start earlier))
    (hstep : ∀ meanwhile n op c x before after, .called n op c x before after :: meanwhile <:+ later →
      Each (Act.IsRegular rules may start) (.called n op c x before after :: (meanwhile ++ earlier)) →
      P before → P after) :
    P (tableAfter start (later ++ earlier)) := by
  induction later with
  | nil => exact h
  | cons a later ih =>
    have hrest : P (tableAfter start (later ++ earlier)) := by
      refine ih hacts.2 ?_
      intro meanwhile n op c x before after hsuffix
      exact hstep meanwhile n op c x before after (hsuffix.trans (List.suffix_cons a later))
    cases a with
    | begun _ _ => exact hrest
    | ended _ _ _ => exact hrest
    | called n op c x before after =>
      have hregular : Regular rules start (later ++ earlier) n op c x before after := hacts.1
      have hbefore : P before := hregular.before_eq ▸ hrest
      exact hstep later n op c x before after (List.suffix_refl _) hacts hbefore

end MediaBackup.Workers
