import MediaBackup.Proofs.Workers.Fencing

/-
  What giving up a row that cannot be read may destroy.

  Requests and the search for due jobs read a row in one statement and give it up in a later one, and giving
  up asks nothing but the key.  So what it writes over is what the operation read only if nobody wrote the
  row in between: then the row is still the one that cannot be read, and no other row is touched
  (`Run.quarantine_spares_valid`).  Without that, a row that another worker gave up, replaced and started is
  given up while its job runs (`Run.started_scan_given_up`).
-/

namespace MediaBackup.Workers

variable {rules : RetryRules} {may : Policy} {start : JobTable} {past earlier : List Act} {shop : Shop}
  {n : Nat} {op : Operation} {key : String}

/-! ## From the read to the write -/

/-- The row that a call found corrupt is one that cannot be read, in the table that the call left. -/
theorem row?_of_findsCorrupt {c : Call} {x : c.Answer} {before after : JobTable} {reason : RowFault}
    (hu : Usual start earlier n op c x before after)
    (h : (Act.called n op c x before after).FindsCorrupt key reason) :
    ∃ row, after.row? key = some row ∧ row.decode = .corrupt key reason :=
  exists_corrupt_of_findsCorrupt hu.keyed hu.answers h

/-- Giving up a row leaves every other row as it is. -/
theorem row?_quarantine_of_ne {t : JobTable} (hk : t.Keyed) {k : String} (hne : k ≠ key) (words : String)
    (now : Instant) : JobTable.row? ((JobStatement.quarantine k words now).run t).2 key = t.row? key := by
  rw [JobTable.row?_run hk]
  cases hrow : t.row? key with
  | none => rfl
  | some row =>
    have hkey : row.key ≠ k := fun e => hne (e.symm.trans (JobTable.key_of_row? hrow))
    show some (if row.key == k then _ else row) = some row
    rw [if_neg (by simpa using hkey)]

/-- A call that gives up one row, or none, leaves the rows of all other keys. -/
theorem Usual.row?_quarantine {words : String} {now : Instant}
    {k : String} {x : (Call.jobs (.quarantine k words now)).Answer} {before after : JobTable}
    (hu : Usual start earlier n op (.jobs (.quarantine k words now)) x before after) (hne : k ≠ key) :
    before.row? key = after.row? key := by
  have hsame := row?_quarantine_of_ne hu.keyed hne words now
  have hanswers := hu.answers
  cases x with
  | ok x => rw [hanswers.2, hsame]
  | error _ =>
    rcases hanswers with rfl | rfl
    · rfl
    · exact hsame.symm

/-- A call that spares a key does not change its row. -/
theorem Usual.row?_of_spares {c : Call} {x : c.Answer} {before after : JobTable}
    (hu : Usual start earlier n op c x before after) (h : (Act.called n op c x before after).Spares key) :
    before.row? key = after.row? key := by
  cases c with
  | jobs s =>
    cases s with
    | quarantine k words now => exact hu.row?_quarantine h
    | _ => exact h.elim
  | now => rw [hu.answers.2]
  | emit _ => rw [show after = before from hu.answers]
  | _ => exact hu.may.elim

/-- **Giving up rows.**  An operation gives up a row only after it found under the same key one that cannot be
    read.  If no other operation changed the row of that key in between, then the write changes no row but that
    one, and the row that it changes is still the one that cannot be read. -/
theorem Run.quarantine_spares_valid (hk : start.Keyed) (h : Run rules may start past shop) {later earlier : List Act}
    {words : String} {now : Instant} {x : (Call.jobs (.quarantine key words now)).Answer} {before after : JobTable}
    (hp : past = later ++ .called n op (.jobs (.quarantine key words now)) x before after :: earlier) :
    ∃ between read older reason, earlier = between ++ read :: older ∧ read.number = n ∧
      read.FindsCorrupt key reason ∧ words = reason.message ∧
      ((∀ a ∈ between, a.number ≠ n → ¬ a.Changes key) → ∀ k, before.row? k ≠ after.row? k →
        k = key ∧ ∃ row, before.row? k = some row ∧ row.decode = .corrupt key reason) := by
  subst hp
  obtain ⟨husual, hacts⟩ : Usual start earlier n op _ x before after ∧ _ := (h.habitual hk).acts.of_append
  -- what the operation read, among all acts
  have hmay : Overwrites key words (own n earlier) := by
    have hm := husual.may
    cases op with
    | enqueue r => exact hm
    | due => exact hm
    | _ => exact hm.elim
  obtain ⟨since, read, acts, reason, hown, hread, hwords, hsince⟩ := hmay
  obtain ⟨l₁, l₂, rfl, rfl, h₂⟩ := List.filter_eq_append_iff.1 hown
  obtain ⟨l₃, older, rfl, hothers, hn, _⟩ := List.filter_eq_cons_iff.1 h₂
  rw [← List.append_assoc] at hacts
  refine ⟨l₁ ++ l₃, read, older, reason, (List.append_assoc ..).symm, eq_of_beq hn, hread, hwords, ?_⟩
  intro hnobody k hchanged
  obtain rfl : k = key := Classical.byContradiction fun hne => hchanged (husual.row?_quarantine (Ne.symm hne))
  refine ⟨rfl, ?_⟩
  -- no act in between changed the row: the operation itself spared it
  have hkept : ¬ ∃ a ∈ l₁ ++ l₃, a.Changes k := by
    rintro ⟨a, ha, hc⟩
    refine hnobody a ha (fun hmine => ?_) hc
    have hspares : a.Spares k := by
      rcases List.mem_append.1 ha with h₁ | h₃
      · exact hsince a (List.mem_filter.2 ⟨h₁, beq_iff_eq.2 hmine⟩)
      · exact absurd (beq_iff_eq.2 hmine) (hothers a h₃)
    cases a with
    | begun _ _ => exact hc
    | ended _ _ _ => exact hc
    | called m op' c x' b a' =>
      obtain ⟨e₁, e₂, he⟩ := List.append_of_mem ha
      rw [he, List.append_assoc, List.cons_append] at hacts
      have hu : Usual start (e₂ ++ read :: older) m op' c x' b a' := hacts.of_split
      exact hc (hu.row?_of_spares hspares)
  have hsame : before.row? k = (tableAfter start (read :: older)).row? k := by
    rw [husual.before_eq, ← List.append_assoc]
    refine Classical.not_not.1 fun hne => hkept ?_
    refine exists_changes start k (l₁ ++ l₃) (read :: older) ?_ hne
    intro l e m op' c x' b a he
    rw [he] at hacts
    have hu : Usual start e m op' c x' b a := hacts.of_split
    exact hu.before_eq
  rw [hsame]
  cases read with
  | begun _ _ => exact hread.elim
  | ended _ _ _ => exact hread.elim
  | called m op' c x' b a => exact row?_of_findsCorrupt hacts.of_split hread

/-! ## A damaged scan -/

/-- A row of a scan whose count of attempts is none. -/
def damagedScan : JobRow := { JobRow.ofJob waitingScan with attempt := .int (-1) }

/-- What is wrong with it. -/
def damage : RowFault := .outOfRange "attempt" (-1)

/-- The job of the row after it was given up. -/
def lostScan : Job :=
  { waitingScan with
    state := .abandoned, constraints := .none, lastError := some ("corrupt job row: " ++ damage.message)
    abandonReason := some .exhausted }

theorem decode_damagedScan : damagedScan.decode = .corrupt "scan" damage := rfl

theorem keyed_damagedScan : JobTable.Keyed [damagedScan] := List.pairwise_singleton _ _

theorem decode_quarantined_damagedScan : (damagedScan.quarantined damage.message .epoch).decode = .valid lostScan :=
  JobRow.decode_eq_valid_iff.2
    { key := rfl, isProper := by decide, state := rfl, isStorable := JobState.noConfusion, attempt := rfl
      attempt_lt := by decide, constraints := Constraints.ofText_empty, lastError := rfl, abandonReason := rfl
      nextRunAt := isDate_epoch.shows, createdAt := isDate_epoch.shows, updatedAt := isDate_epoch.shows }

/-- The acts by which operation `n` gives up the row of a scan. -/
def givingUp (n : Nat) (t : JobTable) : List Act :=
  [.called n (.enqueue .scan) (.jobs (.quarantine "scan" damage.message .epoch)) (.ok ()) t
    ((JobStatement.quarantine "scan" damage.message .epoch).run t).2,
   .called n (.enqueue .scan) .now Instant.epoch t t]

/-- A request comes upon the damaged row, and gives it up whatever it has become. -/
theorem Run.exists_found : ∃ n earlier rest,
    Run .standard Unrestricted [damagedScan] earlier ⟨[damagedScan], [⟨n, .enqueue .scan, rest⟩]⟩ ∧
      (∀ a ∈ earlier, a.number = n) ∧
      ∀ {past t}, Run .standard Unrestricted [damagedScan] past ⟨t, [⟨n, .enqueue .scan, rest⟩]⟩ →
        ∃ shop, Run .standard Unrestricted [damagedScan] (givingUp n t ++ past) shop := by
  have hfound : some damagedScan.decode = some (.corrupt "scan" damage) := congrArg some decode_damagedScan
  have h₀ : Run .standard Unrestricted [damagedScan] [] ⟨[damagedScan], []⟩ := .start
  have h₁ := ((h₀.begin (.enqueue .scan) trivial).call_first Instant.epoch _ ⟨isDate_epoch, rfl⟩).call_first
    (c := .jobs (.find "scan")) (.ok (some (.corrupt "scan" damage))) _ ⟨hfound.symm, rfl⟩
  refine ⟨_, _, _, h₁, by simp [Act.number], fun h => ?_⟩
  have h₂ := (h.call_first Instant.epoch _ ⟨isDate_epoch, rfl⟩).call_first
    (c := .jobs (.quarantine "scan" damage.message .epoch)) (.ok ()) _ ⟨rfl, rfl⟩
  exact ⟨_, h₂⟩

/-- The damaged row is given up by the request that came upon it. -/
theorem Run.quarantine_spares_valid_damaged_scan : ∃ past shop n,
    Run .standard Unrestricted [damagedScan] (givingUp n [damagedScan] ++ past) shop ∧
    ∃ row reason, JobTable.row? [damagedScan] "scan" = some row ∧ row.decode = .corrupt "scan" reason := by
  obtain ⟨n, earlier, rest, h, hown, hgoes⟩ := Run.exists_found
  obtain ⟨shop, h'⟩ := hgoes h
  have hchanged : JobTable.row? [damagedScan] "scan" ≠
      JobTable.row? ((JobStatement.quarantine "scan" damage.message .epoch).run [damagedScan]).2 "scan" := by
    decide
  obtain ⟨between, read, older, reason, he, _, _, _, hspares⟩ :=
    h'.quarantine_spares_valid keyed_damagedScan (List.nil_append _).symm
  -- nobody else is under way
  have hnobody : ∀ a ∈ between, a.number ≠ n → ¬ a.Changes "scan" := by
    intro a ha hne
    have hmem := List.mem_append_left (read :: older) ha
    rw [← he] at hmem
    rcases List.mem_cons.1 hmem with rfl | hmem
    · exact absurd rfl hne
    · exact absurd (hown a hmem) hne
  obtain ⟨_, row, hrow, hd⟩ := hspares hnobody "scan" hchanged
  exact ⟨earlier, shop, n, h', row, reason, hrow, hd⟩

/-- A request comes upon the damaged row; before it gives the row up, another one does, puts a fresh scan in its
    place, and the scan is started.  Then the first request gives up the row of the running scan. -/
theorem Run.started_scan_given_up : ∃ past shop n before,
    Run .standard Unrestricted [damagedScan] (givingUp n before ++ past) shop ∧
    startedScan ∈ held past ∧ (∃ row, before.row? "scan" = some row ∧ row.decode = .valid startedScan) ∧
    shop.jobs.row? "scan" ≠ before.row? "scan" := by
  have hfound : some damagedScan.decode = some (.corrupt "scan" damage) := congrArg some decode_damagedScan
  have hlost : some (damagedScan.quarantined damage.message .epoch).decode = some (.valid lostScan) :=
    congrArg some decode_quarantined_damagedScan
  obtain ⟨n, earlier, rest, h, hown, hgoes⟩ := Run.exists_found
  -- the other request gives the row up and replaces it
  have h₁ := ((h.begin (.enqueue .scan) trivial).call_first Instant.epoch _ ⟨isDate_epoch, rfl⟩).call_first
    (c := .jobs (.find "scan")) (.ok (some (.corrupt "scan" damage))) _ ⟨hfound.symm, rfl⟩
  have h₂ := ((h₁.call_first Instant.epoch _ ⟨isDate_epoch, rfl⟩).call_first
    (c := .jobs (.quarantine "scan" damage.message .epoch)) (.ok ())
    [damagedScan.quarantined damage.message .epoch] ⟨rfl, rfl⟩).call_first () _ rfl
  have h₃ := (h₂.call_first Instant.epoch _ ⟨isDate_epoch, rfl⟩).call_first
    (c := .jobs (.find "scan")) (.ok (some (.valid lostScan))) _ ⟨hlost.symm, rfl⟩
  have h₄ := ((h₃.call_first (c := .jobs (.replaceIf waitingScan lostScan)) (.ok true)
    [.ofJob waitingScan] ⟨rfl, rfl⟩).call_first () _ rfl).finish_first
  -- the fresh scan is claimed
  have h₅ := ((((h₄.begin (.claim waitingScan) waitingScan_isProper).call_first Instant.epoch _
    ⟨isDate_epoch, rfl⟩).call_first (c := .jobs (.updateIf waitingScan (waitingScan.claimChange .epoch)))
    (.ok true) [.ofJob startedScan] ⟨rfl, rfl⟩).call_first () _ rfl).finish_first
  obtain ⟨shop, h₆⟩ := hgoes h₅
  have hread : (JobRow.ofJob startedScan).decode = .valid startedScan :=
    JobRow.decode_eq_valid_iff.2 (JobRow.ofJob_says startedScan_isProper (by decide))
  refine ⟨_, shop, n, [.ofJob startedScan], h₆, List.mem_cons_self, ⟨_, rfl, hread⟩, ?_⟩
  rw [h₆.jobs_eq]
  show JobTable.row? ((JobStatement.quarantine "scan" damage.message .epoch).run [.ofJob startedScan]).2 "scan" ≠
    JobTable.row? [.ofJob startedScan] "scan"
  decide

end MediaBackup.Workers
