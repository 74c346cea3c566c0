import MediaBackup.Proofs.Workers.Lifecycle

/-
  The budget of attempts.

  A claim counts an attempt, a completion compares the count with the maximum, a recovery queues the job again without
  taking the attempt back, and a fresh job counts from zero.  So a job is started as often as its policy allows, and
  once more for every recovery that interrupted it (`Run.within_budget`).

  What is counted is read off the acts since the last fresh job (`sinceFresh`).  The invariant `Budgeted` has more than
  the theorem says: the number of starts is at most the count of attempts, unless that count stands at its end.  Where
  a completion decides on another attempt the count is below the maximum, so it does not stand at its end, and the
  starts are below the maximum too.
-/

namespace MediaBackup.Workers

/-! ## What is counted -/

/-- The act wrote a fresh job under a key, as a test (`Act.Renews`). -/
def Act.renewed (key : String) : Act → Bool
  | .called _ _ (.jobs (.insertIfAbsent _)) _ before after => decide (before.row? key ≠ after.row? key)
  | .called _ _ (.jobs (.replaceIf _ _)) _ before after => decide (before.row? key ≠ after.row? key)
  | _ => false

/-- A claim started the job of a key. -/
def Act.starts (key : String) : Act → Bool
  | .called _ (.claim _) (.jobs (.updateIf j _)) (.ok true) _ _ => j.key.text == key
  | _ => false

/-- A recovery queued the job of a key, which was running. -/
def Act.interrupts (key : String) : Act → Bool
  | .called _ _ (.jobs (.resetRunning _)) _ before after => decide (before.row? key ≠ after.row? key)
  | _ => false

/-- The acts since a fresh job was written under a key. -/
def sinceFresh (key : String) (past : List Act) : List Act := past.takeWhile fun a => !a.renewed key

/-- How often the job of a key was started, since it was queued afresh. -/
def starts (key : String) (past : List Act) : Nat := (sinceFresh key past).countP (·.starts key)

/-- How often a recovery interrupted the job of a key, since it was queued afresh. -/
def interruptions (key : String) (past : List Act) : Nat := (sinceFresh key past).countP (·.interrupts key)

variable {key : String} {a : Act} {past : List Act}

theorem Act.renewed_iff : a.renewed key = true ↔ a.Renews key := by
  cases a with
  | begun _ _ => exact ⟨nofun, False.elim⟩
  | ended _ _ _ => exact ⟨nofun, False.elim⟩
  | called n op c x before after =>
    cases c with
    | jobs s =>
      cases s with
      | insertIfAbsent job => exact decide_eq_true_iff
      | replaceIf job observed => exact decide_eq_true_iff
      | _ => exact ⟨nofun, False.elim⟩
    | _ => exact ⟨nofun, False.elim⟩

theorem sinceFresh_of_renews (h : a.Renews key) : sinceFresh key (a :: past) = [] := by
  unfold sinceFresh
  rw [List.takeWhile_cons, Act.renewed_iff.2 h]
  rfl

theorem sinceFresh_of_not_renews (h : ¬ a.Renews key) :
    sinceFresh key (a :: past) = a :: sinceFresh key past := by
  have hno : a.renewed key = false := eq_false_of_ne_true fun hr => h (Act.renewed_iff.1 hr)
  unfold sinceFresh
  rw [List.takeWhile_cons, hno]
  rfl

theorem starts_of_renews (h : a.Renews key) : starts key (a :: past) = 0 := by
  unfold starts
  rw [sinceFresh_of_renews h]
  rfl

theorem interruptions_of_renews (h : a.Renews key) : interruptions key (a :: past) = 0 := by
  unfold interruptions
  rw [sinceFresh_of_renews h]
  rfl

theorem starts_cons (h : ¬ a.Renews key) :
    starts key (a :: past) = starts key past + if a.starts key then 1 else 0 := by
  unfold starts
  rw [sinceFresh_of_not_renews h, List.countP_cons]

theorem interruptions_cons (h : ¬ a.Renews key) :
    interruptions key (a :: past) = interruptions key past + if a.interrupts key then 1 else 0 := by
  unfold interruptions
  rw [sinceFresh_of_not_renews h, List.countP_cons]

/-! ## One move -/

/-- A job within its budget: `most` is the greatest number of attempts, `breaks` counts its interruptions and `begun`
    its starts. -/
structure Budgeted (most breaks begun : Nat) (j : Job) : Prop where
  attempt_le : j.attempt ≤ most + breaks
  begun_le : begun ≤ most + breaks
  queued : j.state = .queued → j.attempt < most + breaks ∧ begun < most + breaks
  retrying : j.state = .retrying → j.attempt < most
  exhausted : j.abandonReason = some .exhausted → most ≤ j.attempt
  counted : j.attempt = Job.attemptMax ∨ begun ≤ j.attempt

/-- A verdict keeps a job within its budget. -/
theorem Budgeted.changed {most breaks begun : Nat} {i c : Job} (h : Budgeted most breaks begun i)
    (hcount : i.attempt = c.attempt) {p : RetryPolicy} (hp : p.maxAttempts = most) (now : Instant) (o : Outcome) :
    Budgeted most breaks begun (i.changed ((Verdict.of p c now o).change c now)) := by
  have hle : c.attempt ≤ most + breaks := hcount ▸ h.attempt_le
  have hcounted : c.attempt = Job.attemptMax ∨ begun ≤ c.attempt := hcount ▸ h.counted
  cases o with
  | success => exact ⟨hle, h.begun_le, nofun, nofun, nofun, hcounted⟩
  | permanent f => exact ⟨hle, h.begun_le, nofun, nofun, nofun, hcounted⟩
  | retryable f =>
    unfold Verdict.of RetryPolicy.allowsRetry
    dsimp only
    rw [hp]
    split
    case isTrue hallowed =>
      exact ⟨hle, h.begun_le, nofun, fun _ => of_decide_eq_true hallowed, nofun, hcounted⟩
    case isFalse hover =>
      have hmost : most ≤ c.attempt := Nat.le_of_not_lt fun hlt => hover (decide_eq_true hlt)
      exact ⟨hle, h.begun_le, nofun, nofun, fun _ => hmost, hcounted⟩

theorem Budgeted.of_le {most breaks begun begun' : Nat} {j : Job} (h : Budgeted most breaks begun j)
    (hle : begun' ≤ begun) : Budgeted most breaks begun' j where
  attempt_le := h.attempt_le
  begun_le := Nat.le_trans hle h.begun_le
  queued hq := ⟨(h.queued hq).1, Nat.lt_of_le_of_lt hle (h.queued hq).2⟩
  retrying := h.retrying
  exhausted := h.exhausted
  counted := h.counted.imp_right (Nat.le_trans hle)

/-- How many starts an operation can make of a job with one update. -/
def Operation.claims : Operation → Nat
  | claim _ => 1
  | _ => 0

/-- How many interruptions a statement can make of a job. -/
def breaks : JobStatement → Nat
  | .resetRunning _ => 1
  | _ => 0

variable {rules : RetryRules} {acts : List Act} {op : Operation} {s : JobStatement} {row row' : JobRow}

/-- A fresh job is within its budget. -/
theorem Budgeted.fresh {most : Nat} (hpos : 0 < most) (r : JobRequest) (now : Instant) :
    Budgeted most 0 0 (JobRow.stored (.fresh r now)) :=
  ⟨Nat.zero_le _, Nat.zero_le _, fun _ => ⟨hpos, hpos⟩, nofun, nofun, .inr (Nat.le_refl 0)⟩

/-- Every move that goes on with the job keeps it within its budget. -/
theorem Move.budgeted {k : JobKey} {most interrupted begun : Nat} {i : Job}
    (h : Move rules acts k.text op s (some row) (some row')) (hnew : renews s = false) (hop : op.IsNamed)
    (hreads : ∀ words, ¬ Overwrites k.text words acts) (hmost : (rules.policy k).maxAttempts = most)
    (hmax : most < UInt32.size) (hi : row.Says i) (hb : Budgeted most interrupted begun i) :
    ∃ j, row'.Says j ∧ Budgeted most (interrupted + breaks s) (begun + op.claims) j := by
  cases h with
  | replaced _ _ _ _ => exact nomatch hnew
  | quarantined howns _ => exact absurd howns (hreads _)
  | @claimed j now _ _ hq hnow hcurrent =>
    have hj : j.IsProper := hop.1
    obtain ⟨hstate, hcount⟩ := eq_of_isCurrent hi hcurrent
    obtain ⟨hattempt, hbegun⟩ := hb.queued (hstate.trans hq)
    have hcounted := hb.counted
    rw [hcount] at hattempt hcounted
    refine ⟨_, hi.apply (hj.claimChange hnow.1), ?_, ?_, nofun, nofun, nofun, ?_⟩
    · show min (j.attempt + 1) Job.attemptMax ≤ most + interrupted
      omega
    · show begun + 1 ≤ most + interrupted
      omega
    · -- at its end the count stands still, while the starts go on
      show min (j.attempt + 1) Job.attemptMax = Job.attemptMax ∨ begun + 1 ≤ min (j.attempt + 1) Job.attemptMax
      omega
  | @completed c o now _ hkey _ hnow hcurrent =>
    have hc : c.IsProper := hop.1
    obtain ⟨_, hcount⟩ := eq_of_isCurrent hi hcurrent
    have hpolicy : (rules.policy c.key).maxAttempts = most := by
      rw [JobKey.text_injective hkey]
      exact hmost
    have hsaid := hi.apply (Verdict.change_isProper (rules.policy c.key) hc hnow.1 o)
    exact ⟨_, hsaid, hb.changed hcount hpolicy now o⟩
  | @promoted now _ hnow hpromotable =>
    have hstate : i.state = .retrying := state_eq_of_name hi (JobRow.isPromotable_iff.1 hpromotable).1
    have hlt : i.attempt < most := hb.retrying hstate
    -- the count does not stand at its end, so it is the number of starts at least
    have hbegun : begun ≤ i.attempt := by
      rcases hb.counted with hend | hle
      · have hend' : i.attempt = UInt32.size - 1 := hend
        omega
      · exact hle
    refine ⟨_, hi.promoted hnow.1, hb.attempt_le, hb.begun_le, fun _ => ⟨?_, ?_⟩, nofun, hb.exhausted, hb.counted⟩
    · show i.attempt < most + interrupted
      omega
    · show begun < most + interrupted
      omega
  | @reset now _ hnow _ =>
    have hattempt := hb.attempt_le
    have hbegun := hb.begun_le
    refine ⟨_, hi.reset hnow.1, ?_, ?_, fun _ => ⟨?_, ?_⟩, nofun, hb.exhausted, hb.counted⟩
    · show i.attempt ≤ most + (interrupted + 1)
      omega
    · show begun ≤ most + (interrupted + 1)
      omega
    · show i.attempt < most + (interrupted + 1)
      omega
    · show begun < most + (interrupted + 1)
      omega

/-- A fresh job that was written is within its budget. -/
theorem Move.budgeted_of_renews {most : Nat} {o : Option JobRow}
    (h : Move rules acts key op s o (some row')) (hrenews : renews s = true) (hop : op.IsNamed) (hpos : 0 < most) :
    ∃ j, row'.Says j ∧ Budgeted most 0 0 j := by
  cases h with
  | @inserted r now _ hnow =>
    exact ⟨_, JobRow.ofJob_says (Job.fresh_isProper r hnow.1) (hop.2 r rfl), .fresh hpos r now⟩
  | @replaced r now _ _ _ hnow _ _ =>
    exact ⟨_, JobRow.ofJob_says (Job.fresh_isProper r hnow.1) (hop.2 r rfl), .fresh hpos r now⟩
  | _ => exact nomatch hrenews

/-- A move that deletes a row starts nothing. -/
theorem Move.claims_eq_zero (h : Move rules acts key op s (some row) none) : op.claims = 0 := by
  cases h
  rfl

/-! ## One call -/

variable {start : JobTable} {earlier : List Act} {n : Nat} {c : Call} {x : c.Answer} {before after : JobTable}

/-- A fresh job and an interruption change the row. -/
theorem Act.Renews.changes (h : (Act.called n op c x before after).Renews key) :
    before.row? key ≠ after.row? key := by
  cases c with
  | jobs s => exact (Act.renews_iff.1 h).2
  | _ => exact h.elim

theorem Act.changes_of_interrupts (h : (Act.called n op c x before after).interrupts key = true) :
    before.row? key ≠ after.row? key := by
  cases c with
  | jobs s =>
    cases s with
    | resetRunning now => exact of_decide_eq_true h
    | _ => exact nomatch h
  | _ => exact nomatch h

/-- A start changes the row. -/
theorem Regular.changes_of_starts (h : Regular rules start earlier n op c x before after)
    (hstarts : (Act.called n op c x before after).starts key = true) : before.row? key ≠ after.row? key := by
  unfold Act.starts at hstarts
  split at hstarts
  case h_2 => exact nomatch hstarts
  rename_i he
  cases he
  obtain rfl := eq_of_beq hstarts
  obtain ⟨rfl, _⟩ := h.mayDo
  exact h.changes_of_granted

/-- A call adds a start at most if it is one of a claim. -/
theorem starts_called_le (earlier : List Act) (hnew : ¬ (Act.called n op c x before after).Renews key) :
    starts key (.called n op c x before after :: earlier) ≤ starts key earlier + op.claims := by
  rw [starts_cons hnew]
  refine Nat.add_le_add_left ?_ _
  split
  case isFalse => exact Nat.zero_le _
  case isTrue hstarts =>
    unfold Act.starts at hstarts
    split at hstarts
    case h_2 => exact nomatch hstarts
    rename_i he
    cases he
    exact Nat.le_refl 1

/-- A statement that changed the row adds an interruption if it queues running jobs. -/
theorem interruptions_called {x : (Call.jobs s).Answer} (hnew : ¬ (Act.called n op (.jobs s) x before after).Renews key)
    (hchanged : before.row? key ≠ after.row? key) :
    interruptions key (.called n op (.jobs s) x before after :: earlier) = interruptions key earlier + breaks s := by
  rw [interruptions_cons hnew]
  cases s with
  | resetRunning now =>
    have hinterrupts : (Act.called n op (.jobs (.resetRunning now)) x before after).interrupts key = true :=
      decide_eq_true hchanged
    rw [hinterrupts]
    rfl
  | _ => rfl

/-- A call that leaves the row of a key leaves what is counted for it. -/
theorem counts_eq_of_stays (h : Regular rules start earlier n op c x before after)
    (hsame : before.row? key = after.row? key) :
    starts key (.called n op c x before after :: earlier) = starts key earlier ∧
      interruptions key (.called n op c x before after :: earlier) = interruptions key earlier := by
  have hnew : ¬ (Act.called n op c x before after).Renews key := fun hrenews => hrenews.changes hsame
  have hstarts : (Act.called n op c x before after).starts key = false :=
    eq_false_of_ne_true fun hstarts => h.changes_of_starts hstarts hsame
  have hinterrupts : (Act.called n op c x before after).interrupts key = false :=
    eq_false_of_ne_true fun hinterrupts => Act.changes_of_interrupts hinterrupts hsame
  rw [starts_cons hnew, interruptions_cons hnew, hstarts, hinterrupts]
  exact ⟨rfl, rfl⟩

/-! ## Every run -/

variable {may : Policy} {shop : Shop}

/-- After the acts of a run that starts with no rows a job was started at most as often as its budget allows, and its
    row is within the budget. -/
theorem budgeted_of_acts {k : JobKey} {most : Nat} (hmost : (rules.policy k).maxAttempts = most) (hpos : 0 < most)
    (hmax : most < UInt32.size) (hacts : Each (Act.IsRegular rules Named []) past) :
    starts k.text past ≤ most + interruptions k.text past ∧
      ∀ row, (tableAfter [] past).row? k.text = some row →
        ∃ j, row.Says j ∧ Budgeted most (interruptions k.text past) (starts k.text past) j := by
  induction past with
  | nil => exact ⟨Nat.zero_le _, fun _ h => nomatch h⟩
  | cons a earlier ih =>
    obtain ⟨hstarts, hrows⟩ := ih hacts.2
    cases a with
    | begun n op => exact ⟨hstarts, hrows⟩
    | ended n op r => exact ⟨hstarts, hrows⟩
    | called n op c x before after =>
      have hregular : Regular rules [] earlier n op c x before after := hacts.1
      have hbefore : ∀ row, before.row? k.text = some row →
          ∃ j, row.Says j ∧ Budgeted most (interruptions k.text earlier) (starts k.text earlier) j :=
        hregular.before_eq ▸ hrows
      by_cases hsame : before.row? k.text = after.row? k.text
      · obtain ⟨hn, hr⟩ := counts_eq_of_stays hregular hsame
        rw [hn, hr]
        exact ⟨hstarts, fun row hrow => hbefore row (hsame.trans hrow)⟩
      rcases moves_of_acts hacts k.text with hstays | ⟨s, rfl, hmove, hop, hreads, _⟩
      · exact absurd hstays.symm hsame
      -- a fresh job sets both counts back, and everything else goes on with the job that was there
      cases hrenews : renews s with
      | true =>
        have hrenewed : (Act.called n op (.jobs s) x before after).Renews k.text :=
          Act.renews_iff.2 ⟨hrenews, hsame⟩
        rw [starts_of_renews hrenewed, interruptions_of_renews hrenewed]
        refine ⟨Nat.zero_le _, fun row hrow => ?_⟩
        have hafter : after.row? k.text = some row := hrow
        rw [hafter] at hmove
        exact hmove.budgeted_of_renews hrenews hop hpos
      | false =>
        have hnew : ¬ (Act.called n op (.jobs s) x before after).Renews k.text := by
          intro h
          rw [(Act.renews_iff.1 h).1] at hrenews
          exact nomatch hrenews
        have hle := starts_called_le earlier hnew
        rw [interruptions_called hnew hsame]
        show starts k.text _ ≤ _ ∧ ∀ row, after.row? k.text = some row → _
        cases hafter : after.row? k.text with
        | none =>
          cases hrow : before.row? k.text with
          | none => exact absurd (hrow.trans hafter.symm) hsame
          | some row =>
            rw [hrow, hafter] at hmove
            have hclaims := hmove.claims_eq_zero
            exact ⟨by omega, fun _ h => nomatch h⟩
        | some row' =>
          cases hrow : before.row? k.text with
          | none =>
            rw [hrow, hafter] at hmove
            exact absurd hmove.renews_of_none (ne_true_of_eq_false hrenews)
          | some row =>
            rw [hrow, hafter] at hmove
            obtain ⟨i, hi, hb⟩ := hbefore row hrow
            obtain ⟨j, hj, hbudgeted⟩ := hmove.budgeted hrenews hop hreads hmost hmax hi hb
            refine ⟨Nat.le_trans hle hbudgeted.begun_le, ?_⟩
            rintro _ ⟨⟩
            exact ⟨j, hj, hbudgeted.of_le hle⟩

/-- **The budget of attempts.**  Whatever workers do to a table that was empty, with keys that can be read back and
    copies that a row can hold: since a job was queued afresh it was started at most as often as its policy allows, and
    once more for every recovery that interrupted it, and so is the count of attempts of its row; a queued job has an
    attempt left, a job that waits for another attempt is below the maximum, and one that was given up as exhausted
    has reached it. -/
theorem Run.within_budget (h : Run rules Named [] past shop) (k : JobKey) (hpos : 0 < (rules.policy k).maxAttempts)
    (hmax : (rules.policy k).maxAttempts < UInt32.size) :
    starts k.text past ≤ (rules.policy k).maxAttempts + interruptions k.text past ∧
    ∀ row, shop.jobs.row? k.text = some row → ∃ j, row.decode = .valid j ∧
      j.attempt ≤ (rules.policy k).maxAttempts + interruptions k.text past ∧
      (j.state = .queued → j.attempt ≤ (rules.policy k).maxAttempts - 1 + interruptions k.text past) ∧
      (j.state = .retrying → j.attempt < (rules.policy k).maxAttempts) ∧
      (j.abandonReason = some .exhausted → (rules.policy k).maxAttempts ≤ j.attempt) := by
  have hacts := (h.conducted JobTable.keyed_nil).acts
  obtain ⟨hstarts, hrows⟩ := budgeted_of_acts rfl hpos hmax hacts
  refine ⟨hstarts, fun row hrow => ?_⟩
  rw [h.jobs_eq] at hrow
  obtain ⟨j, hj, hb⟩ := hrows row hrow
  refine ⟨j, JobRow.decode_eq_valid_iff.2 hj, hb.attempt_le, fun hq => ?_, hb.retrying, hb.exhausted⟩
  have hlt := (hb.queued hq).1
  omega

/-- The upload after its first attempt is within its budget. -/
theorem Run.within_budget_delayed_upload : ∃ past shop, Run .standard Named [] past shop ∧
    starts "upload:a" past ≤ 8 + interruptions "upload:a" past ∧
    shop.jobs.row? "upload:a" = some delayedUpload ∧
    ∃ j, delayedUpload.decode = .valid j ∧ (j.state = .retrying → j.attempt < 8) := by
  obtain ⟨n, later, earlier, _, h⟩ := Run.exists_delayed
  have hbudget := h.within_budget (.upload "a") (by decide) (by decide)
  obtain ⟨i, hi, _, _, hretrying, _⟩ := hbudget.2 delayedUpload rfl
  exact ⟨_, _, h, hbudget.1, rfl, i, hi, hretrying⟩

end MediaBackup.Workers
