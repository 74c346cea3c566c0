import MediaBackup.Proofs.Job.Delay
import MediaBackup.Proofs.Queue.Telling

/-
  When a job whose attempt failed is due again.

  Without a window the wait is its anchor, so it can be told in numbers that know no bound.  Then the wait becomes a span
  of time, which is cut at the longest one, and is added to the instant that the clock showed, where the sum is cut at the
  end of the calendar.  Of these two cuts only the last is ever seen: whatever the longest span is added to lies beyond
  the calendar (`Instant.IsDate.millis_after`).  So what is written is an instant, and no earlier one than the clock
  showed.
-/

namespace MediaBackup

/-- In milliseconds, what comes after a wait is the sum, unless the calendar ends before. -/
theorem Instant.IsDate.millis_after {t : Instant} (h : t.IsDate) (n : Nat) :
    (t.after (.ofMillis n)).millis = min (t.millis + n) lastMillis := by
  have hfirst : firstMillis * 1000000 ≤ t.nanos := h.1
  have hlast : last.nanos = lastMillis * 1000000 + 999999 := rfl
  have hlongest : Duration.longest.nanos = 18446744073709551616 * 1000000000 - 1 := rfl
  show min (t.nanos + (min (n * 1000000) Duration.longest.nanos : Nat)) last.nanos / 1000000 =
    min (t.nanos / 1000000 + n) lastMillis
  rw [hlast, hlongest]
  unfold firstMillis at hfirst
  unfold lastMillis
  omega

namespace RetryPolicy

open Chronicle

variable {p : RetryPolicy} {w : Chronicle}

/-- The row of the copy waits for another attempt: from the instant of the clock on it waits as long as the policy says,
    but no longer than the calendar goes. -/
def Delays (p : RetryPolicy) (c : Job) (told : List Entry) (u : JobTable) : Prop :=
  ∃ (now : Instant) (row : JobRow) (j : Job),
    now.IsDate ∧ told.filterMap Entry.shown? = [now] ∧ u.row? c.key.text = some row ∧
    row.nextRunAt = .int (min (now.millis + p.delayFor c.key c.attempt) Instant.lastMillis) ∧
    now.millis ≤ min (now.millis + p.delayFor c.key c.attempt) Instant.lastMillis ∧
    row.decode = .valid j ∧ j.state = .retrying

/-- What is written on an attempt that failed, if there may be another one. -/
theorem completeChange_eq {rules : RetryRules} {c : Job} (hpolicy : rules.policy c.key = p)
    (hretry : p.allowsRetry c.attempt = true) (f : Failure) (now : Instant) :
    Workers.completeChange rules c (.retryable f) now =
      ⟨.retrying, c.attempt, now.after (.ofMillis (p.delayFor c.key c.attempt)), some f.text, none, now⟩ := by
  unfold Workers.completeChange Verdict.of Verdict.change
  dsimp only
  rw [hpolicy, if_pos hretry]

/-- A running job whose attempt failed is delayed. -/
theorem ends_delayed {rules : RetryRules} {c i : Job} {row : JobRow} (hpolicy : rules.policy c.key = p)
    (hk : w.jobs.Keyed) (hrow : w.jobs.row? c.key.text = some row) (hi : row.Says i) (hcurrent : row.isCurrent c = true)
    (hrunning : c.state = .running) (hretry : p.allowsRetry c.attempt = true) (f : Failure) :
    Ends (Queue.complete rules c (.retryable f)) w fun result told u => (∃ d, result = .ok d) ∧ p.Delays c told u := by
  refine (ends_complete hk).mono fun result told u hend => ?_
  rcases hend with ⟨now, row', hdate, hshown, -, hupdated, rfl, -⟩ | ⟨-, -, hnone⟩
  · obtain rfl : row = row' := Option.some.inj (hrow.symm.trans hupdated.before)
    have hchange := completeChange_eq hpolicy hretry f now
    have hattempt : c.attempt < UInt32.size := (hupdated.eq_of_says hi).2.2 ▸ hi.attempt_lt
    have hproper : (Workers.completeChange rules c (.retryable f) now).IsProper := by
      rw [hchange]
      exact ⟨JobState.noConfusion, hattempt, hdate.after _, hdate⟩
    have hdecode := JobRow.decode_eq_valid_iff.mpr (hi.apply hproper)
    have hlast := hdate.millis_le
    refine ⟨⟨_, rfl⟩, now, _, _, hdate, hshown, hupdated.after, ?_, by omega, hdecode, ?_⟩
    · show Cell.int (Workers.completeChange rules c (.retryable f) now).nextRunAt.millis = _
      rw [hchange, hdate.millis_after]
    · show (Workers.completeChange rules c (.retryable f) now).state = .retrying
      rw [hchange]
  · rw [hnone hrunning row hrow] at hcurrent
    exact nomatch hcurrent

/-- The usual policy of uploads, without a window. -/
def even : RetryPolicy := { RetryPolicy.upload with jitterRatio := 0.0 }

theorem even_isValid : even.IsValid :=
  ⟨check_eq_ok_iff.mpr ⟨by decide, by decide, by decide +kernel, by decide +kernel⟩, by decide⟩

end RetryPolicy

end MediaBackup
