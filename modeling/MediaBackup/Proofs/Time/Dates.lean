import MediaBackup.Time.Instant

/-
  Dates: the instants that the calendar has.

  Clocks show dates only, and adding a span to a date gives a date again.  The milliseconds of a date
  stand for an instant, so a date that was written can be read (`ofMillis?_millis`).
-/

namespace MediaBackup.Instant

/-- The calendar has this instant. -/
def IsDate (t : Instant) : Prop := first.nanos ≤ t.nanos ∧ t.nanos ≤ last.nanos

instance (t : Instant) : Decidable t.IsDate := inferInstanceAs (Decidable (_ ∧ _))

/-- The instant at the start of its millisecond, which is what a table keeps of it. -/
def floor (t : Instant) : Instant := ⟨t.millis * 1000000⟩

@[simp] theorem millis_floor (t : Instant) : t.floor.millis = t.millis := by
  show t.nanos / 1000000 * 1000000 / 1000000 = t.nanos / 1000000
  omega

theorem IsDate.le_millis {t : Instant} (h : t.IsDate) : firstMillis ≤ t.millis := by
  have hfirst : firstMillis * 1000000 ≤ t.nanos := h.1
  show firstMillis ≤ t.nanos / 1000000
  omega

theorem IsDate.millis_le {t : Instant} (h : t.IsDate) : t.millis ≤ lastMillis := by
  have hlast : t.nanos ≤ lastMillis * 1000000 + 999999 := h.2
  show t.nanos / 1000000 ≤ lastMillis
  omega

/-- The milliseconds of a date are read as the start of its millisecond. -/
theorem ofMillis?_millis {t : Instant} (h : t.IsDate) : ofMillis? t.millis = some t.floor := by
  unfold ofMillis?
  rw [if_pos ⟨h.le_millis, h.millis_le⟩]
  rfl

/-- What is read as an instant is a date, and its milliseconds are those that were read. -/
theorem of_ofMillis? {m : Int} {t : Instant} (h : ofMillis? m = some t) : t.IsDate ∧ t.millis = m := by
  unfold ofMillis? at h
  split at h
  case isTrue hm =>
    obtain rfl := Option.some.inj h
    refine ⟨⟨?_, ?_⟩, ?_⟩
    · show firstMillis * 1000000 ≤ m * 1000000
      omega
    · show m * 1000000 ≤ lastMillis * 1000000 + 999999
      omega
    · show m * 1000000 / 1000000 = m
      omega
  case isFalse => exact nomatch h

/-- Later than a date is a date: the sum stops at the last one. -/
theorem IsDate.after {t : Instant} (h : t.IsDate) (d : Duration) : (t.after d).IsDate := by
  obtain ⟨h₁, h₂⟩ := h
  have hfl : first.nanos ≤ last.nanos := by decide
  constructor
  · show first.nanos ≤ min (t.nanos + d.nanos) last.nanos
    omega
  · show min (t.nanos + d.nanos) last.nanos ≤ last.nanos
    omega

end MediaBackup.Instant
