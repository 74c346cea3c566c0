import MediaBackup.Job.Basic
import MediaBackup.Job.Constraints
import MediaBackup.Proofs.Time.Dates

/-
  What a job is made of, as texts.

  States, reasons and constraints are read back from their texts, and a text is read as a state or a
  reason only if it is the name of it.
-/

namespace MediaBackup

namespace JobState

theorem eq_name_of_parse? {s : String} {t : JobState} (h : parse? s = some t) : s = t.name := by
  unfold parse? at h
  split at h <;> cases h <;> rfl

/-- A row's text is read as a state exactly if it is the name of it and the state can be stored. -/
theorem ofStored?_eq_some_iff {s : String} {t : JobState} :
    ofStored? s = some t ↔ s = t.name ∧ t ≠ failed := by
  unfold ofStored?
  rw [Option.filter_eq_some_iff]
  constructor
  · rintro ⟨hp, hs⟩
    exact ⟨eq_name_of_parse? hp, fun e => by rw [e] at hs; exact nomatch hs⟩
  · rintro ⟨rfl, hf⟩
    refine ⟨parse?_name t, ?_⟩
    cases t with
    | failed => exact absurd rfl hf
    | _ => rfl

theorem name_injective {s t : JobState} (h : s.name = t.name) : s = t := by
  have hs := parse?_name s
  rw [h, parse?_name t] at hs
  exact (Option.some.inj hs).symm

end JobState

namespace AbandonReason

theorem eq_name_of_parse? {s : String} {r : AbandonReason} (h : parse? s = some r) : s = r.name := by
  unfold parse? at h
  split at h <;> cases h <;> rfl

theorem name_injective {a b : AbandonReason} (h : a.name = b.name) : a = b := by
  have ha := parse?_name a
  rw [h, parse?_name b] at ha
  exact (Option.some.inj ha).symm

theorem map_name_injective {a b : Option AbandonReason} (h : a.map name = b.map name) : a = b :=
  Option.map_injective (fun _ _ => name_injective) h

end AbandonReason

namespace Constraints

/-- Reading the text gives these constraints. -/
def isReadAs (s : String) (c : Constraints) : Bool :=
  match ofText s with
  | .ok d => d == c
  | .error _ => false

theorem ofText_of_isReadAs {s : String} {c : Constraints} (h : isReadAs s c = true) : ofText s = .ok c := by
  unfold isReadAs at h
  split at h
  · rename_i d hd
    rw [hd, eq_of_beq h]
  · exact nomatch h

/-- Constraints are read back from their text. -/
theorem ofText_text (c : Constraints) : ofText c.text = .ok c := by
  have h : ∀ network unmetered, isReadAs (text ⟨network, unmetered⟩) ⟨network, unmetered⟩ = true := by
    decide +kernel
  exact ofText_of_isReadAs (h c.requiresNetwork c.requiresUnmetered)

/-- The empty object is no demand. -/
theorem ofText_empty : ofText "\x7b\x7d" = .ok none := ofText_of_isReadAs (by decide +kernel)

end Constraints

namespace Job

/-- The job is one that a row can hold: a count of attempts in 32 bits, a state that may be stored, and
    dates in the calendar. -/
structure IsProper (j : Job) : Prop where
  state : j.state ≠ .failed
  attempt : j.attempt < UInt32.size
  nextRunAt : j.nextRunAt.IsDate
  createdAt : j.createdAt.IsDate
  updatedAt : j.updatedAt.IsDate

/-- A fresh job is proper on every date. -/
theorem fresh_isProper (r : JobRequest) {now : Instant} (h : now.IsDate) : (fresh r now).IsProper :=
  ⟨JobState.noConfusion, Nat.zero_lt_succ _, h, h, h⟩

end Job

end MediaBackup
