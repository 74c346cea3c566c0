import MediaBackup.Proofs.Life.Scene
import MediaBackup.Proofs.Life.Tame

/-
  The account of one item.

  An item is SETTLED if it is uploaded and its job is over or gone: nothing will send it again.  An item that is
  not settled may be sent once more, so its acknowledgements so far have to be covered by interruptions.
  `Balanced` says so, with a CREDIT of one for an acknowledgement that an upload under way has in hand.  An
  interruption takes all credits and leaves a count of one more in their place (`Balanced.interrupt`).
-/

namespace MediaBackup

namespace Scene

/-- The item is uploaded, and its job is over or gone. -/
def Settled (s : Scene) (id : String) : Prop := s.items.Uploaded id ∧ ∀ r,
    s.jobs.upload? id = some r → r.IsOver

/-- How often the item was acknowledged. -/
def count (s : Scene) (id : String) : Nat := s.acknowledged.count id

/-- The account of an item after so many interruptions. -/
structure Balanced (s : Scene) (interrupted : Nat) (credit : Prop) (id : String) : Prop where
  /-- Only known items have a job. -/
  known : ∀ r, s.jobs.upload? id = some r → s.items.Knows id
  /-- A job has succeeded only if its item is uploaded. -/
  done : ∀ r, s.jobs.upload? id = some r → r.state = JobState.succeeded.name → s.items.Uploaded id
  /-- An item is uploaded only if it was acknowledged. -/
  sent : s.items.Uploaded id → 0 < s.count id
  most : s.count id ≤ interrupted + 1
  fair : ¬ credit → ¬ s.Settled id → s.count id ≤ interrupted

namespace Balanced

variable {s t : Scene} {interrupted : Nat} {credit credit' : Prop} {id : String}

/-- More credit does no harm. -/
theorem mono (h : s.Balanced interrupted credit id) (hc : credit → credit') :
    s.Balanced interrupted credit' id :=
  { h with fair := fun hn => h.fair fun hp => hn (hc hp) }

/-- An interruption takes the credit. -/
theorem interrupt (h : s.Balanced interrupted credit id) : s.Balanced (interrupted + 1) False id :=
  { h with most := Nat.le_succ_of_le h.most, fair := fun _ _ => h.most }

/-- The account depends on the row, the item and the acknowledgements. -/
theorem same (h : s.Balanced interrupted credit id) (hj : t.jobs.upload? id = s.jobs.upload? id)
    (hi : t.items.row? id = s.items.row? id) (ha : t.count id = s.count id) :
    t.Balanced interrupted credit id := by
  have hk : t.items.Knows id ↔ s.items.Knows id := by
    unfold ItemTable.Knows
    rw [hi]
  have hu : t.items.Uploaded id ↔ s.items.Uploaded id := by
    unfold ItemTable.Uploaded
    rw [hi]
  have hs : t.Settled id ↔ s.Settled id := by
    unfold Settled
    rw [hu, hj]
  constructor
  · rw [hj, hk]
    exact h.known
  · rw [hj, hu]
    exact h.done
  · rw [hu, ha]
    exact h.sent
  · rw [ha]
    exact h.most
  · rw [hs, ha]
    exact h.fair

/-- What becomes tamely of the table of jobs keeps the account. -/
theorem tame (h : s.Balanced interrupted credit id) {jobs : JobTable}
    (ht : JobRow.Tame (s.jobs.upload? id) (jobs.upload? id)) :
    ({ s with jobs := jobs } : Scene).Balanced interrupted credit id where
  known r' hr' := by
    obtain ⟨r, hr⟩ := ht.known r' hr'
    exact h.known r hr
  done r' hr' hs' := by
    obtain ⟨r, hr, hs⟩ := ht.done r' hr' hs'
    exact h.done r hr hs
  sent := h.sent
  most := h.most
  fair hn hs := h.fair hn fun ⟨hu, ho⟩ => hs ⟨hu, ht.ended ho⟩

/-- So does every statement on the items that marks only what was acknowledged. -/
theorem items (h : s.Balanced interrupted credit id) {st : ItemStatement}
    (hm : ∀ time, st = .mark id time → 0 < s.count id) :
    ({ s with items := (st.run s.items).2 } : Scene).Balanced interrupted credit id where
  known r hr := (h.known r hr).run st
  done r hr hs := (h.done r hr hs).run st
  sent hu := by
    rcases ItemTable.uploaded_of_run hu with hu | ⟨time, he⟩
    · exact h.sent hu
    · exact hm time he
  most := h.most
  fair hn hs := h.fair hn fun ⟨hu, ho⟩ => hs ⟨hu.run st, ho⟩

/-- An acknowledgement is counted and gives credit. -/
theorem acknowledge (h : s.Balanced interrupted credit id) (hn : ¬ credit) (hs : ¬ s.Settled id)
    (hc : credit') :
    ({ s with acknowledged := id :: s.acknowledged } : Scene).Balanced interrupted credit' id := by
  have hcount : ({ s with acknowledged := id :: s.acknowledged } : Scene).count id = s.count id + 1 :=
    List.count_cons_self
  constructor
  · exact h.known
  · exact h.done
  · intro _
    rw [hcount]
    exact Nat.succ_pos _
  · rw [hcount]
    exact Nat.succ_le_succ (h.fair hn hs)
  · exact fun hn => absurd hc hn

/-- The row of a job that was not over becomes another one. -/
theorem setRow (h : s.Balanced interrupted credit id) {jobs : JobTable} (hk : s.items.Knows id)
    (hd : ∀ r, jobs.upload? id = some r → r.state = JobState.succeeded.name → s.items.Uploaded id)
    (hf : ¬ credit' → ¬ ({ s with jobs := jobs } : Scene).Settled id → ¬ credit ∧ ¬ s.Settled id) :
    ({ s with jobs := jobs } : Scene).Balanced interrupted credit' id where
  known _ _ := hk
  done := hd
  sent := h.sent
  most := h.most
  fair hn hs := h.fair (hf hn hs).1 (hf hn hs).2

end Balanced

/-- An item that nobody heard of is in balance. -/
theorem balanced_of_none {s : Scene} {interrupted : Nat} {id : String} (hj : s.jobs.upload? id = none)
    (hi : s.items.row? id = none) (ha : s.count id = 0) : s.Balanced interrupted False id where
  known r hr := by
    rw [hj] at hr
    exact nomatch hr
  done r hr _ := by
    rw [hj] at hr
    exact nomatch hr
  sent := by
    rintro ⟨r, hr, _⟩
    rw [hi] at hr
    exact nomatch hr
  most := by rw [ha]; exact Nat.zero_le _
  fair _ _ := by rw [ha]; exact Nat.zero_le _

end Scene

end MediaBackup
