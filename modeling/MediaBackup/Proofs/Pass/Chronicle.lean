import MediaBackup.Proofs.Pass.Crew
import MediaBackup.Proofs.Queue.Solo

/-
  Passes whose calls are written down.

  A CHRONICLE is a table of jobs with every call that was made, newest first, its answer, and the table before and after
  it.  So what holds at the end of a pass can be told by what happened in it.  There are two worlds: in the `Wild` one
  every call may be answered with anything, and the table may be anything after it; in the `Unfailing` one nobody else
  writes to the table and the database never fails, and all the rest answers as it likes.

  The protocol `noted` follows a program by its own entries.  A program that keeps to any protocol under which its
  entries are known was led to its value by them (`Keeps.noted`).
-/

namespace MediaBackup

/-- An answer of the clock is a date. -/
def Call.IsDated : (c : Call) → c.Answer → Prop
  | .now, t => t.IsDate
  | _, _ => True

/-- A call that was answered, and the table of jobs before and after it. -/
structure Entry where
  call : Call
  answer : call.Answer
  before : JobTable
  after : JobTable

/-- What the database failed with. -/
def Entry.faults (e : Entry) : List StoreFault := e.call.faults e.answer

/-- A table of jobs, and what happened to it, newest first. -/
structure Chronicle where
  jobs : JobTable
  past : List Entry

namespace Chronicle

/-- The chronicle after a call that left the given table. -/
def write (w : Chronicle) (c : Call) (x : c.Answer) (after : JobTable) : Chronicle :=
  ⟨after, ⟨c, x, w.jobs, after⟩ :: w.past⟩

/-- Anything may be the answer, and anybody may have written. -/
def Wild : Ways Chronicle := fun w c x v => c.IsDated x ∧ ∃ after, v = w.write c x after

/-- The table answers, and nobody else writes to it; the database does not fail. -/
def Unfailing : Ways Chronicle := fun w c x v =>
  c.faults x = [] ∧ ∃ after, Workers.Answers w.jobs c x after ∧ v = w.write c x after

/-- Also there the clock shows dates. -/
theorem Unfailing.isDated {w v : Chronicle} {c : Call} {x : c.Answer} (h : Unfailing w c x v) : c.IsDated x := by
  obtain ⟨-, after, hanswers, -⟩ := h
  cases c with
  | now => exact hanswers.1
  | _ => trivial

theorem exists_wild (w : Chronicle) (c : Call) : ∃ x v, Wild w c x v := by
  cases c with
  | jobs st => exact ⟨.error .closed, _, trivial, [], rfl⟩
  | items st => exact ⟨.error .closed, _, trivial, [], rfl⟩
  | now => exact ⟨.epoch, _, (by decide : Instant.epoch.IsDate), [], rfl⟩
  | emit e => exact ⟨(), _, trivial, [], rfl⟩
  | network => exact ⟨none, _, trivial, [], rfl⟩
  | list => exact ⟨.crashed none, _, trivial, [], rfl⟩
  | openItem id => exact ⟨.crashed none, _, trivial, [], rfl⟩
  | send request body => exact ⟨(0 : Nat), _, trivial, [], rfl⟩
  | await n => exact ⟨.late, _, trivial, [], rfl⟩

theorem exists_unfailing (w : Chronicle) (c : Call) : ∃ x v, Unfailing w c x v := by
  cases c with
  | jobs st => exact ⟨.ok (st.run w.jobs).1, _, rfl, _, ⟨rfl, rfl⟩, rfl⟩
  | items st => exact ⟨.ok (st.run []).1, _, rfl, _, rfl, rfl⟩
  | now => exact ⟨.epoch, _, rfl, _, ⟨by decide, rfl⟩, rfl⟩
  | emit e => exact ⟨(), _, rfl, _, rfl, rfl⟩
  | network => exact ⟨none, _, rfl, _, rfl, rfl⟩
  | list => exact ⟨.crashed none, _, rfl, _, rfl, rfl⟩
  | openItem id => exact ⟨.crashed none, _, rfl, _, rfl, rfl⟩
  | send request body => exact ⟨(0 : Nat), _, rfl, _, rfl, rfl⟩
  | await n => exact ⟨.late, _, rfl, _, rfl, rfl⟩

end Chronicle

/-! ## Programs and their own entries -/

/-- The protocol of programs that are followed by their own entries. -/
def noted : Protocol Call Call.Answer (List Entry) where
  may _ _ := True
  answers told c x told' := c.IsDated x ∧ ∃ before after, told' = ⟨c, x, before, after⟩ :: told

/-- The program comes to the value if its calls are answered so. -/
def Engine.LedTo {α : Type} (p : Engine α) (told : List Entry) (a : α) : Prop :=
  Script.Reaches noted p.run [] (.done (.ok a)) told

/-- Where the entries of a program are known, they led it to its value. -/
theorem Script.Keeps.noted {σ α : Type} {w : Protocol Call Call.Answer σ} {post : α → σ → Prop}
    {rel : σ → List Entry → Prop} {p q : Script Call Call.Answer α} {s : σ} {start told : List Entry}
    (hans : ∀ s told c x t, rel s told → w.may s c → w.answers s c x t →
      ∃ told', MediaBackup.noted.answers told c x told' ∧ rel t told')
    (hp : p.Keeps w post s) (hrel : rel s told) (hq : Reaches MediaBackup.noted q start p told) :
    p.Keeps w (fun a t => post a t ∧ ∃ told', rel t told' ∧ Reaches MediaBackup.noted q start (.done a) told') s := by
  induction p generalizing s told with
  | done a => exact ⟨hp, told, hrel, hq⟩
  | ask c next ih =>
    refine ⟨hp.1, fun x t ht => ?_⟩
    obtain ⟨told', htold, hrel'⟩ := hans s told c x t hrel hp.1 ht
    exact ih x (hp.2 x t ht) hrel' (hq.goes htold)

/-- The same for programs that may stop. -/
theorem Engine.meets_ledTo {σ α : Type} {w : Protocol Call Call.Answer σ} {good : α → σ → Prop}
    {bad : Stop → σ → Prop} {rel : σ → List Entry → Prop} {p : Engine α} {s : σ}
    (hans : ∀ s told c x t, rel s told → w.may s c → w.answers s c x t →
      ∃ told', noted.answers told c x told' ∧ rel t told')
    (hp : Script.Meets w good bad p s) (hrel : rel s []) :
    Script.Meets w (fun a t => good a t ∧ ∃ told, rel t told ∧ p.LedTo told a) bad p s := by
  refine Script.Keeps.mono (fun r t h => ?_) (Script.Keeps.noted hans hp hrel .here)
  obtain ⟨hr, told, hrel', hreaches⟩ := h
  cases r with
  | ok a => exact ⟨hr, told, hrel', hreaches⟩
  | error e => exact hr

end MediaBackup
