/-
  Scripts: programs that ask one question after another.

  A script is done with a value, or it asks a question and goes on with the answer.  Who answers is
  left open, so one script can be run on a table, on a table that others change too, or on every
  table at once in a proof.  Every script ends: there is no bound on how many questions it asks,
  but after each answer what is left is a smaller script (`Script.Follows`, `Script.follows_wf`).

  A row of scripts can be run in any order, one question at a time (`Script.RowFollows`), and still
  ends, whatever the order (`Script.rowFollows_wf`).
-/

namespace MediaBackup

/-- A program that asks questions of type `E`; the answer to `e` is an `A e`. -/
inductive Script (E : Type) (A : E → Type) (α : Type) : Type where
  | done (a : α)
  | ask (e : E) (next : A e → Script E A α)

namespace Script

variable {E : Type} {A : E → Type} {α β σ : Type}

/-- Goes on with the value of a script. -/
def bind : Script E A α → (α → Script E A β) → Script E A β
  | done a, f => f a
  | ask e next, f => ask e fun x => (next x).bind f

instance : Monad (Script E A) where
  pure := done
  bind := bind

/-- One question, whose answer is the value. -/
def question (e : E) : Script E A (A e) := ask e done

/-- Runs a script where `answer` answers from a state and changes it. -/
def run (answer : (e : E) → σ → A e × σ) : Script E A α → σ → α × σ
  | done a, s => (a, s)
  | ask e next, s => (next (answer e s).1).run answer (answer e s).2

theorem run_bind (answer : (e : E) → σ → A e × σ) (p : Script E A α) (f : α → Script E A β) (s : σ) :
    (p.bind f).run answer s = (f (p.run answer s).1).run answer (p.run answer s).2 := by
  induction p generalizing s with
  | done a => rfl
  | ask e next ih => exact ih _ _

/-! ## Every script ends -/

/-- `p` is what is left of `q` after one answer. -/
inductive Follows : Script E A α → Script E A α → Prop where
  | mk (e : E) (next : A e → Script E A α) (x : A e) : Follows (next x) (ask e next)

theorem follows_wf : WellFounded (Follows (E := E) (A := A) (α := α)) := by
  constructor
  intro p
  induction p with
  | done a => exact ⟨_, fun _ h => nomatch h⟩
  | ask e next ih => exact ⟨_, fun _ h => by cases h with | mk _ _ x => exact ih x⟩

/-- The row `p` is the row `q` after one of its scripts got an answer, or left. -/
inductive RowFollows : List (Script E A α) → List (Script E A α) → Prop where
  | leave (s : Script E A α) (r : List (Script E A α)) : RowFollows r (s :: r)
  | answer {s t : Script E A α} (h : Follows t s) (r : List (Script E A α)) : RowFollows (t :: r) (s :: r)
  | later (s : Script E A α) {p q : List (Script E A α)} (h : RowFollows p q) : RowFollows (s :: p) (s :: q)

theorem rowFollows_wf : WellFounded (RowFollows (E := E) (A := A) (α := α)) := by
  constructor
  intro row
  induction row with
  | nil => exact ⟨_, fun _ h => nomatch h⟩
  | cons s r ih =>
    induction follows_wf.apply s generalizing r with
    | intro s _ ihs =>
      induction ih with
      | intro r hr ihr =>
        refine ⟨_, fun p h => ?_⟩
        cases h with
        | leave => exact ⟨_, hr⟩
        | answer h => exact ihs _ h _ ⟨_, hr⟩
        | later _ h => exact ihr _ h

/-- One answer to the script at a place of a row, or its leave with its value: what is left of the
    row, the value of a script that left, and the state. -/
def advanceAt (answer : (e : E) → σ → A e × σ) :
    (row : List (Script E A α)) → Nat → σ → Option ({ p // RowFollows p row } × Option α × σ)
  | [], _, _ => none
  | done a :: r, 0, s => some (⟨r, .leave (done a) r⟩, some a, s)
  | ask e next :: r, 0, s =>
    some (⟨next (answer e s).1 :: r, .answer (.mk e next (answer e s).1) r⟩, none, (answer e s).2)
  | t :: r, i + 1, s => (advanceAt answer r i s).map fun m => (⟨t :: m.1.1, .later t m.1.2⟩, m.2)

end Script

end MediaBackup
