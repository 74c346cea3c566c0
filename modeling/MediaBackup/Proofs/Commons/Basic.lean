import Mathlib.Logic.Relation
import MediaBackup.Proofs.Life.Basic
import MediaBackup.Proofs.Recovery.Basic
import MediaBackup.Proofs.Workers.Customs

/-
  Two tables that everybody shares.

  COMMONS are the two tables with all that is under way on them.  Any number of undertakings may be begun, each with
  any arguments that its program can be given; whatever is under way goes on call by call in any order, and may
  be given up between any two calls.  The world answers as a scene does: a statement may fail, and one that
  failed may have been run all the same.

  Nothing is asked of the copies of jobs that claims and completions are begun with but that a row could hold
  them.  So every snapshot counts as one, however old it is.
-/

namespace MediaBackup

/-- What can be undertaken on the tables. -/
inductive Undertaking where
  | operation (op : Workers.Operation)
  | start (started : Bool)
  | dispatch
  | discover (id : String) (time : Instant)
  | acknowledge (id : String) (time : Instant)
  /-- Works at the job of which there is this copy. -/
  | work (copy : Job)

namespace Undertaking

/-- What an undertaking returns. -/
abbrev Result : Undertaking → Type
  | operation op => op.Result
  | start _ | dispatch => Nat
  | discover _ _ => Bool
  | acknowledge _ _ => Unit
  | work _ => JobState

/-- What an undertaking does. -/
def program (b : Backup) : (u : Undertaking) → Engine u.Result
  | operation op => op.program b.retry
  | start started => Backup.start started
  | dispatch => Queue.dispatch b.constraints
  | discover id time => Ledger.discover id time
  | acknowledge id time => Ledger.markUploaded id time
  | work copy => b.work copy

/-- A copy is one that a row could hold, and a time is one of the calendar. -/
def IsProper : Undertaking → Prop
  | operation (.claim copy) | operation (.complete copy _) | work copy => copy.IsProper ∧ copy.key.IsProper
  | discover _ time | acknowledge _ time => time.IsDate
  | _ => True

end Undertaking

namespace Commons

/-- An undertaking under way. -/
structure Task where
  undertaking : Undertaking
  rest : Script Call Call.Answer (Except Stop undertaking.Result)

end Commons

/-- The tables, and what is under way on them. -/
structure Commons where
  scene : Scene
  tasks : List Commons.Task

namespace Commons

/-- A step on the commons. -/
inductive Step (b : Backup) : Commons → Commons → Prop where
  | begin {s : Scene} {tasks : List Task} (u : Undertaking) (hu : u.IsProper) :
    Step b ⟨s, tasks⟩ ⟨s, ⟨u, (u.program b).run⟩ :: tasks⟩
  | call {s t : Scene} {left right : List Task} {u : Undertaking} {c : Call}
      {next : c.Answer → Script Call Call.Answer (Except Stop u.Result)} {x : c.Answer} (hx : s.Answers c x t) :
    Step b ⟨s, left ++ ⟨u, .ask c next⟩ :: right⟩ ⟨t, left ++ ⟨u, next x⟩ :: right⟩
  /-- An undertaking has ended, or is given up. -/
  | leave {s : Scene} {left right : List Task} {task : Task} : Step b ⟨s, left ++ task :: right⟩ ⟨s, left ++ right⟩

/-- What the commons can come to. -/
def Reaches (b : Backup) : Commons → Commons → Prop := Relation.ReflTransGen (Step b)

/-- The commons with nothing under way. -/
def still (s : Scene) : Commons := ⟨s, []⟩

/-- The undertaking that was begun last goes on. -/
theorem Step.call_first {b : Backup} {s : Scene} {u : Undertaking} {tasks : List Task} {c : Call}
    {next : c.Answer → Script Call Call.Answer (Except Stop u.Result)} (x : c.Answer) (t : Scene)
    (hx : s.Answers c x t) : Step b ⟨s, ⟨u, .ask c next⟩ :: tasks⟩ ⟨t, ⟨u, next x⟩ :: tasks⟩ :=
  @Step.call b s t [] tasks u c next x hx

namespace Reaches

variable {b : Backup} {o : Commons} {s : Scene} {u : Undertaking} {tasks : List Task}

/-! The commons come to something call by call, where the undertaking that was begun last goes on. -/

theorem begin (h : Reaches b o ⟨s, tasks⟩) (u : Undertaking) (hu : u.IsProper) :
    Reaches b o ⟨s, ⟨u, (u.program b).run⟩ :: tasks⟩ := h.tail (.begin u hu)

theorem call {c : Call} {next : c.Answer → Script Call Call.Answer (Except Stop u.Result)}
    (h : Reaches b o ⟨s, ⟨u, .ask c next⟩ :: tasks⟩) (x : c.Answer) (t : Scene) (hx : s.Answers c x t) :
    Reaches b o ⟨t, ⟨u, next x⟩ :: tasks⟩ := h.tail (.call_first x t hx)

theorem leave {task : Task} (h : Reaches b o ⟨s, task :: tasks⟩) : Reaches b o ⟨s, tasks⟩ :=
  h.tail (@Step.leave b s [] tasks task)

end Reaches

/-- A backup of photos. -/
def photos : Backup := ⟨.standard, .toward "https://host/items", .network, 1⟩

end Commons

end MediaBackup
