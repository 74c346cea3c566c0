import MediaBackup.Error.Setting
import MediaBackup.Text.Bytes

/-
  The levels of logs, and how far logs go: the least level that still passes, if any does.

  A limit is written as the name of a level in any case of letters, or as a number, from 0 for nothing
  to 5 for everything.
-/

namespace MediaBackup

/-- How much a log line matters. -/
inductive LogLevel where
  | trace
  | debug
  | info
  | warn
  | error
deriving DecidableEq, Repr, Inhabited

namespace LogLevel

/-- The name of a level. -/
def name : LogLevel → String
  | trace => "trace"
  | debug => "debug"
  | info => "info"
  | warn => "warn"
  | error => "error"

/-- The place of a level among all, from the one that matters least. -/
def rank : LogLevel → Nat
  | trace => 0
  | debug => 1
  | info => 2
  | warn => 3
  | error => 4

/-- The level of a name in small letters. -/
def ofLowered? : String → Option LogLevel
  | "trace" => some trace
  | "debug" => some debug
  | "info" => some info
  | "warn" | "warning" => some warn
  | "error" => some error
  | _ => none

/-- The level of a name, whatever the case of its letters. -/
def parse (s : String) : Except SettingFault LogLevel :=
  match ofLowered? (Text.lowerAscii s) with
  | some level => .ok level
  | none => .error (.unknownLevel (Text.lowerAscii s))

/-- All levels, from the one that matters most. -/
def all : List LogLevel := [error, warn, info, debug, trace]

end LogLevel

/-! ## Limits -/

namespace Log

/-- The least level that passes; none if nothing does. -/
abbrev Limit := Option LogLevel

namespace Limit

/-- A level passes a limit. -/
def passes (l : Limit) (level : LogLevel) : Bool :=
  match l with
  | none => false
  | some least => least.rank ≤ level.rank

/-- The one of two limits that lets more pass. -/
def wider (a b : Limit) : Limit :=
  match a, b with
  | none, b => b
  | a, none => a
  | some x, some y => if x.rank ≤ y.rank then some x else some y

theorem passes_wider (a b : Limit) (level : LogLevel) :
    (wider a b).passes level = (a.passes level || b.passes level) := by
  rcases a with _ | x <;> rcases b with _ | y
  · rfl
  · rfl
  · exact (Bool.or_false _).symm
  · by_cases h : x.rank ≤ y.rank
    · rw [wider, if_pos h, Bool.eq_iff_iff]
      simp only [passes, Bool.or_eq_true, decide_eq_true_eq]
      omega
    · rw [wider, if_neg h, Bool.eq_iff_iff]
      simp only [passes, Bool.or_eq_true, decide_eq_true_eq]
      omega

/-- The widest of some limits. -/
def widest (ls : List Limit) : Limit := ls.foldl wider none

/-- The limit of a number. -/
def ofNumber? : Nat → Option Limit
  | 0 => some none
  | 1 => some (some .error)
  | 2 => some (some .warn)
  | 3 => some (some .info)
  | 4 => some (some .debug)
  | 5 => some (some .trace)
  | _ => none

end Limit

/-- The number of a text of digits, which may have a plus before it. -/
def number? (s : List Char) : Option Nat :=
  let digits := match s with
    | '+' :: r => r
    | r => r
  if digits.isEmpty || !digits.all Char.isDigit then none
  else some (digits.foldl (fun n c => n * 10 + (c.toNat - '0'.toNat)) 0)

/-- The limit of a name or of a number. -/
def Limit.ofText? (s : List Char) : Option Limit :=
  match (number? s).bind ofNumber? with
  | some l => some l
  | none => match Text.lowerAscii (String.ofList s) with
    | "off" => some none
    | "warning" => none
    | name => (LogLevel.ofLowered? name).map some

end Log

end MediaBackup
