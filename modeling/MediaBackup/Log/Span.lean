import MediaBackup.Log.Level

/-
  Spans: stretches of work that log lines are written within.
-/

namespace MediaBackup.Log

/-- A value that is known of a span. -/
inductive Value where
  | whole (n : Int)
  | text (s : String)
deriving DecidableEq, Repr

/-- A span: a stretch of work under a name, with what is known of it. -/
structure Span where
  name : String
  target : String
  level : LogLevel
  fields : List (String × Value)
deriving Repr

/-- The value under a name. -/
def Span.value? (s : Span) (name : String) : Option Value := (s.fields.find? (·.1 == name)).map (·.2)

end MediaBackup.Log
