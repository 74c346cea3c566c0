import MediaBackup.Proofs.Engine.Protocol
import MediaBackup.Proofs.Store.Table
import MediaBackup.Queue.Attempt
import MediaBackup.Queue.Due
import MediaBackup.Queue.Enqueue

/-
  Workers that share one table of jobs.

  Any number of workers run operations of the queue, each operation one call after another, and between
  two calls of one operation there may be any calls of others.  A RUN is such an interleaving, told by its
  acts, newest first: an operation was begun, one of its calls was answered, or it ended.  Operations are
  numbered by the length of the past at which they begin, so a number names one call of an operation.

  Which operations may be begun is a policy, which sees the past.  The clock shows any date at any time.
  A statement may fail, and a statement that failed may have been run all the same.
-/

namespace MediaBackup.Workers

/-- The operations of the queue. -/
inductive Operation where
  | enqueue (request : JobRequest)
  | due
  | get (key : JobKey)
  /-- Claims the job of which there is this copy. -/
  | claim (copy : Job)
  /-- Completes the claim that gave this copy. -/
  | complete (copy : Job) (outcome : Outcome)
  | promote
  | recover
  | prune (retention : Duration)

namespace Operation

/-- What an operation returns. -/
abbrev Result : Operation → Type
  | enqueue _ => Enqueued
  | due => DueJobs
  | get _ | claim _ => Option Job
  | complete _ _ => Job
  | promote | recover | prune _ => Nat

/-- What an operation does. -/
def program (rules : RetryRules) : (op : Operation) → Engine op.Result
  | enqueue r => Queue.enqueue r
  | due => Queue.due
  | get key => Queue.get key
  | claim copy => Queue.claim copy
  | complete copy outcome => Queue.complete rules copy outcome
  | promote => Queue.promote
  | recover => Queue.recover
  | prune retention => Queue.prune retention

end Operation

/-- What happens in a run. -/
inductive Act where
  | begun (number : Nat) (op : Operation)
  /-- A call of an operation was answered, which made one table of the other. -/
  | called (number : Nat) (op : Operation) (call : Call) (answer : call.Answer) (before after : JobTable)
  | ended (number : Nat) (op : Operation) (result : Except Stop op.Result)

/-- The operation that acts, by its number. -/
def Act.number : Act → Nat
  | begun n _ | called n _ _ _ _ _ | ended n _ _ => n

/-- An operation under way. -/
structure Task where
  number : Nat
  op : Operation
  rest : Script Call Call.Answer (Except Stop op.Result)

/-- The table, and the operations under way on it. -/
structure Shop where
  jobs : JobTable
  tasks : List Task

/-- How a call is answered on a table, and what it makes of the table. -/
def Answers (before : JobTable) : (c : Call) → c.Answer → JobTable → Prop
  | .jobs s, .ok x, after => x = (s.run before).1 ∧ after = (s.run before).2
  | .jobs s, .error _, after => after = before ∨ after = (s.run before).2
  | .now, t, after => t.IsDate ∧ after = before
  | _, _, after => after = before

/-- A call runs one statement on the table, or none. -/
theorem Answers.table_eq {before after : JobTable} {c : Call} {x : c.Answer} (h : Answers before c x after) :
    after = before ∨ ∃ st, c = .jobs st ∧ after = (st.run before).2 := by
  cases c with
  | jobs st =>
    cases x with
    | ok x => exact .inr ⟨st, rfl, h.2⟩
    | error fault => exact h.imp_right fun he => ⟨st, rfl, he⟩
  | now => exact .inl h.2
  | _ => exact .inl h

/-- Which operations may be begun after a past. -/
abbrev Policy := List Act → Operation → Prop

/-- The runs of workers that start with a table and keep to a policy. -/
inductive Run (rules : RetryRules) (may : Policy) (start : JobTable) : List Act → Shop → Prop where
  | start : Run rules may start [] ⟨start, []⟩
  | begin {past : List Act} {shop : Shop} (h : Run rules may start past shop) (op : Operation)
      (hop : may past op) :
    Run rules may start (.begun past.length op :: past)
      { shop with tasks := ⟨past.length, op, (op.program rules).run⟩ :: shop.tasks }
  | call {past : List Act} {t t' : JobTable} {left right : List Task} {n : Nat} {op : Operation} {c : Call}
      {next : c.Answer → Script Call Call.Answer (Except Stop op.Result)} {x : c.Answer}
      (h : Run rules may start past ⟨t, left ++ ⟨n, op, .ask c next⟩ :: right⟩) (hx : Answers t c x t') :
    Run rules may start (.called n op c x t t' :: past) ⟨t', left ++ ⟨n, op, next x⟩ :: right⟩
  | finish {past : List Act} {t : JobTable} {left right : List Task} {n : Nat} {op : Operation}
      {r : Except Stop op.Result} (h : Run rules may start past ⟨t, left ++ ⟨n, op, .done r⟩ :: right⟩) :
    Run rules may start (.ended n op r :: past) ⟨t, left ++ right⟩

/-! ## What the past shows -/

/-- The acts of one operation. -/
def own (n : Nat) (past : List Act) : List Act := past.filter (·.number == n)

/-- The copies of jobs that were read from the table. -/
def seen : List Act → List Job
  | [] => []
  | .called _ _ (.jobs (.find _)) (.ok (some (.valid j))) _ _ :: past => j :: seen past
  | .called _ _ (.jobs (.listDue _)) (.ok rows) _ _ :: past =>
    (rows.filterMap fun
      | .valid j => some j
      | .corrupt _ _ => none) ++ seen past
  | _ :: past => seen past

/-- The copies that claims returned and whose completion was not begun yet. -/
def held : List Act → List Job
  | [] => []
  | .ended _ (.claim _) (.ok (some c)) :: past => c :: held past
  | .begun _ (.complete c _) :: past => (held past).erase c
  | _ :: past => held past

/-- The table after the past. -/
def tableAfter (start : JobTable) : List Act → JobTable
  | [] => start
  | .called _ _ _ _ _ after :: _ => after
  | _ :: past => tableAfter start past

theorem own_cons_of_eq {n : Nat} (a : Act) (past : List Act) (h : a.number = n) :
    own n (a :: past) = a :: own n past := List.filter_cons_of_pos (beq_iff_eq.2 h)

theorem own_cons_of_ne {n : Nat} (a : Act) (past : List Act) (h : a.number ≠ n) :
    own n (a :: past) = own n past := List.filter_cons_of_neg fun e => h (eq_of_beq e)

theorem mem_of_mem_own {n : Nat} {a : Act} {past : List Act} (h : a ∈ own n past) : a ∈ past :=
  (List.mem_filter.1 h).1

/-! ## Facts of every run -/

namespace Run

variable {rules : RetryRules} {may : Policy} {start : JobTable} {past : List Act} {shop : Shop}

/-- The table is the one that the last call left. -/
theorem jobs_eq (h : Run rules may start past shop) : shop.jobs = tableAfter start past := by
  induction h with
  | start => rfl
  | begin _ _ _ ih => exact ih
  | call _ _ _ => rfl
  | finish _ ih => exact ih

/-- Whoever acted later has a later number: all numbers of the past are below its length. -/
theorem number_lt (h : Run rules may start past shop) :
    (∀ t ∈ shop.tasks, t.number < past.length) ∧ ∀ a ∈ past, a.number < past.length := by
  induction h with
  | start => exact ⟨fun _ h => absurd h List.not_mem_nil, fun _ h => absurd h List.not_mem_nil⟩
  | begin _ _ _ ih =>
    obtain ⟨iht, iha⟩ := ih
    refine ⟨fun t ht => ?_, fun a ha => ?_⟩
    · rcases List.mem_cons.1 ht with rfl | ht
      · exact Nat.lt_succ_self _
      · exact Nat.lt_succ_of_lt (iht t ht)
    · rcases List.mem_cons.1 ha with rfl | ha
      · exact Nat.lt_succ_self _
      · exact Nat.lt_succ_of_lt (iha a ha)
  | @call past t t' left right n op c next x _ _ ih =>
    obtain ⟨iht, iha⟩ := ih
    have hn : n < past.length := iht ⟨n, op, .ask c next⟩ (List.mem_append_right _ List.mem_cons_self)
    refine ⟨fun u hu => ?_, fun a ha => ?_⟩
    · rcases List.mem_append.1 hu with hu | hu
      · exact Nat.lt_succ_of_lt (iht u (List.mem_append_left _ hu))
      · rcases List.mem_cons.1 hu with rfl | hu
        · exact Nat.lt_succ_of_lt hn
        · exact Nat.lt_succ_of_lt (iht u (List.mem_append_right _ (List.mem_cons_of_mem _ hu)))
    · rcases List.mem_cons.1 ha with rfl | ha
      · exact Nat.lt_succ_of_lt hn
      · exact Nat.lt_succ_of_lt (iha a ha)
  | @finish past t left right n op r _ ih =>
    obtain ⟨iht, iha⟩ := ih
    have hn : n < past.length := iht ⟨n, op, .done r⟩ (List.mem_append_right _ List.mem_cons_self)
    refine ⟨fun u hu => ?_, fun a ha => ?_⟩
    · rcases List.mem_append.1 hu with hu | hu
      · exact Nat.lt_succ_of_lt (iht u (List.mem_append_left _ hu))
      · exact Nat.lt_succ_of_lt (iht u (List.mem_append_right _ (List.mem_cons_of_mem _ hu)))
    · rcases List.mem_cons.1 ha with rfl | ha
      · exact Nat.lt_succ_of_lt hn
      · exact Nat.lt_succ_of_lt (iha a ha)

/-! A run is built call by call, where the operation that was begun last goes on. -/

theorem call_first {t : JobTable} {n : Nat} {op : Operation} {c : Call}
    {next : c.Answer → Script Call Call.Answer (Except Stop op.Result)} {others : List Task}
    (h : Run rules may start past ⟨t, ⟨n, op, .ask c next⟩ :: others⟩) (x : c.Answer) (t' : JobTable)
    (hx : Answers t c x t') :
    Run rules may start (.called n op c x t t' :: past) ⟨t', ⟨n, op, next x⟩ :: others⟩ :=
  @Run.call rules may start past t t' [] others n op c next x h hx

theorem finish_first {t : JobTable} {n : Nat} {op : Operation} {r : Except Stop op.Result} {others : List Task}
    (h : Run rules may start past ⟨t, ⟨n, op, .done r⟩ :: others⟩) :
    Run rules may start (.ended n op r :: past) ⟨t, others⟩ :=
  @Run.finish rules may start past t [] others n op r h

theorem call_alone {t : JobTable} {n : Nat} {op : Operation} {c : Call}
    {next : c.Answer → Script Call Call.Answer (Except Stop op.Result)}
    (h : Run rules may start past ⟨t, [⟨n, op, .ask c next⟩]⟩) (x : c.Answer) (t' : JobTable)
    (hx : Answers t c x t') : Run rules may start (.called n op c x t t' :: past) ⟨t', [⟨n, op, next x⟩]⟩ :=
  h.call_first x t' hx

theorem finish_alone {t : JobTable} {n : Nat} {op : Operation} {r : Except Stop op.Result}
    (h : Run rules may start past ⟨t, [⟨n, op, .done r⟩]⟩) :
    Run rules may start (.ended n op r :: past) ⟨t, []⟩ :=
  h.finish_first

end Run

end MediaBackup.Workers
