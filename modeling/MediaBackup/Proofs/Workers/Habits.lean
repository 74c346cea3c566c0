import MediaBackup.Proofs.Workers.Conduct

/-
  What an operation writes, on any table.

  The HABITS of an operation are the part of its conduct (`conduct`) that says what it writes: a claim counts one
  attempt, a completion keeps the count, and a row is given up only under a key whose row the operation itself
  could not read, at an act of its own that came before (`Overwrites`).

  The crux is `Run.habitual`: in every run, under any policy, every call is one that its operation may make.
-/

namespace MediaBackup.Workers

open Script

/-! ## What an operation may write -/

/-- What an operation may run on the table after its acts so far. -/
def Operation.MayWrite : Operation → List Act → JobStatement → Prop
  | enqueue r, _, .find key => key = r.key.text
  | enqueue r, _, .insertIfAbsent job => job.key = r.key
  | enqueue r, _, .replaceIf job _ => job.key = r.key
  | enqueue _, acts, .quarantine key words _ => Overwrites key words acts
  | due, _, .listDue _ => True
  | due, acts, .quarantine key words _ => Overwrites key words acts
  | get key, _, .find text => text = key.text
  | claim j, _, .updateIf observed change =>
    observed = j ∧ j.state = .queued ∧ ∃ now, change = j.claimChange now
  | complete c o, _, .updateIf observed change =>
    observed = c ∧ c.state = .running ∧ change.attempt = c.attempt ∧ o.Gives change.state
  | promote, _, .promote _ => True
  | recover, _, .resetRunning _ => True
  | prune _, _, .deleteTerminal _ => True
  | _, _, _ => False

/-- What the result of an operation tells about its acts.  It is said of completions alone. -/
def Operation.Returns : (op : Operation) → List Act → Except Stop op.Result → Prop
  | complete c o, acts, result => c.state = .running →
    (∃ fault, result = .error (.failed (.database fault))) ∨
      (∃ target, result = .error (.failed (.transition (.changedWhileRunning .running target))) ∧
        o.Gives target) ∨
      ∃ n change before after, .called n (.complete c o) (.jobs (.updateIf c change)) (.ok true) before after
        ∈ acts
  | _, _, _ => True

/-- What an operation may ask after its acts so far, and what it has to expect: whatever a call can be
    answered on a table in which no two rows have one key. -/
def habits (n : Nat) (op : Operation) : Protocol Call Call.Answer (List Act) where
  may acts c := match c with
    | .jobs s => op.MayWrite acts s
    | .now | .emit _ => True
    | _ => False
  answers acts c x acts' := ∃ before after, before.Keyed ∧ Answers before c x after ∧
    acts' = .called n op c x before after :: acts

/-! ## The conduct of an operation is habitual -/

variable {rules : RetryRules} {n : Nat} {op : Operation} {acts : List Act}

theorem Operation.MayDo.mayWrite {s : JobStatement} (h : op.MayDo rules acts s) : op.MayWrite acts s := by
  cases op with
  | enqueue r =>
    cases s with
    | find key => exact h
    | insertIfAbsent job =>
      obtain ⟨now, _, rfl⟩ := h
      rfl
    | replaceIf job observed =>
      obtain ⟨⟨now, _, rfl⟩, _⟩ := h
      rfl
    | quarantine key words now => exact h.1
    | _ => exact h.elim
  | due =>
    cases s with
    | listDue now => trivial
    | quarantine key words now => exact h.1
    | _ => exact h.elim
  | get key =>
    cases s with
    | find text => exact h
    | _ => exact h.elim
  | claim j =>
    cases s with
    | updateIf observed change =>
      obtain ⟨rfl, hq, _, now, _, rfl⟩ := h
      exact ⟨rfl, hq, now, rfl⟩
    | _ => exact h.elim
  | complete c o =>
    cases s with
    | updateIf observed change =>
      obtain ⟨rfl, hrun, _, now, _, rfl⟩ := h
      exact ⟨rfl, hrun, rfl, Verdict.gives_of ..⟩
    | _ => exact h.elim
  | promote =>
    cases s with
    | promote now => trivial
    | _ => exact h.elim
  | recover =>
    cases s with
    | resetRunning now => trivial
    | _ => exact h.elim
  | prune retention =>
    cases s with
    | deleteTerminal limit => trivial
    | _ => exact h.elim

theorem Operation.Concludes.returns {r : Except Stop op.Result} (h : op.Concludes rules n acts r) :
    op.Returns acts r := by
  cases op with
  | complete c o =>
    intro hrun
    cases r with
    | ok d =>
      obtain ⟨now, hupdate, _⟩ := h
      obtain ⟨before, after, hmem⟩ := hupdate.mem
      exact .inr (.inr ⟨n, _, before, after, hmem⟩)
    | error e =>
      rcases h with ⟨hno, _⟩ | ⟨_, now, _, rfl⟩ | ⟨now, fault, _, rfl⟩
      · exact absurd hrun hno
      · refine .inr (.inl ⟨(completeChange rules c o now).state, ?_, Verdict.gives_of ..⟩)
        rw [hrun]
      · exact .inl ⟨fault, rfl⟩
  | _ => trivial

theorem habits_may_of_conduct {c : Call} (h : (conduct rules n op).may acts c) : (habits n op).may acts c := by
  cases c with
  | jobs s => exact Operation.MayDo.mayWrite h
  | now => trivial
  | emit _ => trivial
  | _ => exact h.elim

/-! ## Every run is habitual -/

variable {may : Policy} {start : JobTable} {past : List Act} {shop : Shop}

/-- What every call of a run was: one that its operation may make, after its begin and on the table that the past
    left. -/
structure Usual (start : JobTable) (earlier : List Act) (n : Nat) (op : Operation) (c : Call) (x : c.Answer)
    (before after : JobTable) : Prop where
  number_lt : n < earlier.length
  before_eq : before = tableAfter start earlier
  keyed : before.Keyed
  answers : Answers before c x after
  may : (habits n op).may (own n earlier) c

/-- What an act of a run was after the earlier ones.  An operation has the number of acts before its begin for
    its own. -/
def Act.IsHabitual (start : JobTable) : Act → List Act → Prop
  | begun n _, earlier => n = earlier.length
  | called n op c x before after, earlier => Usual start earlier n op c x before after
  | ended n op r, earlier => op.Returns (own n earlier) r

theorem Act.IsRegular.isHabitual {a : Act} {earlier : List Act} (h : a.IsRegular rules may start earlier) :
    a.IsHabitual start earlier := by
  cases a with
  | begun n op => exact h.1
  | called n op c x before after =>
    exact ⟨h.number_lt, h.before_eq, h.keyed, h.answers, habits_may_of_conduct h.may⟩
  | ended n op r => exact Operation.Concludes.returns h

/-- A state of a run in which every operation keeps to its habits. -/
structure Habitual (start : JobTable) (past : List Act) (shop : Shop) : Prop where
  keyed : shop.jobs.Keyed
  keeps : ∀ t ∈ shop.tasks,
    t.rest.Keeps (habits t.number t.op) (fun r acts => t.op.Returns acts r) (own t.number past)
  acts : Each (Act.IsHabitual start) past

/-- Every run is habitual, if no two rows have one key at its start. -/
theorem Run.habitual (h : Run rules may start past shop) (hk : start.Keyed) : Habitual start past shop := by
  have hconducted := h.conducted hk
  refine ⟨hconducted.keyed, ?_, hconducted.acts.mono ?_⟩
  · intro t ht
    refine Keeps.weaken (w := conduct rules t.number t.op) Eq ?_ ?_ ?_ rfl (hconducted.keeps t ht)
    · rintro acts _ c rfl hc
      exact habits_may_of_conduct hc
    · rintro acts _ c x acts' rfl _ hx
      exact ⟨acts', hx, rfl⟩
    · rintro r acts _ rfl hr
      exact Operation.Concludes.returns hr
  · exact fun a earlier ha => ha.isHabitual

end MediaBackup.Workers
