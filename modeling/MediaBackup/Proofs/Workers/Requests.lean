import MediaBackup.Proofs.Workers.Sane

/-
  Putting a job into the queue takes effect at one instant.

  A request decides on what it read and writes later, and between the two others may change the row, also
  back to what it was.  Still there is one act of the request at which the row of its key was as its
  outcome says (`Run.enqueue_linearizable`): the write compares just the columns that the dedup table
  looks at, so what it takes to be the row that was read the dedup table treats alike.  A request that gives
  up has lost every round to another operation that wrote the row between its read and its write.
-/

namespace MediaBackup.Workers

/-- The act happened while operation `n` was under way. -/
def During (n : Nat) (past : List Act) (a : Act) : Prop :=
  ∃ later earlier, past = later ++ a :: earlier ∧ ∃ op, .begun n op ∈ earlier

/-- The act changed the row of a key. -/
def Act.Changes (key : String) : Act → Prop
  | .called _ _ _ _ before after => before.row? key ≠ after.row? key
  | _ => False

/-- Operation `n` lost `k` rounds: in each it read the row of the key, then another operation changed that
    row, and then its own write was refused. -/
inductive Lost (n : Nat) (key : String) : Nat → List Act → Prop where
  | none (past : List Act) : Lost n key 0 past
  | round {k : Nat} {later between earlier : List Act} {read write : Act} (h : Lost n key k earlier)
      (hread : read.Reads n key) (hother : ∃ a ∈ between, a.number ≠ n ∧ a.Changes key)
      (hwrite : write.IsRefused n key) :
    Lost n key (k + 1) (later ++ write :: (between ++ read :: earlier))

/-- Any operations, as long as the copies that are claimed and completed are ones that a row can hold. -/
def Unrestricted : Policy := fun _ op => op.IsProper

theorem Unrestricted.isProper : Policy.IsProper Unrestricted := fun _ _ _ _ h => h

variable {rules : RetryRules} {may : Policy} {start : JobTable} {past : List Act} {shop : Shop}

/-! ## Every act is during its operation -/

theorem Run.begun_of_task (h : Run rules may start past shop) :
    ∀ t ∈ shop.tasks, .begun t.number t.op ∈ past := by
  induction h with
  | start => exact fun _ h => absurd h List.not_mem_nil
  | begin _ _ _ ih =>
    intro t ht
    rcases List.mem_cons.1 ht with rfl | ht
    · exact List.mem_cons_self
    · exact List.mem_cons_of_mem _ (ih t ht)
  | @call past t t' left right n op c next x _ _ ih =>
    intro u hu
    refine List.mem_cons_of_mem _ ?_
    rcases eq_or_mem_of_mem hu with rfl | hu
    · exact ih ⟨n, op, .ask c next⟩ (List.mem_append_right _ List.mem_cons_self)
    · refine ih u ?_
      rcases List.mem_append.1 hu with hu | hu
      · exact List.mem_append_left _ hu
      · exact List.mem_append_right _ (List.mem_cons_of_mem _ hu)
  | finish _ ih =>
    intro u hu
    refine List.mem_cons_of_mem _ (ih u ?_)
    rcases List.mem_append.1 hu with hu | hu
    · exact List.mem_append_left _ hu
    · exact List.mem_append_right _ (List.mem_cons_of_mem _ hu)

theorem Run.begun_of_called (h : Run rules may start past shop) (later : List Act)
    {earlier : List Act} {n : Nat}
    {op : Operation} {c : Call} {x : c.Answer} {before after : JobTable}
    (hp : past = later ++ .called n op c x before after :: earlier) : .begun n op ∈ earlier := by
  induction h generalizing later with
  | start => exact absurd hp.symm (List.append_ne_nil_of_right_ne_nil later (List.cons_ne_nil _ _))
  | begin _ _ _ ih =>
    cases later with
    | nil => exact nomatch (List.cons.inj hp).1
    | cons _ later => exact ih later (List.cons.inj hp).2
  | @call past t t' left right m op' c' next x' h _ ih =>
    cases later with
    | nil =>
      obtain ⟨ha, rfl⟩ := List.cons.inj hp
      cases ha
      exact h.begun_of_task _ (List.mem_append_right _ List.mem_cons_self)
    | cons _ later => exact ih later (List.cons.inj hp).2
  | finish _ ih =>
    cases later with
    | nil => exact nomatch (List.cons.inj hp).1
    | cons _ later => exact ih later (List.cons.inj hp).2

/-- What the result of an operation tells about its acts holds of the acts before its end. -/
theorem Run.ends (h : Run rules may start past shop) (hstart : start.IsSound) (hmay : may.IsProper)
    {later earlier : List Act} {n : Nat} {op : Operation} {r : Except Stop op.Result}
    (hp : past = later ++ .ended n op r :: earlier) : op.Ends n (own n earlier) r := by
  induction h generalizing later with
  | start => exact absurd hp.symm (List.append_ne_nil_of_right_ne_nil later (List.cons_ne_nil _ _))
  | begin _ _ _ ih =>
    cases later with
    | nil => exact nomatch (List.cons.inj hp).1
    | cons _ later => exact ih (List.cons.inj hp).2
  | call _ _ ih =>
    cases later with
    | nil => exact nomatch (List.cons.inj hp).1
    | cons _ later => exact ih (List.cons.inj hp).2
  | @finish past t left right m op' r' h ih =>
    cases later with
    | nil =>
      obtain ⟨ha, rfl⟩ := List.cons.inj hp
      cases ha
      exact (h.sane hstart hmay).keeps _ (List.mem_append_right _ List.mem_cons_self)
    | cons _ later => exact ih (List.cons.inj hp).2

/-! ## Lost rounds -/

theorem Lost.mono {n k : Nat} {key : String} (h : Lost n key k past) (later : List Act) :
    Lost n key k (later ++ past) := by
  cases h with
  | none => exact .none _
  | round h hread hother hwrite =>
    rw [← List.append_assoc]
    exact .round h hread hother hwrite

/-- If the row of a key is not what it was some acts ago, then one of them changed it. -/
theorem exists_changes (start : JobTable) (key : String) (between earlier : List Act)
    (h : ∀ later earlier' n op c x before after,
      between ++ earlier = later ++ .called n op c x before after :: earlier' →
      before = tableAfter start earlier')
    (hne : (tableAfter start (between ++ earlier)).row? key ≠ (tableAfter start earlier).row? key) :
    ∃ a ∈ between, a.Changes key := by
  induction between with
  | nil => exact absurd rfl hne
  | cons a between ih =>
    have hrest := ih fun later earlier' n op c x before after he =>
      h (a :: later) earlier' n op c x before after (congrArg (a :: ·) he)
    cases a with
    | begun _ _ =>
      obtain ⟨b, hb, hc⟩ := hrest hne
      exact ⟨b, List.mem_cons_of_mem _ hb, hc⟩
    | ended _ _ _ =>
      obtain ⟨b, hb, hc⟩ := hrest hne
      exact ⟨b, List.mem_cons_of_mem _ hb, hc⟩
    | called n op c x before after =>
      by_cases hc : before.row? key = after.row? key
      · have hbefore := h [] _ n op c x before after rfl
        rw [show tableAfter start
          (.called n op c x before after :: between ++ earlier) = after from rfl, ← hc,
          hbefore] at hne
        obtain ⟨b, hb, hc⟩ := hrest hne
        exact ⟨b, List.mem_cons_of_mem _ hb, hc⟩
      · exact ⟨_, List.mem_cons_self, hc⟩

theorem tableAfter_of_after? {a : Act} {after : JobTable} (h : a.after? = some after) (past : List Act) :
    tableAfter start (a :: past) = after := by
  cases a with
  | begun _ _ => exact nomatch h
  | ended _ _ _ => exact nomatch h
  | called _ _ _ _ _ _ => exact Option.some.inj h

theorem number_ne_of_filter {n : Nat} {acts : List Act} (h : ∀ a ∈ acts, ¬ (a.number == n) = true) {a : Act}
    (ha : a ∈ acts) : a.number ≠ n := fun e => h a ha (beq_iff_eq.2 e)

/-- Rounds that an operation lost by its own account were lost to others. -/
theorem LostRounds.lost (start : JobTable) {n k : Nat} {key : String}
    (h : ∀ later earlier m op c x before after, past = later ++ .called m op c x before after :: earlier →
      before = tableAfter start earlier)
    (hl : LostRounds n key k (own n past)) : Lost n key k past := by
  generalize ha : own n past = acts at hl
  induction hl generalizing past with
  | none => exact .none _
  | @round k acts clock read write before after _ hread hwrite hafter hbefore hrow ih =>
    obtain ⟨l₁, l₂, rfl, _, _, h₂⟩ := List.filter_eq_cons_iff.1 ha
    obtain ⟨l₃, l₄, rfl, hothers, _, h₄⟩ := List.filter_eq_cons_iff.1 h₂
    obtain ⟨l₅, l₆, rfl, _, _, h₆⟩ := List.filter_eq_cons_iff.1 h₄
    have hlost : Lost n key k l₆ := by
      refine ih (fun later earlier m op c x before after he => ?_) h₆
      refine h (l₁ ++ write :: (l₃ ++ read :: (l₅ ++ clock :: later))) earlier m op c x before after ?_
      rw [he]
      simp only [List.append_assoc, List.cons_append]
    have hwhen : before = tableAfter start (l₃ ++ read :: (l₅ ++ clock :: l₆)) := by
      cases write with
      | begun _ _ => exact nomatch hbefore
      | ended _ _ _ => exact nomatch hbefore
      | called m op c x b a =>
        obtain rfl := Option.some.inj hbefore
        exact h l₁ _ m op c x b a rfl
    have hother : ∃ a ∈ l₃, a.Changes key := by
      refine exists_changes start key l₃ (read :: (l₅ ++ clock :: l₆)) ?_ ?_
      · intro later earlier m op c x before after he
        refine h (l₁ ++ write :: later) earlier m op c x before after ?_
        rw [he, List.append_assoc, List.cons_append]
      · rw [← hwhen, tableAfter_of_after? hafter]
        exact hrow.symm
    obtain ⟨a, ha, hc⟩ := hother
    have hlater : Lost n key k (l₅ ++ clock :: l₆) := by
      have := (hlost.mono [clock]).mono l₅
      exact this
    exact .round hlater hread ⟨a, ha, number_ne_of_filter hothers ha, hc⟩ hwrite

/-! ## Requests are linearizable -/

theorem isSound_of_decode {t : JobTable} (hk : t.Keyed)
    (h : ∀ row ∈ t, ∃ j, row.decode = .valid j) : t.IsSound := by
  refine ⟨hk, fun row hr => ?_⟩
  obtain ⟨j, hj⟩ := h row hr
  exact (JobRow.decode_eq_valid_iff.1 hj).isReadable

/-- **Requests are linearizable.**  On a table whose rows can all be read, whatever operations other workers
    run, a request ends as the dedup table says for the row at one instant of the request, or with an error
    of the database, or because it lost every round to others that changed the row of its key. -/
theorem Run.enqueue_linearizable (hk : start.Keyed) (hd : ∀ row ∈ start, ∃ j, row.decode = .valid j)
    (h : Run rules Unrestricted start past shop) {r : JobRequest} (hr : r.key.IsProper)
    {later earlier : List Act}
    {n : Nat} {result : Except Stop Enqueued}
    (hp : past = later ++ .ended n (.enqueue r) result :: earlier) :
    RequestEnds n r (During n earlier) (Lost n r.key.text · earlier) result := by
  have hstart := isSound_of_decode hk hd
  have hS := h.sane hstart Unrestricted.isProper
  refine RequestEnds.imp ?_ ?_ (h.ends hstart Unrestricted.isProper hp hr)
  · intro op c x before after ha
    obtain ⟨l₁, l₂, he⟩ := List.append_of_mem (mem_of_mem_own ha)
    refine ⟨l₁, l₂, he, op, ?_⟩
    rw [he] at hp
    exact h.begun_of_called (later ++ .ended n (.enqueue r) result :: l₁) (by
      rw [hp, List.append_assoc, List.cons_append])
  · intro k hl
    refine LostRounds.lost start (fun l₁ l₂ m op c x before after he => ?_) hl
    rw [he] at hp
    exact (hS.lawful (later ++ .ended n (.enqueue r) result :: l₁) l₂ m op c x before after (by
      rw [hp, List.append_assoc, List.cons_append])).before_eq

/-- A request for a scan where the last one succeeded: it takes effect when it replaces the row. -/
theorem Run.enqueue_linearizable_second_scan :
    ∃ start earlier shop,
      Run .standard Unrestricted start (.ended 0 (.enqueue .scan) (.ok .replaced) :: earlier) shop ∧
      RequestEnds 0 .scan (During 0 earlier) (Lost 0 "scan" · earlier) (.ok .replaced) := by
  let finished : Job := { Job.fresh .scan .epoch with state := .succeeded, attempt := 1 }
  let row := JobRow.ofJob finished
  have hdate : Instant.epoch.IsDate := by decide
  have hrow : row.decode = .valid finished :=
    JobRow.decode_eq_valid_iff.2
      (JobRow.ofJob_says ⟨JobState.noConfusion, by decide, hdate, hdate, hdate⟩ (by decide))
  have h₀ : Run .standard Unrestricted [row] [] ⟨[row], []⟩ := .start
  have h₁ := ((h₀.begin (.enqueue .scan) trivial).call_alone Instant.epoch [row] ⟨hdate, rfl⟩).call_alone
    (c := .jobs (.find "scan")) (.ok (some (.valid finished))) [row] ⟨congrArg some hrow.symm, rfl⟩
  have h₂ := ((h₁.call_alone (c := .jobs (.replaceIf (Job.fresh .scan .epoch) finished)) (.ok true)
    [JobRow.ofJob (Job.fresh .scan .epoch)] ⟨rfl, rfl⟩).call_alone () _ rfl).finish_alone
  have hkeyed : JobTable.Keyed [row] := List.pairwise_singleton _ _
  exact ⟨_, _, _, h₂,
    h₂.enqueue_linearizable hkeyed (fun r hr => ⟨finished, List.mem_singleton.1 hr ▸ hrow⟩) (by decide)
    (List.nil_append _).symm⟩

end MediaBackup.Workers
