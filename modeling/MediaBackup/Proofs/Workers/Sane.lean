import MediaBackup.Proofs.Workers.Keeping

/-
  What holds in every run of workers.

  In a SANE state the table is sound, every operation under way keeps to its customs after its own acts,
  and whatever was read, claimed or written is proper.  A policy is proper if the copies that it lets be
  claimed and completed are.  Every run under a proper policy from a sound table is sane (`Run.sane`).
-/

namespace MediaBackup.Workers

/-- The operation that acts. -/
def Act.op : Act → Operation
  | .begun _ op | .called _ op _ _ _ _ | .ended _ op _ => op

/-- What every call of the past was. -/
structure Lawful (start : JobTable) (earlier : List Act) (n : Nat) (op : Operation) (c : Call)
    (x : c.Answer)
    (before after : JobTable) : Prop where
  before_eq : before = tableAfter start earlier
  sound : before.IsSound
  answers : Answers before c x after
  may : (customs n op).may (own n earlier) c

/-- A state of a run as it should be. -/
structure Sane (start : JobTable) (past : List Act) (shop : Shop) : Prop where
  sound : shop.jobs.IsSound
  keeps : ∀ t ∈ shop.tasks,
    t.rest.Keeps (customs t.number t.op) (fun r acts => t.op.Ends t.number acts r) (own t.number past)
  isProper : ∀ t ∈ shop.tasks, t.op.IsProper
  op_eq : ∀ t ∈ shop.tasks, ∀ a ∈ own t.number past, a.op = t.op
  nodup : (shop.tasks.map Task.number).Nodup
  seen : ∀ c ∈ seen past, c.IsProper ∧ c.key.IsProper
  held : ∀ c ∈ held past, c.IsProper ∧ c.state = .running
  lawful : ∀ later earlier n op c x before after, past = later ++ .called n op c x before after :: earlier →
    Lawful start earlier n op c x before after

/-- The policy lets only proper copies be used, as long as only proper ones were read and claimed. -/
def Policy.IsProper (may : Policy) : Prop :=
  ∀ past op, (∀ c ∈ Workers.seen past, c.IsProper ∧ c.key.IsProper) →
    (∀ c ∈ Workers.held past, c.IsProper ∧ c.state = .running) → may past op → op.IsProper

/-! ## What was read and claimed -/

theorem held_ended (n : Nat) (op : Operation) (r : Except Stop op.Result) (past : List Act) :
    held (.ended n op r :: past) = (op.returned r).toList ++ held past := by
  cases op with
  | claim j =>
    cases r with
    | error e => rfl
    | ok o => cases o <;> rfl
  | enqueue _ => rfl
  | due => rfl
  | get _ => rfl
  | complete _ _ => rfl
  | promote => rfl
  | recover => rfl
  | prune _ => rfl

theorem mem_held_of_mem_begun {n : Nat} {op : Operation} {past : List Act} {c : Job}
    (h : c ∈ held (.begun n op :: past)) : c ∈ held past := by
  cases op with
  | complete _ _ => exact List.mem_of_mem_erase h
  | enqueue _ => exact h
  | due => exact h
  | get _ => exact h
  | claim _ => exact h
  | promote => exact h
  | recover => exact h
  | prune _ => exact h

/-- What a call read was a job of a row of the table. -/
theorem mem_seen_called {n : Nat} {op : Operation} {c : Call} {x : c.Answer} {before after : JobTable}
    {past : List Act} {j : Job} (h : Answers before c x after)
    (hj : j ∈ seen (.called n op c x before after :: past)) :
    j ∈ seen past ∨ ∃ row ∈ before, row.Says j := by
  cases c with
  | jobs s =>
    cases s with
    | find key =>
      cases x with
      | error _ => exact .inl hj
      | ok d =>
        cases d with
        | none => exact .inl hj
        | some d =>
          cases d with
          | corrupt _ _ => exact .inl hj
          | valid i =>
            rcases List.mem_cons.1 hj with rfl | hj
            · obtain ⟨row, hr, hd⟩ := Option.map_eq_some_iff.1 h.1.symm
              exact .inr ⟨row, JobTable.mem_of_row? hr, JobRow.decode_eq_valid_iff.1 hd⟩
            · exact .inl hj
    | listDue now =>
      cases x with
      | error _ => exact .inl hj
      | ok rows =>
        rcases List.mem_append.1 hj with hj | hj
        · obtain ⟨d, hd, he⟩ := List.mem_filterMap.1 hj
          cases d with
          | corrupt _ _ => exact nomatch he
          | valid i =>
            obtain rfl := Option.some.inj he
            rw [h.1] at hd
            obtain ⟨row, hr, hd⟩ := List.mem_map.1 hd
            rw [List.mem_mergeSort] at hr
            exact .inr ⟨row, (List.mem_filter.1 hr).1, JobRow.decode_eq_valid_iff.1 hd⟩
        · exact .inl hj
    | insertIfAbsent _ => exact .inl hj
    | replaceIf _ _ => exact .inl hj
    | updateIf _ _ => exact .inl hj
    | quarantine _ _ _ => exact .inl hj
    | promote _ => exact .inl hj
    | resetRunning _ => exact .inl hj
    | count _ => exact .inl hj
    | deleteTerminal _ => exact .inl hj
  | items _ => exact .inl hj
  | now => exact .inl hj
  | emit _ => exact .inl hj
  | network => exact .inl hj
  | list => exact .inl hj
  | openItem _ => exact .inl hj
  | send _ _ => exact .inl hj
  | await _ => exact .inl hj

/-- A call that may be asked keeps the table sound. -/
theorem isSound_of_answers {n : Nat} {op : Operation} {acts : List Act} {c : Call} {x : c.Answer}
    {before after : JobTable} (hs : before.IsSound) (hm : (customs n op).may acts c)
    (h : Answers before c x after) :
    after.IsSound := by
  rcases h.table_eq with rfl | ⟨st, rfl, rfl⟩
  · exact hs
  · exact JobTable.isSound_run hs hm.1

/-! ## Every run is sane -/

variable {rules : RetryRules} {may : Policy} {start : JobTable} {past : List Act} {shop : Shop}

/-- The act that wrote what a claim has in its charge. -/
theorem exists_granted {j c : Job} {acts : List Act} (h : (Operation.claim j).charge acts = some c) :
    ∃ m op observed change before after,
      .called m op (.jobs (.updateIf observed change)) (.ok true) before after ∈ acts ∧
        c = j.claimed change := by
  obtain ⟨change, hc, rfl⟩ := Option.map_eq_some_iff.1 h
  obtain ⟨a, ha, hg⟩ := List.exists_of_findSome?_eq_some hc
  unfold Act.granted? at hg
  split at hg
  · rename_i m op observed change' before after
    obtain rfl := Option.some.inj hg
    exact ⟨m, op, observed, _, before, after, ha, rfl⟩
  · exact nomatch hg

namespace Sane

/-- What a claim has in its charge was written by it, and is a running job. -/
theorem granted (h : Sane start past shop) {n : Nat} {j c : Job}
    {rest : Script Call Call.Answer (Except Stop (Operation.claim j).Result)}
    (ht : ⟨n, .claim j, rest⟩ ∈ shop.tasks) (hc : (Operation.claim j).charge (own n past) = some c) :
    ∃ change before after, .called n (.claim j) (.jobs (.updateIf j change))
      (.ok true) before after ∈ own n past ∧
      c = j.claimed change ∧ c.IsProper ∧ c.state = .running := by
  obtain ⟨m, op, observed, change, before, after, ha, rfl⟩ := exists_granted hc
  obtain rfl : m = n := eq_of_beq (List.mem_filter.1 ha).2
  obtain rfl : op = .claim j := h.op_eq _ ht _ ha
  obtain ⟨later, earlier, hp⟩ := List.append_of_mem (mem_of_mem_own ha)
  obtain ⟨hs, rfl, -, hrun, -⟩ := (h.lawful _ _ _ _ _ _ _ _ hp).may
  have hj : observed.IsProper := h.isProper _ ht
  exact ⟨change, before, after, ha, rfl,
    ⟨hs.state, hs.attempt, hj.nextRunAt, hj.createdAt, hs.updatedAt⟩, hrun⟩

end Sane

/-! ## One operation among others -/

theorem eq_or_mem_of_mem {left right : List Task} {t u : Task} (hu : u ∈ left ++ t :: right) :
    u = t ∨ u ∈ left ++ right := by
  rcases List.mem_append.1 hu with hu | hu
  · exact .inr (List.mem_append_left _ hu)
  · rcases List.mem_cons.1 hu with rfl | hu
    · exact .inl rfl
    · exact .inr (List.mem_append_right _ hu)

theorem mem_removed {left right : List Task} {t u : Task} (h : ((left ++ t :: right).map Task.number).Nodup)
    (hu : u ∈ left ++ right) : u ∈ left ++ t :: right ∧ u.number ≠ t.number := by
  rw [List.map_append, List.map_cons, List.perm_middle.nodup_iff, List.nodup_cons, ← List.map_append] at h
  have hne : u.number ≠ t.number := fun e => h.1 (List.mem_map.2 ⟨u, hu, e⟩)
  rcases List.mem_append.1 hu with hu | hu
  · exact ⟨List.mem_append_left _ hu, hne⟩
  · exact ⟨List.mem_append_right _ (List.mem_cons_of_mem _ hu), hne⟩

theorem mem_replaced {left right : List Task} {t t' u : Task}
    (h : ((left ++ t :: right).map Task.number).Nodup)
    (hu : u ∈ left ++ t' :: right) : u = t' ∨ (u ∈ left ++ t :: right ∧ u.number ≠ t.number) := by
  rcases eq_or_mem_of_mem hu with rfl | hu
  · exact .inl rfl
  · exact .inr (mem_removed h hu)

/-- An act that is no call leaves the calls as they were. -/
theorem lawful_cons {a : Act}
    (ha : ∀ (n : Nat) (op : Operation) (c : Call) (x : c.Answer) (before after : JobTable),
      a ≠ .called n op c x before after)
    (h : ∀ later earlier n op c x before after, past = later ++ .called n op c x before after :: earlier →
      Lawful start earlier n op c x before after)
    (later earlier : List Act) (n : Nat) (op : Operation) (c : Call) (x : c.Answer)
    (before after : JobTable)
    (he : a :: past = later ++ .called n op c x before after :: earlier) :
    Lawful start earlier n op c x before after := by
  cases later with
  | nil => exact absurd (List.cons.inj he).1 (ha n op c x before after)
  | cons b later => exact h _ _ _ _ _ _ _ _ (List.cons.inj he).2

theorem own_length_eq_nil (h : Run rules may start past shop) : own past.length past = [] := by
  unfold own
  rw [List.filter_eq_nil_iff]
  intro a ha e
  exact absurd (eq_of_beq e) (Nat.ne_of_lt (h.number_lt.2 a ha))

/-- Every run under a proper policy that starts with a sound table is sane. -/
theorem Run.sane (h : Run rules may start past shop) (hstart : start.IsSound) (hmay : may.IsProper) :
    Sane start past shop := by
  induction h with
  | start =>
    exact {
      sound := hstart
      keeps := fun _ h => absurd h List.not_mem_nil
      isProper := fun _ h => absurd h List.not_mem_nil
      op_eq := fun _ h => absurd h List.not_mem_nil
      nodup := List.nodup_nil
      seen := fun _ h => absurd h List.not_mem_nil
      held := fun _ h => absurd h List.not_mem_nil
      lawful :=
        fun later _ _ _ _ _ _ _ he => absurd he.symm
          (List.append_ne_nil_of_right_ne_nil later (List.cons_ne_nil _ _)) }
  | @begin past shop h op hop ih =>
    have hproper : op.IsProper := hmay past op ih.seen ih.held hop
    have hown : own past.length (.begun past.length op :: past) = [.begun past.length op] := by
      rw [own_cons_of_eq (n := past.length) (.begun past.length op) past rfl, own_length_eq_nil h]
    have hother : ∀ t ∈ shop.tasks, own t.number (.begun past.length op :: past) = own t.number past :=
      fun t ht => own_cons_of_ne _ past (Nat.ne_of_gt (h.number_lt.1 t ht))
    refine ⟨ih.sound, ?_, ?_, ?_, ?_, ih.seen, fun c hc => ih.held c (mem_held_of_mem_begun hc),
      lawful_cons (fun _ _ _ _ _ _ => Act.noConfusion) ih.lawful⟩
    · intro t ht
      rcases List.mem_cons.1 ht with rfl | ht
      · dsimp only
        rw [hown]
        exact Operation.keeps rules hproper
      · rw [hother t ht]
        exact ih.keeps t ht
    · intro t ht
      rcases List.mem_cons.1 ht with rfl | ht
      · exact hproper
      · exact ih.isProper t ht
    · intro t ht a ha
      rcases List.mem_cons.1 ht with rfl | ht
      · rw [hown] at ha
        rw [List.mem_singleton.1 ha]
        rfl
      · rw [hother t ht] at ha
        exact ih.op_eq t ht a ha
    · refine List.nodup_cons.2 ⟨?_, ih.nodup⟩
      intro hm
      obtain ⟨t, ht, he⟩ := List.mem_map.1 hm
      exact absurd he (Nat.ne_of_lt (h.number_lt.1 t ht))
  | @call past t t' left right n op c next x h hx ih =>
    have hmem : (⟨n, op, .ask c next⟩ : Task) ∈ left ++ ⟨n, op, .ask c next⟩ :: right :=
      List.mem_append_right _ List.mem_cons_self
    obtain ⟨hm, hnext⟩ := ih.keeps _ hmem
    have hlaw : Lawful start past n op c x t t' := ⟨h.jobs_eq, ih.sound, hx, hm⟩
    have hown : own n (.called n op c x t t' :: past) = .called n op c x t t' :: own n past :=
      own_cons_of_eq _ past rfl
    refine ⟨isSound_of_answers ih.sound hm hx, ?_, ?_, ?_, ?_, ?_, ih.held, ?_⟩
    · intro u hu
      rcases mem_replaced ih.nodup hu with rfl | ⟨hu, hne⟩
      · dsimp only
        rw [hown]
        exact hnext x _ ⟨t, t', ih.sound, hx, rfl⟩
      · rw [own_cons_of_ne (.called n op c x t t') past hne.symm]
        exact ih.keeps u hu
    · intro u hu
      rcases mem_replaced ih.nodup hu with rfl | ⟨hu, _⟩
      · exact ih.isProper ⟨n, op, .ask c next⟩ hmem
      · exact ih.isProper u hu
    · intro u hu a ha
      rcases mem_replaced ih.nodup hu with rfl | ⟨hu, hne⟩
      · dsimp only at ha
        rw [hown] at ha
        rcases List.mem_cons.1 ha with rfl | ha
        · rfl
        · exact ih.op_eq _ hmem a ha
      · rw [own_cons_of_ne (.called n op c x t t') past hne.symm] at ha
        exact ih.op_eq u hu a ha
    · have hn := ih.nodup
      rw [List.map_append, List.map_cons] at hn ⊢
      exact hn
    · intro j hj
      rcases mem_seen_called hx hj with hj | ⟨row, hr, hs⟩
      · exact ih.seen j hj
      · exact ⟨hs.isProper_job, hs.isProper⟩
    · intro later earlier m op' c' x' before after he
      cases later with
      | nil =>
        obtain ⟨ha, rfl⟩ := List.cons.inj he
        cases ha
        exact hlaw
      | cons b later => exact ih.lawful _ _ _ _ _ _ _ _ (List.cons.inj he).2
  | @finish past t left right n op r h ih =>
    have hmem : (⟨n, op, .done r⟩ : Task) ∈ left ++ ⟨n, op, .done r⟩ :: right :=
      List.mem_append_right _ List.mem_cons_self
    refine ⟨ih.sound, ?_, ?_, ?_, ?_, ih.seen, ?_,
      lawful_cons (fun _ _ _ _ _ _ => Act.noConfusion) ih.lawful⟩
    · intro u hu
      obtain ⟨hu, hne⟩ := mem_removed ih.nodup hu
      rw [own_cons_of_ne (.ended n op r) past hne.symm]
      exact ih.keeps u hu
    · intro u hu
      exact ih.isProper u (mem_removed ih.nodup hu).1
    · intro u hu a ha
      obtain ⟨hu, hne⟩ := mem_removed ih.nodup hu
      rw [own_cons_of_ne (.ended n op r) past hne.symm] at ha
      exact ih.op_eq u hu a ha
    · have hn := ih.nodup
      rw [List.map_append, List.map_cons, List.perm_middle.nodup_iff, ← List.map_append] at hn
      exact (List.nodup_cons.1 hn).2
    · intro c hc
      rw [held_ended] at hc
      rcases List.mem_append.1 hc with hc | hc
      · -- only a claim returns a job, and it had it in its charge
        cases op with
        | claim j =>
          have hends : (Operation.claim j).Ends n (own n past) r := ih.keeps _ hmem
          obtain ⟨_, _, _, _, _, hp, hrun⟩ := ih.granted hmem (hends.1.trans (Option.mem_toList.1 hc))
          exact ⟨hp, hrun⟩
        | enqueue _ => exact absurd hc List.not_mem_nil
        | due => exact absurd hc List.not_mem_nil
        | get _ => exact absurd hc List.not_mem_nil
        | complete _ _ => exact absurd hc List.not_mem_nil
        | promote => exact absurd hc List.not_mem_nil
        | recover => exact absurd hc List.not_mem_nil
        | prune _ => exact absurd hc List.not_mem_nil
      · exact ih.held c hc

end MediaBackup.Workers
