import MediaBackup.Pass.Crew
import MediaBackup.Proofs.Engine.Protocol

/-
  What every step of a crew preserves.

  A world answers calls as it likes, within a relation.  `Goes` is one step of a crew in such a world: any
  member, any answer.  `moves_of_goes` tells the nine kinds of steps apart, and `exists_goes` tells when there
  is none: the crew is at its end, or the main line waits for uploads and there are none.

  A GUIDE follows a crew with an onlooker for the main line and one for each upload, and has an invariant about
  the world and all of them.  It gives, kind by kind, what a step has to preserve; that every step then
  preserves the whole is `Guide.holds_of_goes`.
-/

namespace MediaBackup

/-- How a world may answer a call, and what it is then. -/
abbrev Ways (σ : Type) := σ → (c : Call) → c.Answer → σ → Prop

namespace Crew

/-- The main line of a crew. -/
abbrev MainLine (α : Type) := Script PassCall PassCall.Answer α

/-- An upload beside it. -/
abbrev UploadLine := Script Call Call.Answer (Except Stop JobState)

variable {α σ : Type} {b : Backup} {W : Ways σ}

/-- One step of a crew in a world. -/
def Goes (b : Backup) (W : Ways σ) (c : Crew α) (s : σ) (d : Crew α) (t : σ) : Prop :=
  ∃ (answer : (e : Call) → σ → e.Answer × σ) (member : Nat) (h : Follows d c),
    (∀ e, W s e (answer e s).1 (answer e s).2) ∧ c.step b answer member s = some (⟨d, h⟩, t)

/-- The steps of a crew, kind by kind. -/
inductive Moves (b : Backup) (W : Ways σ) : Crew α → σ → Crew α → σ → Prop where
  | engine {e : Call} {next : e.Answer → MainLine α} {us : List UploadLine}
      {ended : List (Except Stop JobState)}
      {free : Nat} {s t : σ} {x : e.Answer} (hx : W s e x t) :
    Moves b W ⟨.ask (.engine e) next, us, ended, free⟩ s ⟨next x, us, ended, free⟩ t
  | refused {next : Bool → MainLine α} {us : List UploadLine} {ended : List (Except Stop JobState)}
      {s : σ} :
    Moves b W ⟨.ask .tryPermit next, us, ended, 0⟩ s ⟨next false, us, ended, 0⟩ s
  | granted {next : Bool → MainLine α} {us : List UploadLine} {ended : List (Except Stop JobState)}
      {free : Nat}
      {s : σ} : Moves b W ⟨.ask .tryPermit next, us, ended, free + 1⟩ s ⟨next true, us, ended, free⟩ s
  | waited {next : Unit → MainLine α} {us : List UploadLine} {ended : List (Except Stop JobState)}
      {free : Nat}
      {s : σ} : Moves b W ⟨.ask .waitPermit next, us, ended, free + 1⟩ s ⟨next (), us, ended, free⟩ s
  | returned {next : Unit → MainLine α} {us : List UploadLine} {ended : List (Except Stop JobState)}
      {free : Nat}
      {s : σ} : Moves b W ⟨.ask .returnPermit next, us, ended, free⟩ s ⟨next (), us, ended, free + 1⟩ s
  | started {j : Job} {next : Unit → MainLine α} {us : List UploadLine}
      {ended : List (Except Stop JobState)}
      {free : Nat} {s : σ} :
    Moves b W ⟨.ask (.start j) next, us, ended, free⟩ s ⟨next (), us ++ [(b.work j).run], ended, free⟩ s
  | joined {r : Except Stop JobState} {next : Except Stop JobState → MainLine α} {us : List UploadLine}
      {ended : List (Except Stop JobState)} {free : Nat} {s : σ} :
    Moves b W ⟨.ask .join next, us, r :: ended, free⟩ s ⟨next r, us, ended, free⟩ s
  | called {e : Call} {next : e.Answer → UploadLine} {main : MainLine α} {us vs : List UploadLine}
      {ended : List (Except Stop JobState)} {free : Nat} {s t : σ} {x : e.Answer} (hx : W s e x t) :
    Moves b W ⟨main, us ++ .ask e next :: vs, ended, free⟩ s ⟨main, us ++ next x :: vs, ended, free⟩ t
  | left {r : Except Stop JobState} {main : MainLine α} {us vs : List UploadLine}
      {ended : List (Except Stop JobState)} {free : Nat} {s : σ} :
    Moves b W ⟨main, us ++ .done r :: vs, ended, free⟩ s ⟨main, us ++ vs, ended ++ [r], free + 1⟩ s

/-- What became of a row whose script at some place was answered or left. -/
theorem advanceAt_eq_some {β : Type} {answer : (e : Call) → σ → e.Answer × σ}
    {row : List (Script Call Call.Answer β)} {i : Nat} {s : σ}
    {p : { p // Script.RowFollows p row }} {r : Option β} {t : σ}
    (h : Script.advanceAt answer row i s = some (p, r, t)) :
    (∃ us e next vs, row = us ++ .ask e next :: vs ∧ p.1 = us ++ next (answer e s).1 :: vs ∧ r = none ∧
      t = (answer e s).2) ∨
    ∃ us a vs, row = us ++ .done a :: vs ∧ p.1 = us ++ vs ∧ r = some a ∧ t = s := by
  induction row generalizing i with
  | nil => exact nomatch h
  | cons u row ih =>
    cases i with
    | zero =>
      cases u with
      | done a =>
        simp only [Script.advanceAt, Option.some.injEq, Prod.mk.injEq] at h
        obtain ⟨rfl, rfl, rfl⟩ := h
        exact .inr ⟨[], a, row, rfl, rfl, rfl, rfl⟩
      | ask e next =>
        simp only [Script.advanceAt, Option.some.injEq, Prod.mk.injEq] at h
        obtain ⟨rfl, rfl, rfl⟩ := h
        exact .inl ⟨[], e, next, row, rfl, rfl, rfl, rfl⟩
    | succ i =>
      have h' : (Script.advanceAt answer row i s).map
          (fun m => ((⟨u :: m.1.1, .later u m.1.2⟩, m.2) :
            { p // Script.RowFollows p (u :: row) } × Option β × σ)) =
          some (p, r, t) := by
        cases u <;> exact h
      obtain ⟨⟨q, r', t'⟩, hq, he⟩ := Option.map_eq_some_iff.1 h'
      simp only [Prod.mk.injEq] at he
      obtain ⟨rfl, rfl, rfl⟩ := he
      obtain ⟨us, e, next, vs, rfl, hp, hr, ht⟩ | ⟨us, a, vs, rfl, hp, hr, ht⟩ := ih hq
      · exact .inl ⟨u :: us, e, next, vs, rfl, congrArg (u :: ·) hp, hr, ht⟩
      · exact .inr ⟨u :: us, a, vs, rfl, congrArg (u :: ·) hp, hr, ht⟩

theorem moves_of_stepMain {answer : (e : Call) → σ → e.Answer × σ} {c : Crew α} {s t : σ}
    (hW : ∀ e, W s e (answer e s).1 (answer e s).2) {d : { d : Crew α // Follows d c }}
    (h : c.stepMain b answer s = some (d, t)) : Moves b W c s d.1 t := by
  obtain ⟨main, us, ended, free⟩ := c
  unfold stepMain at h
  cases main with
  | done a => exact nomatch h
  | ask e next =>
    cases e with
    | engine e =>
      obtain ⟨rfl, rfl⟩ := Prod.mk.inj (Option.some.inj h)
      exact .engine (hW e)
    | tryPermit =>
      cases free with
      | zero =>
        obtain ⟨rfl, rfl⟩ := Prod.mk.inj (Option.some.inj h)
        exact .refused
      | succ free =>
        obtain ⟨rfl, rfl⟩ := Prod.mk.inj (Option.some.inj h)
        exact .granted
    | waitPermit =>
      cases free with
      | zero => exact nomatch h
      | succ free =>
        obtain ⟨rfl, rfl⟩ := Prod.mk.inj (Option.some.inj h)
        exact .waited
    | returnPermit =>
      obtain ⟨rfl, rfl⟩ := Prod.mk.inj (Option.some.inj h)
      exact .returned
    | start j =>
      obtain ⟨rfl, rfl⟩ := Prod.mk.inj (Option.some.inj h)
      exact .started
    | join =>
      cases ended with
      | nil => exact nomatch h
      | cons r ended =>
        obtain ⟨rfl, rfl⟩ := Prod.mk.inj (Option.some.inj h)
        exact .joined

/-- Every step is of one of the nine kinds. -/
theorem moves_of_goes {c d : Crew α} {s t : σ} (h : Goes b W c s d t) : Moves b W c s d t := by
  obtain ⟨answer, member, hf, hW, h⟩ := h
  cases member with
  | zero => exact moves_of_stepMain hW h
  | succ i =>
    obtain ⟨⟨p, r, t'⟩, hp, he⟩ := Option.map_eq_some_iff.1 h
    obtain ⟨main, us, ended, free⟩ := c
    simp only [Prod.mk.injEq, Subtype.mk.injEq] at he
    obtain ⟨he, rfl⟩ := he
    dsimp only at he hp
    obtain ⟨us₁, e, next, us₂, rfl, hrow, rfl, rfl⟩ | ⟨us₁, a, us₂, rfl, hrow, rfl, rfl⟩ :=
      advanceAt_eq_some hp
    · rw [hrow] at he
      exact he ▸ .called (hW e)
    · rw [hrow] at he
      exact he ▸ .left

/-- Every step is an answered call of the main line, or a step beside it. -/
theorem Moves.main_or_beside {c d : Crew α} {s t : σ} (h : Moves b W c s d t) :
    (∃ (e : PassCall) (next : e.Answer → MainLine α) (x : e.Answer), c.main = .ask e next ∧ d.main = next x ∧
      Moves b W ⟨.ask e .done, c.uploads, c.ended, c.free⟩ s ⟨.done x, d.uploads, d.ended, d.free⟩ t) ∨
    (d.main = c.main ∧
      Moves b W ⟨.done (), c.uploads, c.ended, c.free⟩ s ⟨.done (), d.uploads, d.ended, d.free⟩ t) := by
  cases h with
  | engine hx => exact .inl ⟨_, _, _, rfl, rfl, .engine hx⟩
  | refused => exact .inl ⟨_, _, _, rfl, rfl, .refused⟩
  | granted => exact .inl ⟨_, _, _, rfl, rfl, .granted⟩
  | waited => exact .inl ⟨_, _, _, rfl, rfl, .waited⟩
  | returned => exact .inl ⟨_, _, _, rfl, rfl, .returned⟩
  | started => exact .inl ⟨_, _, _, rfl, rfl, .started⟩
  | joined => exact .inl ⟨_, _, _, rfl, rfl, .joined⟩
  | called hx => exact .inr ⟨rfl, .called hx⟩
  | left => exact .inr ⟨rfl, .left⟩

theorem goes_of_isSome {answer : (e : Call) → σ → e.Answer × σ} {s : σ}
    (hW : ∀ e, W s e (answer e s).1 (answer e s).2)
    {c : Crew α} (member : Nat) (h : (c.step b answer member s).isSome = true) :
    ∃ d t, Goes b W c s d t := by
  obtain ⟨⟨⟨d, hd⟩, t⟩, hs⟩ := Option.isSome_iff_exists.1 h
  exact ⟨d, t, answer, member, hd, hW, hs⟩

/-- In a world that answers every call a crew goes on, unless it is at its end or its main line waits for
    uploads and there are none. -/
theorem exists_goes {s : σ} (hW : ∀ e, ∃ x t, W s e x t) (c : Crew α) :
    (∃ a, c.main = .done a) ∨ (∃ d t, Goes b W c s d t) ∨
      (c.uploads = [] ∧ ((c.free = 0 ∧ ∃ next, c.main = .ask .waitPermit next) ∨
        (c.ended = [] ∧ ∃ next, c.main = .ask .join next))) := by
  let answer : (e : Call) → σ → e.Answer × σ := fun e _ => ((hW e).choose, (hW e).choose_spec.choose)
  have hanswer : ∀ e, W s e (answer e s).1 (answer e s).2 := fun e => (hW e).choose_spec.choose_spec
  obtain ⟨main, us, ended, free⟩ := c
  cases us with
  | cons u us =>
    refine .inr (.inl (goes_of_isSome hanswer 1 ?_))
    show (stepUpload answer _ 0 s).isSome = true
    unfold stepUpload
    rw [Option.isSome_map]
    cases u <;> rfl
  | nil =>
    cases main with
    | done a => exact .inl ⟨a, rfl⟩
    | ask e next =>
      cases e with
      | waitPermit =>
        cases free with
        | zero => exact .inr (.inr ⟨rfl, .inl ⟨rfl, next, rfl⟩⟩)
        | succ free => exact .inr (.inl (goes_of_isSome hanswer 0 rfl))
      | join =>
        cases ended with
        | nil => exact .inr (.inr ⟨rfl, .inr ⟨rfl, next, rfl⟩⟩)
        | cons r ended => exact .inr (.inl (goes_of_isSome hanswer 0 rfl))
      | tryPermit =>
        cases free with
        | zero => exact .inr (.inl (goes_of_isSome hanswer 0 rfl))
        | succ free => exact .inr (.inl (goes_of_isSome hanswer 0 rfl))
      | engine e => exact .inr (.inl (goes_of_isSome hanswer 0 rfl))
      | returnPermit => exact .inr (.inl (goes_of_isSome hanswer 0 rfl))
      | start j => exact .inr (.inl (goes_of_isSome hanswer 0 rfl))

end Crew

/-! ## Guides -/

/-- Onlookers of a crew, an invariant about the world and all of them, and what every kind of step preserves. -/
structure Guide (b : Backup) {σ : Type} (W : Ways σ) (μ ν : Type) where
  main : Protocol PassCall PassCall.Answer μ
  upload : Protocol Call Call.Answer ν
  /-- How an upload ends. -/
  ends : Except Stop JobState → ν → Prop
  /-- The world, the onlooker of the main line, those of the uploads, the results not joined yet, and the
      free permits. -/
  inv : σ → μ → List ν → List (Except Stop JobState) → Nat → Prop
  engine : ∀ {s m ls ended free e x t}, inv s m ls ended free → main.may m (.engine e) → W s e x t →
    ∃ n, main.answers m (.engine e) x n ∧ inv t n ls ended free
  refused : ∀ {s m ls ended}, inv s m ls ended 0 → main.may m .tryPermit →
    ∃ n, main.answers m .tryPermit false n ∧ inv s n ls ended 0
  granted : ∀ {s m ls ended free}, inv s m ls ended (free + 1) → main.may m .tryPermit →
    ∃ n, main.answers m .tryPermit true n ∧ inv s n ls ended free
  waited : ∀ {s m ls ended free}, inv s m ls ended (free + 1) → main.may m .waitPermit →
    ∃ n, main.answers m .waitPermit () n ∧ inv s n ls ended free
  returned : ∀ {s m ls ended free}, inv s m ls ended free → main.may m .returnPermit →
    ∃ n, main.answers m .returnPermit () n ∧ inv s n ls ended (free + 1)
  started : ∀ {s m ls ended free j}, inv s m ls ended free → main.may m (.start j) →
    ∃ n l, main.answers m (.start j) () n ∧ (b.work j).run.Keeps upload ends l ∧
      inv s n (ls ++ [l]) ended free
  joined : ∀ {s m ls r ended free}, inv s m ls (r :: ended) free → main.may m .join →
    ∃ n, main.answers m .join r n ∧ inv s n ls ended free
  called : ∀ {s m ls l ks ended free e x t}, inv s m (ls ++ l :: ks) ended free → upload.may l e →
    W s e x t →
    ∃ k, upload.answers l e x k ∧ inv t m (ls ++ k :: ks) ended free
  left : ∀ {s m ls l ks ended free r}, inv s m (ls ++ l :: ks) ended free → ends r l →
    inv s m (ls ++ ks) (ended ++ [r]) (free + 1)

namespace Guide

variable {α σ μ ν : Type} {b : Backup} {W : Ways σ} (g : Guide b W μ ν)

/-- The main line and all uploads keep to what they may ask, and the invariant holds.  Each upload stands
    beside its onlooker. -/
def Holds (post : α → μ → Prop) (c : Crew α) (s : σ) : Prop :=
  ∃ (m : μ) (row : List (Crew.UploadLine × ν)),
    c.main.Keeps g.main post m ∧ c.uploads = row.map Prod.fst ∧
    (∀ p ∈ row, p.1.Keeps g.upload g.ends p.2) ∧ g.inv s m (row.map Prod.snd) c.ended c.free

variable {g} {post : α → μ → Prop} {c d : Crew α} {s t : σ}

/-- Every step preserves it. -/
theorem holds_of_goes (h : g.Holds post c s) (hg : Crew.Goes b W c s d t) : g.Holds post d t := by
  obtain ⟨m, row, hmain, hrow, hups, hinv⟩ := h
  cases Crew.moves_of_goes hg with
  | engine hx =>
    obtain ⟨n, hn, hi⟩ := g.engine hinv hmain.1 hx
    exact ⟨n, row, hmain.2 _ n hn, hrow, hups, hi⟩
  | refused =>
    obtain ⟨n, hn, hi⟩ := g.refused hinv hmain.1
    exact ⟨n, row, hmain.2 _ n hn, hrow, hups, hi⟩
  | granted =>
    obtain ⟨n, hn, hi⟩ := g.granted hinv hmain.1
    exact ⟨n, row, hmain.2 _ n hn, hrow, hups, hi⟩
  | waited =>
    obtain ⟨n, hn, hi⟩ := g.waited hinv hmain.1
    exact ⟨n, row, hmain.2 _ n hn, hrow, hups, hi⟩
  | returned =>
    obtain ⟨n, hn, hi⟩ := g.returned hinv hmain.1
    exact ⟨n, row, hmain.2 _ n hn, hrow, hups, hi⟩
  | joined =>
    obtain ⟨n, hn, hi⟩ := g.joined hinv hmain.1
    exact ⟨n, row, hmain.2 _ n hn, hrow, hups, hi⟩
  | @started j next us ended free s =>
    obtain ⟨n, l, hn, hw, hi⟩ := g.started hinv hmain.1
    refine ⟨n, row ++ [((b.work j).run, l)], hmain.2 _ n hn, ?_, fun p hp => ?_, ?_⟩
    · rw [List.map_append]
      exact congrArg (· ++ _) hrow
    · rcases List.mem_append.1 hp with hp | hp
      · exact hups p hp
      · exact List.mem_singleton.1 hp ▸ hw
    · rw [List.map_append]
      exact hi
  | @called e next _ _ _ _ _ _ _ x hx =>
    obtain ⟨ls, ks', rfl, rfl, hks⟩ := List.map_eq_append_iff.1 hrow.symm
    obtain ⟨⟨u, l⟩, ks, rfl, rfl, rfl⟩ := List.map_eq_cons_iff.1 hks
    rw [List.map_append, List.map_cons] at hinv
    have hu := hups _ (List.mem_append_right _ List.mem_cons_self)
    obtain ⟨k, hk, hi⟩ := g.called hinv hu.1 hx
    refine ⟨m, ls ++ (next x, k) :: ks, hmain, ?_, fun p hp => ?_, ?_⟩
    · rw [List.map_append, List.map_cons]
    · rcases List.mem_append.1 hp with hp | hp
      · exact hups p (List.mem_append_left _ hp)
      · rcases List.mem_cons.1 hp with rfl | hp
        · exact hu.2 _ k hk
        · exact hups p (List.mem_append_right _ (List.mem_cons_of_mem _ hp))
    · rw [List.map_append, List.map_cons]
      exact hi
  | left =>
    obtain ⟨ls, ks', rfl, rfl, hks⟩ := List.map_eq_append_iff.1 hrow.symm
    obtain ⟨⟨u, l⟩, ks, rfl, rfl, rfl⟩ := List.map_eq_cons_iff.1 hks
    rw [List.map_append, List.map_cons] at hinv
    have hu := hups _ (List.mem_append_right _ List.mem_cons_self)
    refine ⟨m, ls ++ ks, hmain, (List.map_append ..).symm, fun p hp => ?_, ?_⟩
    · rcases List.mem_append.1 hp with hp | hp
      · exact hups p (List.mem_append_left _ hp)
      · exact hups p (List.mem_append_right _ (List.mem_cons_of_mem _ hp))
    · rw [List.map_append]
      exact g.left hinv hu

end Guide

end MediaBackup
