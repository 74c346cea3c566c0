import MediaBackup.Engine.Call

/-
  Protocols: what a program may ask, and which answers it has to expect.

  A protocol speaks about the states of an onlooker, which follows the questions of a program and their
  answers.  `Script.Keeps w post p s` says that from `s` on `p` asks only what it may, and that whatever it
  is answered it comes to a value that satisfies `post`.  It is a recursion on the script, so the rule of
  sequence (`keeps_bind`) and every rule below it are equivalences: nothing is lost on the way.

  `Meets` is the same for programs that may stop early.  It has two ends: one for the value of a program
  and one for what stopped it.
-/

namespace MediaBackup

/-- What may be asked in a state, and which answers lead to which states. -/
structure Protocol (E : Type) (A : E → Type) (σ : Type) where
  may : σ → E → Prop
  answers : σ → (e : E) → A e → σ → Prop

variable {E : Type} {A : E → Type} {σ α β ε : Type}

namespace Script

/-- The script asks only what it may, and whatever it is answered it ends with a value that satisfies
    `post`. -/
def Keeps (w : Protocol E A σ) (post : α → σ → Prop) : Script E A α → σ → Prop
  | done a, s => post a s
  | ask e next, s => w.may s e ∧ ∀ x s', w.answers s e x s' → (next x).Keeps w post s'

/-- One script after another. -/
theorem keeps_bind {w : Protocol E A σ} {post : β → σ → Prop} {p : Script E A α}
    {f : α → Script E A β} {s : σ} :
    (p.bind f).Keeps w post s ↔ p.Keeps w (fun a t => (f a).Keeps w post t) s := by
  induction p generalizing s with
  | done a => exact Iff.rfl
  | ask e next ih =>
    constructor
    · rintro ⟨hm, hn⟩
      exact ⟨hm, fun x t ht => ih x |>.1 (hn x t ht)⟩
    · rintro ⟨hm, hn⟩
      exact ⟨hm, fun x t ht => ih x |>.2 (hn x t ht)⟩

/-- A weaker end is kept too. -/
theorem Keeps.mono {w : Protocol E A σ} {post post' : α → σ → Prop} (h : ∀ a s, post a s → post' a s)
    {p : Script E A α} {s : σ} (hp : p.Keeps w post s) : p.Keeps w post' s := by
  induction p generalizing s with
  | done a => exact h a s hp
  | ask e next ih => exact ⟨hp.1, fun x t ht => ih x (hp.2 x t ht)⟩

/-- Where answers are expected from fewer states and more may be asked, what was kept is kept. -/
theorem Keeps.weaken {τ : Type} {w : Protocol E A σ} {v : Protocol E A τ} (rel : σ → τ → Prop)
    {post : α → σ → Prop} {post' : α → τ → Prop}
    (hmay : ∀ s t e, rel s t → w.may s e → v.may t e)
    (hans : ∀ s t e x t', rel s t → w.may s e → v.answers t e x t' → ∃ s', w.answers s e x s' ∧ rel s' t')
    (hpost : ∀ a s t, rel s t → post a s → post' a t)
    {p : Script E A α} {s : σ} {t : τ} (hr : rel s t) (hp : p.Keeps w post s) : p.Keeps v post' t := by
  induction p generalizing s t with
  | done a => exact hpost a s t hr hp
  | ask e next ih =>
    refine ⟨hmay s t e hr hp.1, fun x t' ht => ?_⟩
    obtain ⟨s', hs', hr'⟩ := hans s t e x t' hr hp.1 ht
    exact ih x hr' (hp.2 x s' hs')

/-- What a script can come to: what is left of it, and the state of the onlooker. -/
inductive Reaches (w : Protocol E A σ) (p : Script E A α) (s : σ) : Script E A α → σ → Prop where
  | here : Reaches w p s p s
  | goes {e : E} {next : A e → Script E A α} {t u : σ} {x : A e} (h : Reaches w p s (.ask e next) t)
      (hx : w.answers t e x u) : Reaches w p s (next x) u

theorem Reaches.answered {w : Protocol E A σ} {p : Script E A α} {e : E} {next : A e → Script E A α} {s t : σ}
    (h : Reaches w p s (.ask e next) t) (x : A e) (u : σ) (hx : w.answers t e x u) : Reaches w p s (next x) u :=
  h.goes hx

/-- What a script comes to keeps what the script kept. -/
theorem Keeps.reaches {w : Protocol E A σ} {post : α → σ → Prop} {p q : Script E A α} {s t : σ}
    (hp : p.Keeps w post s) (h : Reaches w p s q t) : q.Keeps w post t := by
  induction h with
  | here => exact hp
  | goes _ hx ih => exact ih.2 _ _ hx

/-! ## Programs that may stop early -/

/-- The program asks only what it may; its value satisfies `good`, and what stops it satisfies `bad`. -/
def Meets (w : Protocol E A σ) (good : α → σ → Prop) (bad : ε → σ → Prop)
    (p : ExceptT ε (Script E A) α) (s : σ) :
    Prop :=
  Keeps w (fun r t => match r with
    | .ok a => good a t
    | .error e => bad e t) p.run s

variable {w : Protocol E A σ} {good good' : α → σ → Prop} {bad bad' : ε → σ → Prop} {s : σ}

theorem meets_pure {a : α} : Meets w good bad (pure a) s ↔ good a s := Iff.rfl

theorem meets_bind {p : ExceptT ε (Script E A) β} {f : β → ExceptT ε (Script E A) α} :
    Meets w good bad (p >>= f) s ↔ Meets w (fun b t => Meets w good bad (f b) t) bad p s := by
  show Keeps w _ (Script.bind p.run (ExceptT.bindCont f)) s ↔ _
  rw [keeps_bind]
  unfold Meets
  -- what follows the end of `p` is the rest of the program, or nothing
  have hend : (fun (r : Except ε β) (t : σ) => Keeps w (fun r t => match r with
      | .ok a => good a t
      | .error e => bad e t) (ExceptT.bindCont f r) t) = fun r t => match r with
      | .ok b => Meets w good bad (f b) t
      | .error e => bad e t := by
    funext r t
    cases r <;> rfl
  rw [hend]
  exact Iff.rfl

theorem meets_map {p : ExceptT ε (Script E A) β} {f : β → α} :
    Meets w good bad (f <$> p) s ↔ Meets w (fun b t => good (f b) t) bad p s := by
  have he : f <$> p = p >>= fun b => pure (f b) := rfl
  rw [he, meets_bind]
  exact Iff.rfl

theorem Meets.mono (hg : ∀ a t, good a t → good' a t) (hb : ∀ e t, bad e t → bad' e t)
    {p : ExceptT ε (Script E A) α} (hp : Meets w good bad p s) : Meets w good' bad' p s := by
  refine Keeps.mono (fun r t h => ?_) hp
  cases r with
  | ok a => exact hg a t h
  | error e => exact hb e t h

end Script

/-! ## Programs of the engine -/

namespace Stop

/-- An error, and not a breakdown. -/
def IsError (e : Stop) : Prop := ∃ error, e = .failed error

/-- A failure of the database. -/
def IsOfDatabase (e : Stop) : Prop := ∃ fault, e = .failed (.database fault)

/-- An error that nothing can be done about. -/
def IsFatal (e : Stop) : Prop := ∃ error, e = .failed error ∧ error.isFatal = true

theorem IsOfDatabase.isFatal {e : Stop} (h : e.IsOfDatabase) : e.IsFatal := by
  obtain ⟨fault, rfl⟩ := h
  exact ⟨_, rfl, rfl⟩

end Stop

namespace Engine

open Script

variable {w : Protocol Call Call.Answer σ} {bad : Stop → σ → Prop} {s : σ}

theorem meets_call {c : Call} {good : c.Answer → σ → Prop} :
    Meets w good bad (call c) s ↔ w.may s c ∧ ∀ x t, w.answers s c x t → good x t := Iff.rfl

theorem meets_fail {good : α → σ → Prop} {e : SyncError} :
    Meets w good bad (fail e) s ↔ bad (.failed e) s :=
  Iff.rfl

theorem meets_crash {good : α → σ → Prop} {words : Option String} :
    Meets w good bad (crash words) s ↔ bad (.crashed words) s := Iff.rfl

theorem meets_now {good : Instant → σ → Prop} :
    Meets w good bad now s ↔ w.may s .now ∧ ∀ x t, w.answers s .now x t → good x t := Iff.rfl

theorem meets_emit {e : SyncEvent} {good : Unit → σ → Prop} :
    Meets w good bad (emit e) s ↔
      w.may s (.emit (.sync e)) ∧ ∀ x t, w.answers s (.emit (.sync e)) x t → good x t := Iff.rfl

theorem meets_ofStore {x : Except StoreFault α} {good : α → σ → Prop} :
    Meets w good bad (ofStore x) s ↔
      (∀ a, x = .ok a → good a s) ∧ ∀ fault, x = .error fault → bad (.failed (.database fault)) s := by
  cases x with
  | ok a =>
    show good a s ↔ _
    refine ⟨fun h => ⟨?_, fun _ e => nomatch e⟩, fun h => h.1 a rfl⟩
    rintro b e
    exact Except.ok.inj e ▸ h
  | error fault =>
    show bad (.failed (.database fault)) s ↔ _
    refine ⟨fun h => ⟨fun _ e => (nomatch e), ?_⟩, fun h => h.2 fault rfl⟩
    rintro f e
    exact Except.error.inj e ▸ h

/-- A call that the database answers gives its answer, or the database fails. -/
theorem meets_call_ofStore {c : Call} {f : c.Answer → Except StoreFault α} {good : α → σ → Prop} :
    Meets w good bad (call c >>= fun x => ofStore (f x)) s ↔ w.may s c ∧
      (∀ x t, w.answers s c x t → ∀ a, f x = .ok a → good a t) ∧
      ∀ x t, w.answers s c x t → ∀ fault, f x = .error fault → bad (.failed (.database fault)) t := by
  rw [meets_bind, meets_call]
  constructor
  · rintro ⟨hm, hx⟩
    exact ⟨hm, fun x t ht => (meets_ofStore.1 (hx x t ht)).1, fun x t ht => (meets_ofStore.1 (hx x t ht)).2⟩
  · rintro ⟨hm, hok, hbad⟩
    exact ⟨hm, fun x t ht => meets_ofStore.2 ⟨hok x t ht, hbad x t ht⟩⟩

/-- A statement on the table of jobs gives its answer, or the database fails. -/
theorem meets_jobs {st : JobStatement} {good : st.Answer → σ → Prop} :
    Meets w good bad (jobs st) s ↔ w.may s (.jobs st) ∧
      (∀ x t, w.answers s (.jobs st) (.ok x) t → good x t) ∧
      ∀ fault t, w.answers s (.jobs st) (.error fault) t → bad (.failed (.database fault)) t := by
  refine (meets_call_ofStore (c := .jobs st) (f := id)).trans (and_congr_right' (and_congr ?_ ?_))
  · exact ⟨fun h x t ht => h _ t ht x rfl, fun h _ t ht x e => h x t (e ▸ ht)⟩
  · exact ⟨fun h x t ht => h _ t ht x rfl, fun h _ t ht x e => h x t (e ▸ ht)⟩

/-- A statement on the table of items gives its answer, or the database fails. -/
theorem meets_items {st : ItemStatement} {good : st.Answer → σ → Prop} :
    Meets w good bad (items st) s ↔ w.may s (.items st) ∧
      (∀ x t, w.answers s (.items st) (.ok x) t → good x t) ∧
      ∀ fault t, w.answers s (.items st) (.error fault) t → bad (.failed (.database fault)) t := by
  refine (meets_call_ofStore (c := .items st) (f := id)).trans (and_congr_right' (and_congr ?_ ?_))
  · exact ⟨fun h x t ht => h _ t ht x rfl, fun h _ t ht x e => h x t (e ▸ ht)⟩
  · exact ⟨fun h x t ht => h _ t ht x rfl, fun h _ t ht x e => h x t (e ▸ ht)⟩

theorem meets_ofExcept {x : Except SyncError α} {good : α → σ → Prop} :
    Meets w good bad (ofExcept x) s ↔ (∀ a, x = .ok a → good a s) ∧ ∀ e, x = .error e →
      bad (.failed e) s := by
  cases x with
  | ok a =>
    show good a s ↔ _
    refine ⟨fun h => ⟨?_, fun _ e => nomatch e⟩, fun h => h.1 a rfl⟩
    rintro b e
    exact Except.ok.inj e ▸ h
  | error fault =>
    show bad (.failed fault) s ↔ _
    refine ⟨fun h => ⟨fun _ e => (nomatch e), ?_⟩, fun h => h.2 fault rfl⟩
    rintro f e
    exact Except.error.inj e ▸ h

/-- A program that is observed does not stop. -/
theorem meets_observe {p : Engine α} {good : Except Stop α → σ → Prop} :
    Meets w good bad (observe p) s ↔ Meets w (fun a => good (.ok a)) (fun e => good (.error e)) p s := by
  show Keeps w _ (Script.bind p.run fun r => done (Except.ok r)) s ↔ _
  rw [keeps_bind]
  unfold Meets
  refine iff_of_eq (congrArg (fun post => Keeps w post p.run s) ?_)
  funext r t
  cases r <;> rfl

end Engine

/-! ## Histories -/

/-- Of a history, newest first: every event has a property together with the events before it. -/
def Each (p : α → List α → Prop) : List α → Prop
  | [] => True
  | a :: earlier => p a earlier ∧ Each p earlier

namespace Each

variable {p : α → List α → Prop} {later earlier : List α} {a : α}

theorem mono {q : α → List α → Prop} (h : ∀ a earlier, p a earlier → q a earlier) {acts : List α}
    (hp : Each p acts) : Each q acts := by
  induction acts with
  | nil => trivial
  | cons a acts ih => exact ⟨h a acts hp.1, ih hp.2⟩

/-- What happened up to some time is a history too. -/
theorem of_append (h : Each p (later ++ earlier)) : Each p earlier := by
  induction later with
  | nil => exact h
  | cons a later ih => exact ih h.2

theorem of_split (h : Each p (later ++ a :: earlier)) : p a earlier := h.of_append.1

end Each

end MediaBackup
