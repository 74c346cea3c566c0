import MediaBackup.Proofs.Pass.Crew
import MediaBackup.Proofs.Pass.Rules
import MediaBackup.Proofs.Pass.Working
import MediaBackup.Proofs.Queue.Rules
import MediaBackup.Proofs.Recovery.Basic
import MediaBackup.Proofs.Workers.Customs

/-
  What the main line of a pass does with permits.

  A DEED is an answered call of the main line.  Its deeds, newest first, tell how many permits it holds (`held`), how
  many of its uploads it has still to join (`afloat`), and whether it is at work at a scan or dispatch (`AtWork`).
  The protocol `porter` says in these terms that it takes a permit only with empty hands and when it is not at work,
  gives one away only if it holds one, and joins only what it started.  Nothing is expected of the answers: whatever
  the world does, the main line keeps to it and comes to its end with empty hands (`run_keeps`).

  So every permit is free, or held by an upload under way or by the main line (`Moored`), and a pass always comes to its
  end: where nobody could go on, the main line would wait for a permit while all were free (`exists_goes`).
-/

namespace MediaBackup.Permits

open Script

/-! ## Deeds -/

/-- A deed of the main line: one of its calls was answered. -/
structure Deed where
  call : PassCall
  answer : call.Answer

/-- How many permits the main line holds. -/
def held : List Deed → Nat
  | [] => 0
  | ⟨.tryPermit, true⟩ :: past | ⟨.waitPermit, _⟩ :: past => held past + 1
  | ⟨.returnPermit, _⟩ :: past | ⟨.start _, _⟩ :: past => held past - 1
  | _ :: past => held past

/-- How many of its uploads it has still to join. -/
def afloat : List Deed → Nat
  | [] => 0
  | ⟨.start _, _⟩ :: past => afloat past + 1
  | ⟨.join, _⟩ :: past => afloat past - 1
  | _ :: past => afloat past

/-- The main line is at work at a scan or dispatch: the last change of a job that it asked for was the claim of one,
    and was granted. -/
def AtWork : List Deed → Prop
  | [] => False
  | ⟨.engine (.jobs (.updateIf j change)), x⟩ :: _ =>
    j.key.isHousekeeping = true ∧ change.state = .running ∧ x = .ok true
  | _ :: past => AtWork past

/-- What the main line may do with permits. -/
def May (past : List Deed) : PassCall → Prop
  | .tryPermit | .waitPermit => held past = 0 ∧ ¬AtWork past
  | .returnPermit => held past = 1
  | .start c => held past = 1 ∧ c.key.isUpload = true
  | .join => afloat past ≠ 0
  | .engine (.jobs (.updateIf j change)) => j.key.isHousekeeping = true → change.state = .running → held past = 0
  | _ => True

/-- The protocol of main lines. -/
def porter : Protocol PassCall PassCall.Answer (List Deed) where
  may := May
  answers past c x past' := past' = ⟨c, x⟩ :: past

/-- The main line did what it might do, each time. -/
abbrev Lawful : List Deed → Prop := Each fun d earlier => May earlier d.call

/-- The main line is at work only with empty hands. -/
theorem Lawful.held_of_atWork {past : List Deed} (h : Lawful past) (hwork : AtWork past) : held past = 0 := by
  induction past with
  | nil => rfl
  | cons d past ih =>
    obtain ⟨hmay, hpast⟩ := h
    obtain ⟨c, x⟩ := d
    cases c with
    | engine c =>
      cases c with
      | jobs st =>
        cases st with
        | updateIf j change => exact hmay hwork.1 hwork.2.1
        | _ => exact ih hpast hwork
      | _ => exact ih hpast hwork
    | tryPermit => exact absurd hwork hmay.2
    | waitPermit => exact absurd hwork hmay.2
    | returnPermit => exact absurd ((ih hpast hwork).symm.trans hmay) (by decide)
    | start c => exact absurd ((ih hpast hwork).symm.trans hmay.1) (by decide)
    | join => exact ih hpast hwork

/-! ## Programs of the engine -/

/-- From one past to the other the main line took and gave no permit, and started and joined nothing. -/
structure Same (past past' : List Deed) : Prop where
  held : held past' = held past
  afloat : afloat past' = afloat past

section Programs

variable {α : Type} {past past' past'' : List Deed} {j c : Job}

theorem Same.refl (past : List Deed) : Same past past := ⟨rfl, rfl⟩

theorem Same.trans (h : Same past past') (h' : Same past' past'') : Same past past'' :=
  ⟨h'.held.trans h.held, h'.afloat.trans h.afloat⟩

/-- A call of the engine is no matter of permits. -/
theorem Same.engine (past : List Deed) (c : Call) (x : c.Answer) : Same past (⟨.engine c, x⟩ :: past) := ⟨rfl, rfl⟩

/-- With empty hands the main line may ask the engine everything. -/
theorem may_engine (h : held past = 0) (c : Call) : May past (.engine c) := by
  cases c with
  | jobs st =>
    cases st with
    | updateIf j change => exact fun _ _ => h
    | _ => trivial
  | _ => trivial

theorem keeps_engine {p : Script Call Call.Answer α} (h : held past = 0) :
    p.Keeps porter.engine (fun _ past' => Same past past') past := by
  induction p generalizing past with
  | done a => exact .refl past
  | ask c next ih =>
    refine ⟨may_engine h c, ?_⟩
    rintro x _ rfl
    exact Keeps.mono (fun _ _ hsame => (Same.engine past c x).trans hsame) (ih x h)

/-- Programs of the engine leave the permits alone. -/
theorem meets_engine {p : Engine α} (h : held past = 0) :
    Meets porter.engine (fun _ past' => Same past past') (fun _ past' => Same past past') p past := by
  refine Keeps.mono (fun r past' hsame => ?_) (keeps_engine h)
  cases r <;> exact hsame

/-- A claim of a scan or dispatch puts the main line to work, if it is granted; it has to be made with empty hands. -/
theorem meets_claim (hj : j.key.isUpload = true ∨ held past = 0) (hwork : ¬AtWork past) :
    Meets porter.engine
      (fun o past' => Same past past' ∧ (o = none → ¬AtWork past') ∧
        ∀ c, o = some c → c.key = j.key ∧ c.state = .running ∧ (j.key.isUpload = true → ¬AtWork past'))
      (fun e past' => e.IsError ∧ Same past past' ∧ ¬AtWork past') (Queue.claim j) past := by
  unfold Queue.claim
  rw [meets_bind, Engine.meets_ofExcept]
  refine ⟨fun _ _ => ?_, fun e _ => ⟨⟨e, rfl⟩, .refl past, hwork⟩⟩
  rw [meets_bind, Engine.meets_now]
  refine ⟨trivial, ?_⟩
  rintro now _ rfl
  dsimp only
  rw [meets_bind, Engine.meets_jobs]
  have hsame : ∀ c x, Same past (⟨.engine c, x⟩ :: ⟨.engine .now, now⟩ :: past) := fun c x => ⟨rfl, rfl⟩
  refine ⟨fun hk _ => ?_, ?_, ?_⟩
  · rw [Workers.isUpload_eq_not, hk] at hj
    exact hj.resolve_left Bool.false_ne_true
  · rintro granted _ rfl
    cases granted with
    | false => exact ⟨hsame _ _, fun _ hat => (nomatch hat.2.2), fun _ hc => (nomatch hc)⟩
    | true =>
      rw [if_pos rfl, meets_bind]
      unfold Queue.announce
      rw [Engine.meets_emit]
      refine ⟨trivial, ?_⟩
      rintro _ _ rfl
      refine ⟨⟨rfl, rfl⟩, fun hc => (nomatch hc), fun c hc => ?_⟩
      obtain rfl := Option.some.inj hc
      refine ⟨rfl, rfl, fun hu hat => ?_⟩
      rw [Workers.isUpload_eq_not, hat.1] at hu
      exact nomatch hu
  · rintro fault _ rfl
    exact ⟨⟨_, rfl⟩, hsame _ _, fun hat => (nomatch hat.2.2)⟩

/-- What the work comes to is no matter of permits. -/
theorem meets_outcome {b : Backup} (h : held past = 0) :
    Meets porter.engine (fun _ past' => Same past past') (fun e past' => e.IsError ∧ Same past past') (b.outcome c)
      past := by
  unfold Backup.outcome
  rw [meets_bind, Engine.meets_observe]
  refine Meets.mono (fun _ _ hsame => hsame) (fun e past₁ h₁ => ?_) (meets_engine h)
  cases e with
  | crashed words => exact h₁
  | failed e =>
    dsimp only
    split
    · exact ⟨⟨e, rfl⟩, h₁⟩
    · unfold Backup.outcomeOf
      dsimp only
      split
      · rw [meets_bind, Engine.meets_emit]
        refine ⟨trivial, ?_⟩
        rintro _ _ rfl
        exact h₁.trans (.engine _ _ _)
      · exact h₁
      · exact h₁

/-- A completion is no claim, so the work is over once it is answered. -/
theorem meets_complete {rules : RetryRules} {o : Outcome} (hc : c.state = .running) (h : held past = 0) :
    Meets porter.engine (fun _ past' => Same past past' ∧ ¬AtWork past')
      (fun e past' => e.IsError ∧ Same past past' ∧ ¬AtWork past') (Queue.complete rules c o) past := by
  unfold Queue.complete
  rw [meets_bind, Engine.meets_now]
  refine ⟨trivial, ?_⟩
  rintro now _ rfl
  dsimp only
  have hgives := Verdict.gives_of (rules.policy c.key) c now o
  rw [meets_bind, Engine.meets_ofExcept, hc]
  refine ⟨fun _ _ => ?_, fun e he => ?_⟩
  case refine_2 =>
    obtain ⟨hb, -⟩ := eq_error_of_checkBecomes he
    exact absurd hgives.canBecome (ne_true_of_eq_false hb)
  have hrests : ∀ x, ¬AtWork (⟨.engine (.jobs (.updateIf c ((Verdict.of (rules.policy c.key) c now o).change c now))),
      x⟩ :: ⟨.engine .now, now⟩ :: past) := fun x hat => hgives.isResult.ne_running hat.2.1
  rw [meets_bind, Engine.meets_jobs]
  refine ⟨fun _ _ => h, ?_, ?_⟩
  · rintro granted _ rfl
    cases granted with
    | false => exact ⟨⟨_, rfl⟩, ⟨rfl, rfl⟩, hrests _⟩
    | true =>
      rw [if_pos rfl]
      -- a job that was given up is told of first
      split
      · rw [meets_bind, Engine.meets_emit]
        refine ⟨trivial, ?_⟩
        rintro _ _ rfl
        unfold Queue.announce
        rw [meets_bind, Engine.meets_emit]
        refine ⟨trivial, ?_⟩
        rintro _ _ rfl
        exact ⟨⟨rfl, rfl⟩, hrests _⟩
      · unfold Queue.announce
        rw [meets_bind, Engine.meets_emit]
        refine ⟨trivial, ?_⟩
        rintro _ _ rfl
        exact ⟨⟨rfl, rfl⟩, hrests _⟩
  · rintro fault _ rfl
    exact ⟨⟨_, rfl⟩, ⟨rfl, rfl⟩, hrests _⟩

/-- The work at a job that runs ends with its completion, whatever that is answered. -/
theorem meets_work {b : Backup} (hc : c.state = .running) (h : held past = 0) :
    Meets porter.engine (fun _ past' => Same past past' ∧ ¬AtWork past') (fun e past' => e.IsError ∧ Same past past')
      (b.work c) past := by
  refine Engine.meets_work (meets_outcome h) fun o past₁ h₁ => ?_
  refine Meets.mono ?_ ?_ (meets_complete hc (h₁.held.trans h))
  · exact fun _ past₂ ⟨h₂, hrests⟩ => ⟨h₁.trans h₂, hrests⟩
  · rintro _ past₂ ⟨⟨e, rfl⟩, h₂, hrests⟩
    dsimp only
    split
    · exact ⟨⟨e, rfl⟩, h₁.trans h₂⟩
    · exact ⟨h₁.trans h₂, hrests⟩

end Programs

/-! ## The main line -/

section MainLine

variable {past past' : List Deed} {jobs : List Job} {j : Job} {seen : Option NetworkInfo} {progress : Pass.Progress}

/-- Between two jobs the main line has empty hands and is not at work. -/
structure At (progress : Pass.Progress) (past : List Deed) : Prop where
  held : held past = 0
  idle : ¬AtWork past
  afloat : afloat past = progress.uploads

/-- It holds a permit for the next job, an upload. -/
structure Holding (j : Job) (progress : Pass.Progress) (past : List Deed) : Prop where
  isUpload : j.key.isUpload = true
  held : held past = 1
  idle : ¬AtWork past
  afloat : afloat past = progress.uploads

/-- After the loop, and while the uploads are joined. -/
def Left (progress : Pass.Progress) (past : List Deed) : Prop := held past = 0 ∧ afloat past = progress.uploads

/-- Looking at the network is no matter of permits. -/
theorem meets_look {good : Option NetworkInfo → List Deed → Prop}
    (hgood : ∀ seen x, good seen (⟨.engine .network, x⟩ :: past)) {bad : Stop → List Deed → Prop} :
    Meets porter.engine good bad Pass.look past := by
  refine Pass.meets_look trivial ?_ ?_ ?_
  · rintro _ rfl
    exact hgood _ _
  · rintro info _ rfl
    exact hgood _ _
  · rintro e _ rfl
    exact hgood _ _

theorem meets_tryClaim {good : Pass.Claimed → List Deed → Prop} (hj : j.key.isUpload = true ∨ held past = 0)
    (hidle : ¬AtWork past)
    (hwon : ∀ c past', Same past past' → c.key = j.key → c.state = .running → (j.key.isUpload = true → ¬AtWork past') →
      good (.won c) past')
    (hlost : ∀ past', Same past past' → ¬AtWork past' → good .lost past')
    (hfatal : ∀ e past', Same past past' → ¬AtWork past' → good (.fatal e) past') :
    Meets porter good (fun _ _ => False) (Pass.tryClaim j) past := by
  refine Pass.meets_tryClaim (meets_claim hj hidle) ?_ ?_ ?_ ?_ ?_
  · rintro c past' ⟨hsame, -, hc⟩
    obtain ⟨hkey, hrunning, hrest⟩ := hc c rfl
    exact hwon c past' hsame hkey hrunning hrest
  · exact fun past' ⟨hsame, hrest, _⟩ => hlost past' hsame (hrest rfl)
  · exact fun e past' ⟨_, hsame, hrest⟩ _ => hfatal e past' hsame hrest
  · exact fun e past' ⟨_, hsame, hrest⟩ _ => hlost past' hsame hrest
  · exact fun words past' ⟨⟨_, heq⟩, _⟩ => nomatch heq

/-- The turns of the loop. -/
theorem loop (b : Backup) :
    Pass.Loop porter b (fun _ _ => At) (fun j _ _ => Holding j) Left (fun _ _ => False) where
  ended h := ⟨h.held, h.afloat⟩
  deferred h _ := ⟨h.held, h.idle, h.afloat⟩
  housekeeping {j jobs seen progress past} h _ hj := by
    refine meets_tryClaim (.inr h.held) h.idle ?_ ?_ ?_
    · intro c past₁ h₁ _ hrunning _
      refine Meets.mono ?_ ?_ (meets_work hrunning (h₁.held.trans h.held))
      · rintro state past₂ ⟨h₂, hidle⟩
        exact ⟨(h₁.trans h₂).held.trans h.held, hidle, (h₁.trans h₂).afloat.trans h.afloat⟩
      · rintro e past₂ ⟨⟨e, rfl⟩, h₂⟩
        exact ⟨(h₁.trans h₂).held.trans h.held, (h₁.trans h₂).afloat.trans h.afloat⟩
    · exact fun past₁ h₁ hidle => ⟨h₁.held.trans h.held, hidle, h₁.afloat.trans h.afloat⟩
    · exact fun e past₁ h₁ _ => ⟨h₁.held.trans h.held, h₁.afloat.trans h.afloat⟩
  permit {j jobs seen progress past} h _ hj := by
    refine Pass.meets_takePermit ⟨h.held, h.idle⟩ ?_ ?_
    · rintro _ rfl
      exact ⟨hj, congrArg (· + 1) h.held, h.idle, h.afloat⟩
    · rintro _ rfl
      refine ⟨⟨h.held, h.idle⟩, ?_⟩
      rintro _ rfl
      exact meets_look fun _ _ => ⟨hj, congrArg (· + 1) h.held, h.idle, h.afloat⟩
  returned {j jobs seen progress past} h _ := by
    refine Pass.meets_call.mpr ⟨h.held, ?_⟩
    rintro _ _ rfl
    exact ⟨congrArg (· - 1) h.held, h.idle, h.afloat⟩
  upload {j jobs seen progress past} h _ := by
    refine meets_tryClaim (.inl h.isUpload) h.idle ?_ ?_ ?_
    · intro c past₁ h₁ hkey _ hidle
      refine Pass.meets_call.mpr ⟨⟨h₁.held.trans h.held, hkey ▸ h.isUpload⟩, ?_⟩
      rintro _ _ rfl
      exact ⟨congrArg (· - 1) (h₁.held.trans h.held), hidle h.isUpload, congrArg (· + 1) (h₁.afloat.trans h.afloat)⟩
    · intro past₁ h₁ hidle
      refine Pass.meets_call.mpr ⟨h₁.held.trans h.held, ?_⟩
      rintro _ _ rfl
      exact ⟨congrArg (· - 1) (h₁.held.trans h.held), hidle, h₁.afloat.trans h.afloat⟩
    · intro e past₁ h₁ _
      refine Pass.meets_call.mpr ⟨h₁.held.trans h.held, ?_⟩
      rintro _ _ rfl
      exact ⟨congrArg (· - 1) (h₁.held.trans h.held), h₁.afloat.trans h.afloat⟩

/-- At its end the main line has empty hands and nothing to join. -/
def Ends (past : List Deed) : Prop := held past = 0 ∧ afloat past = 0

theorem meets_joinUploads (h : Left progress past) {bad : Stop → List Deed → Prop} :
    Meets porter (fun _ past' => Ends past') bad (Pass.joinUploads progress.uploads progress) past := by
  refine @Pass.meets_joinUploads _ porter bad past (fun left _ past => held past = 0 ∧ afloat past = left) ?_ _ _ h
  rintro left progress past ⟨hheld, hafloat⟩
  refine ⟨fun hnone => absurd (hafloat.symm.trans hnone) (Nat.succ_ne_zero left), ?_⟩
  rintro r _ rfl
  exact ⟨hheld, congrArg (· - 1) hafloat⟩

/-- Before the loop the main line has empty hands, is not at work and has started nothing. -/
def Rests (past : List Deed) : Prop := held past = 0 ∧ ¬AtWork past ∧ afloat past = 0

theorem preserves_jobs {st : JobStatement} (hst : ∀ j change, st ≠ .updateIf j change) :
    Engine.Preserves porter.engine Rests (Engine.jobs st) := by
  intro past h
  have hrests : ∀ x, Rests (⟨.engine (.jobs st), x⟩ :: past) := by
    cases st with
    | updateIf j change => exact absurd rfl (hst j change)
    | _ => exact fun _ => h
  refine Engine.meets_jobs.mpr ⟨may_engine h.1 _, ?_, ?_⟩
  · rintro x _ rfl
    exact hrests _
  · rintro fault _ rfl
    exact hrests _

theorem preserves_now : Engine.Preserves porter.engine Rests Engine.now := by
  refine fun past h => Engine.meets_now.mpr ⟨trivial, ?_⟩
  rintro now _ rfl
  exact h

theorem preserves_sift (rows : List Decoded) (d : DueJobs) :
    Engine.Preserves porter.engine Rests (Queue.sift rows d) := by
  induction rows generalizing d with
  | nil => exact Engine.preserves_pure d
  | cons row rows ih =>
    cases row with
    | valid j => exact ih _
    | corrupt key reason =>
      refine Engine.preserves_bind (Engine.preserves_bind preserves_now fun now => ?_) fun _ => ih _
      refine Engine.preserves_bind (preserves_jobs fun _ _ => JobStatement.noConfusion) fun _ past h => ?_
      refine Engine.meets_emit.mpr ⟨trivial, ?_⟩
      rintro _ _ rfl
      exact h

theorem preserves_promote : Engine.Preserves porter.engine Rests Queue.promote :=
  Engine.preserves_bind preserves_now fun _ => preserves_jobs fun _ _ => JobStatement.noConfusion

theorem preserves_due : Engine.Preserves porter.engine Rests Queue.due := by
  refine Engine.preserves_bind preserves_now fun now => ?_
  refine Engine.preserves_bind (preserves_jobs fun _ _ => JobStatement.noConfusion) fun rows past h => ?_
  rw [meets_map]
  exact preserves_sift rows _ past h

/-- The main line of a pass keeps to it, whatever it is answered. -/
theorem run_keeps (b : Backup) : (ExceptT.run (Pass.run b)).Keeps porter (fun _ past => Ends past) [] := by
  suffices hmeets : Meets porter (fun _ past => Ends past) (fun _ past => Ends past) (Pass.run b) [] by
    refine Keeps.mono (fun r past hends => ?_) hmeets
    cases r <;> exact hends
  have hends : ∀ {past}, Rests past → Ends past := fun h => ⟨h.1, h.2.2⟩
  refine Pass.meets_run Left (fun _ => Ends) ?_ (fun progress past h => meets_joinUploads h) fun progress past h =>
    ⟨fun _ => h, fun _ _ => h⟩
  refine Meets.mono (fun promoted past₁ h₁ => ?_) (fun _ _ h₁ => hends h₁) (preserves_promote [] ⟨rfl, id, rfl⟩)
  refine Meets.mono (fun due past₂ h₂ => ?_) (fun _ _ h₂ => hends h₂) (preserves_due past₁ h₁)
  refine ⟨fun _ => hends h₂, fun _ => meets_look fun seen x => ?_⟩
  have hat : At ⟨{ (default : PassReport) with promoted := promoted, quarantined := due.quarantined }, 0, none⟩
      (⟨.engine .network, x⟩ :: past₂) := ⟨h₂.1, h₂.2.1, h₂.2.2⟩
  exact Meets.mono (fun _ _ h => h) (fun _ _ h => h.elim) ((loop b).meets_runJobs hat)

end MainLine

/-! ## A pass under way -/

/-- A pass that keeps to the protocol, where each upload of the main line is under way or waits to be joined. -/
structure Moored (past : List Deed) (c : Crew (Except Stop PassReport)) : Prop where
  main : c.main.Keeps porter (fun _ past => Ends past) past
  lawful : Lawful past
  afloat : afloat past = c.uploads.length + c.ended.length

/-- The permits that the pass has: those of its uploads, and those that its main line holds. -/
def taken (past : List Deed) (c : Crew (Except Stop PassReport)) : Nat := c.uploads.length + held past

section Crews

variable {σ : Type} {W : Ways σ} {b : Backup} {past : List Deed} {us us' : List Crew.UploadLine}
  {ended ended' : List (Except Stop JobState)} {free free' : Nat} {s t : σ}

theorem moored_fresh (b : Backup) : Moored [] (Recovery.fresh b) := ⟨run_keeps b, trivial, rfl⟩

/-- A call of the main line keeps the pass moored, and changes no sum of permits. -/
theorem Moored.goes {e : PassCall} {next : e.Answer → Crew.MainLine (Except Stop PassReport)} {x : e.Answer}
    (h : Moored past ⟨.ask e next, us, ended, free⟩)
    (hm : Crew.Moves b W ⟨.ask e .done, us, ended, free⟩ s ⟨.done x, us', ended', free'⟩ t) :
    Moored (⟨e, x⟩ :: past) ⟨next x, us', ended', free'⟩ ∧
      free' + taken (⟨e, x⟩ :: past) ⟨next x, us', ended', free'⟩ =
        free + taken past ⟨.ask e next, us, ended, free⟩ := by
  obtain ⟨⟨hmay, hmain⟩, hlawful, hafloat⟩ := h
  replace hmain := hmain x _ rfl
  replace hlawful : Lawful (⟨e, x⟩ :: past) := ⟨hmay, hlawful⟩
  dsimp only at hafloat
  cases hm with
  | engine hx => exact ⟨⟨hmain, hlawful, hafloat⟩, rfl⟩
  | refused => exact ⟨⟨hmain, hlawful, hafloat⟩, rfl⟩
  | granted =>
    refine ⟨⟨hmain, hlawful, hafloat⟩, ?_⟩
    show free' + (us.length + (held past + 1)) = free' + 1 + (us.length + held past)
    omega
  | waited =>
    refine ⟨⟨hmain, hlawful, hafloat⟩, ?_⟩
    show free' + (us.length + (held past + 1)) = free' + 1 + (us.length + held past)
    omega
  | returned =>
    refine ⟨⟨hmain, hlawful, hafloat⟩, ?_⟩
    have hheld : held past = 1 := hmay
    show free + 1 + (us.length + (held past - 1)) = free + (us.length + held past)
    omega
  | started =>
    have hheld : held past = 1 := hmay.1
    refine ⟨⟨hmain, hlawful, ?_⟩, ?_⟩
    · show Permits.afloat past + 1 = _
      simp only [List.length_append, List.length_singleton]
      omega
    · unfold taken
      simp only [List.length_append, List.length_singleton]
      show free + (us.length + 1 + (held past - 1)) = free + (us.length + held past)
      omega
  | joined =>
    refine ⟨⟨hmain, hlawful, ?_⟩, rfl⟩
    show Permits.afloat past - 1 = us.length + ended'.length
    rw [List.length_cons] at hafloat
    omega

/-- So does a call of an upload, and its end. -/
theorem Moored.beside {main : Crew.MainLine (Except Stop PassReport)} (h : Moored past ⟨main, us, ended, free⟩)
    (hm : Crew.Moves b W ⟨.done (), us, ended, free⟩ s ⟨.done (), us', ended', free'⟩ t) :
    Moored past ⟨main, us', ended', free'⟩ ∧
      free' + taken past ⟨main, us', ended', free'⟩ = free + taken past ⟨main, us, ended, free⟩ := by
  obtain ⟨hmain, hlawful, hafloat⟩ := h
  dsimp only at hafloat
  unfold taken
  cases hm with
  | called hx =>
    rw [List.length_append, List.length_cons] at hafloat
    refine ⟨⟨hmain, hlawful, ?_⟩, ?_⟩
    · rwa [List.length_append, List.length_cons]
    · simp only [List.length_append, List.length_cons]
  | left =>
    rw [List.length_append, List.length_cons] at hafloat
    refine ⟨⟨hmain, hlawful, ?_⟩, ?_⟩
    · simp only [List.length_append, List.length_singleton]
      omega
    · simp only [List.length_append, List.length_cons]
      omega

/-- At the end of its main line nothing of a pass is left. -/
theorem Moored.at_end {r : Except Stop PassReport} (h : Moored past ⟨.done r, us, ended, free⟩) :
    us = [] ∧ ended = [] ∧ held past = 0 := by
  obtain ⟨⟨hheld, hafloat⟩, -, hlengths⟩ := h
  rw [hafloat] at hlengths
  dsimp only at hlengths
  exact ⟨List.eq_nil_of_length_eq_zero (by omega), List.eq_nil_of_length_eq_zero (by omega), hheld⟩

/-- In a world that answers every call, a pass that has the permits for itself can go on unless it is at its end. -/
theorem Moored.exists_goes {c : Crew (Except Stop PassReport)} (h : Moored past c)
    (hpermits : c.free + taken past c ≠ 0) (hW : ∀ e, ∃ x t, W s e x t) : (∃ r, c.main = .done r) ∨ ∃ d t, Crew.Goes b W c s d t := by
  obtain ⟨hmain, -, hafloat⟩ := h
  rcases Crew.exists_goes hW c with hdone | hgoes | ⟨hnone, hwaits⟩
  · exact .inl hdone
  · exact .inr hgoes
  · -- with no upload under way, all permits are free and there is nothing to join
    unfold taken at hpermits
    rw [hnone] at hpermits hafloat
    rcases hwaits with ⟨hfree, next, hask⟩ | ⟨hended, next, hask⟩
    · rw [hask] at hmain
      have hheld : held past = 0 := hmain.1.1
      exact absurd (show c.free + ([].length + held past) = 0 by rw [hfree, hheld]; rfl) hpermits
    · rw [hask] at hmain
      rw [hended] at hafloat
      exact absurd hafloat hmain.1

/-- Every step of a pass is one of the two kinds. -/
theorem Moored.of_goes {c d : Crew (Except Stop PassReport)} (h : Moored past c) (hg : Crew.Goes b W c s d t) :
    ∃ past', Moored past' d ∧ d.free + taken past' d = c.free + taken past c := by
  obtain ⟨main, us, ended, free⟩ := c
  obtain ⟨main', us', ended', free'⟩ := d
  rcases (Crew.moves_of_goes hg).main_or_beside with ⟨e, next, x, rfl, rfl, hm⟩ | ⟨rfl, hm⟩
  · exact ⟨_, h.goes hm⟩
  · exact ⟨_, h.beside hm⟩

end Crews

end MediaBackup.Permits

/-! ## Passes come to their end -/

namespace MediaBackup

/-- A pass, and the world that it is run in, after one step. -/
def Crew.Turn {σ : Type} (b : Backup) (W : Ways σ) (a c : Crew (Except Stop PassReport) × σ) : Prop :=
  Crew.Goes b W a.1 a.2 c.1 c.2

/-- In a world that answers every call a pass comes to its end, whatever the order of its steps; and a guide that it
    keeps to leads there. -/
theorem Guide.comes_to_end {σ μ ν : Type} {b : Backup} {W : Ways σ} {g : Guide b W μ ν}
    {post : Except Stop PassReport → μ → Prop} {s : σ} (hpermits : 0 < b.permits) (hW : ∀ s e, ∃ x t, W s e x t)
    (h : g.Holds post (Recovery.fresh b) s) :
    Comes (Crew.Turn b W) (fun a => (∃ r, a.1.main = .done r) ∧ a.1.uploads = [] ∧ g.Holds post a.1 a.2)
      (Recovery.fresh b, s) := by
  suffices hcomes : ∀ (c : Crew (Except Stop PassReport)) (past : List Permits.Deed) (s : σ), Permits.Moored past c →
      c.free + Permits.taken past c = b.permits → g.Holds post c s →
      Comes (Crew.Turn b W) (fun a => (∃ r, a.1.main = .done r) ∧ a.1.uploads = [] ∧ g.Holds post a.1 a.2) (c, s) from
    hcomes _ _ s (Permits.moored_fresh b) rfl h
  intro c
  induction c using Crew.follows_wf.induction with
  | _ c ih =>
  intro past s hmoored hsum hholds
  have hsome : c.free + Permits.taken past c ≠ 0 := by omega
  by_cases hdone : ∃ r, c.main = .done r
  · obtain ⟨main, us, ended, free⟩ := c
    obtain ⟨r, hr⟩ := hdone
    obtain rfl : main = .done r := hr
    exact .here ⟨⟨r, rfl⟩, hmoored.at_end.1, hholds⟩
  · obtain ⟨d, t, hgoes⟩ := (hmoored.exists_goes hsome (hW s)).resolve_left hdone
    refine .goes ⟨(d, t), hgoes⟩ fun a ha => ?_
    obtain ⟨past', hmoored', hsum'⟩ := hmoored.of_goes ha
    obtain ⟨_, _, hfollows, -, -⟩ := id ha
    exact ih a.1 hfollows past' a.2 hmoored' (hsum'.trans hsum) (Guide.holds_of_goes hholds ha)

end MediaBackup
