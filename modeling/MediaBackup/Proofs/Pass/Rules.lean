import MediaBackup.Pass.Basic
import MediaBackup.Proofs.Engine.Protocol

/-
  Rules for the parts of a pass under any protocol.

  A program of the engine meets in a pass what it meets by itself (`meets_engine`), so everything known of the
  operations of the queue can be used in the main line.
-/

namespace MediaBackup

/-- What a main line may ask of the world around the engine. -/
def Protocol.engine {σ : Type} (w : Protocol PassCall PassCall.Answer σ) : Protocol Call Call.Answer σ where
  may s c := w.may s (.engine c)
  answers s c x t := w.answers s (.engine c) x t

namespace Pass

open Script

variable {σ α : Type} {w : Protocol PassCall PassCall.Answer σ} {bad : Stop → σ → Prop} {s : σ}

theorem keeps_ofScript {post : α → σ → Prop} {p : Script Call Call.Answer α} :
    (ofScript p).Keeps w post s ↔ p.Keeps w.engine post s := by
  induction p generalizing s with
  | done a => exact Iff.rfl
  | ask e next ih =>
    constructor
    · rintro ⟨hm, hn⟩
      exact ⟨hm, fun x t ht => (ih x).1 (hn x t ht)⟩
    · rintro ⟨hm, hn⟩
      exact ⟨hm, fun x t ht => (ih x).2 (hn x t ht)⟩

theorem meets_engine {p : Engine α} {good : α → σ → Prop} :
    Meets w good bad (engine p) s ↔ Meets w.engine good bad p s := keeps_ofScript

theorem meets_call {c : PassCall} {good : c.Answer → σ → Prop} :
    Meets w good bad (call c) s ↔ w.may s c ∧ ∀ x t, w.answers s c x t → good x t := Iff.rfl

/-- Looking at the network. -/
theorem meets_look {good : Option NetworkInfo → σ → Prop} {w : Protocol Call Call.Answer σ}
    (hm : w.may s .network)
    (hnone : ∀ t, w.answers s .network none t → good none t)
    (hinfo : ∀ info t, w.answers s .network (some (.ok info)) t → good (some info) t)
    (herror : ∀ e t, w.answers s .network (some (.error e)) t → good (some .unknown) t) :
    Meets w good bad look s := by
  unfold look
  rw [meets_bind, Engine.meets_call]
  refine ⟨hm, fun x t ht => ?_⟩
  cases x with
  | none => exact hnone t ht
  | some r =>
    cases r with
    | ok info => exact hinfo info t ht
    | error e => exact herror e t ht

/-- A permit is taken at once, or waited for. -/
theorem meets_takePermit {good : Bool → σ → Prop} (hm : w.may s .tryPermit)
    (htrue : ∀ t, w.answers s .tryPermit true t → good false t)
    (hfalse : ∀ t, w.answers s .tryPermit false t →
      w.may t .waitPermit ∧ ∀ u, w.answers t .waitPermit () u → good true u) :
    Meets w good bad takePermit s := by
  unfold takePermit
  rw [meets_bind, meets_call]
  refine ⟨hm, fun x t ht => ?_⟩
  cases x with
  | true => exact htrue t ht
  | false =>
    obtain ⟨hw, hg⟩ := hfalse t ht
    rw [if_neg Bool.false_ne_true, meets_bind]
    exact ⟨hw, fun _ u hu => hg u hu⟩

/-- A claim is won or lost, or the database is out of reach. -/
theorem meets_tryClaim {good : Claimed → σ → Prop} {j : Job} {won : Option Job → σ → Prop}
    {stop : Stop → σ → Prop}
    (h : Meets w.engine won stop (Queue.claim j) s)
    (hwon : ∀ c t, won (some c) t → good (.won c) t) (hlost : ∀ t, won none t → good .lost t)
    (hfatal : ∀ e t, stop (.failed e) t → e.isFatal = true → good (.fatal e) t)
    (hfailed : ∀ e t, stop (.failed e) t → e.isFatal = false → good .lost t)
    (hcrashed : ∀ words t, stop (.crashed words) t → bad (.crashed words) t) :
    Meets w good bad (tryClaim j) s := by
  unfold tryClaim
  rw [meets_bind, meets_engine, Engine.meets_observe]
  refine Meets.mono (fun o t ho => ?_) (fun e t he => ?_) h
  · cases o with
    | some c => exact hwon c t ho
    | none => exact hlost t ho
  · cases e with
    | crashed words => exact hcrashed words t he
    | failed e =>
      show good (if e.isFatal then .fatal e else .lost) t
      cases hf : e.isFatal with
      | true => exact hfatal e t he hf
      | false => exact hfailed e t he hf

/-! ## The loops of the main line -/

/-- What the turns of the loop through the jobs have to preserve: `At` holds at the head of the loop, and `Holding`
    where a permit for an upload was taken. -/
structure Loop (w : Protocol PassCall PassCall.Answer σ) (b : Backup)
    (At : List Job → Option NetworkInfo → Progress → σ → Prop)
    (Holding : Job → List Job → Option NetworkInfo → Progress → σ → Prop) (good : Progress → σ → Prop)
    (bad : Stop → σ → Prop) : Prop where
  ended : ∀ {seen p s}, At [] seen p s → good p s
  deferred : ∀ {j jobs seen p s}, At (j :: jobs) seen p s → j.constraints.satisfiedBy seen = false →
    At jobs seen p.deferred s
  housekeeping : ∀ {j jobs seen p s}, At (j :: jobs) seen p s → j.constraints.satisfiedBy seen = true →
    j.key.isUpload = false →
    Meets w (fun r t => match r with
      | .won c => Meets w.engine (fun state u => At jobs seen (p.started.recorded state) u)
        (fun e u => match e with
          | .failed e => good (p.started.failed e) u
          | .crashed words => bad (.crashed words) u) (b.work c) t
      | .lost => At jobs seen p.skipped t
      | .fatal e => good (p.failed e) t) bad (tryClaim j) s
  permit : ∀ {j jobs seen p s}, At (j :: jobs) seen p s → j.constraints.satisfiedBy seen = true →
    j.key.isUpload = true →
    Meets w (fun waited t =>
      if waited then Meets w.engine (fun seen u => Holding j jobs seen p u) bad look t
      else Holding j jobs seen p t) bad takePermit s
  returned : ∀ {j jobs seen p s}, Holding j jobs seen p s → j.constraints.satisfiedBy seen = false →
    Meets w (fun _ t => At jobs seen p.deferred t) bad (call .returnPermit) s
  upload : ∀ {j jobs seen p s}, Holding j jobs seen p s → j.constraints.satisfiedBy seen = true →
    Meets w (fun r t => match r with
      | .won c => Meets w (fun _ u => At jobs seen p.uploading u) bad (call (.start c)) t
      | .lost => Meets w (fun _ u => At jobs seen p.skipped u) bad (call .returnPermit) t
      | .fatal e => Meets w (fun _ u => good (p.failed e) u) bad (call .returnPermit) t) bad (tryClaim j) s

/-- The loop through the jobs. -/
theorem Loop.meets_runJobs {b : Backup} {At : List Job → Option NetworkInfo → Progress → σ → Prop}
    {Holding : Job → List Job → Option NetworkInfo → Progress → σ → Prop} {good : Progress → σ → Prop}
    (h : Loop w b At Holding good bad) {jobs : List Job} {seen : Option NetworkInfo} {p : Progress}
    (hat : At jobs seen p s) : Meets w good bad (runJobs b jobs seen p) s := by
  induction jobs generalizing seen p s with
  | nil => exact h.ended hat
  | cons j jobs ih =>
    unfold runJobs
    cases hmet : j.constraints.satisfiedBy seen with
    | false =>
      rw [if_pos (by rfl)]
      exact ih (h.deferred hat hmet)
    | true =>
    rw [if_neg (by decide)]
    cases hupload : j.key.isUpload with
    | false =>
      rw [if_neg (by decide), meets_bind]
      refine Meets.mono (fun r t hr => ?_) (fun _ _ he => he) (h.housekeeping hat hmet hupload)
      cases r with
      | lost => exact ih hr
      | fatal e => exact hr
      | won c =>
        refine meets_bind.2 (meets_engine.2 (Engine.meets_observe.2 ?_))
        refine Meets.mono (fun state u hu => ih hu) (fun e u hu => ?_) hr
        cases e with
        | failed e => exact hu
        | crashed words => exact hu
    | true =>
      -- with the permit the network is met as it was seen last
      have hclaim : ∀ {seen t}, Holding j jobs seen p t → j.constraints.satisfiedBy seen = true →
          Meets w good bad (tryClaim j >>= fun r => match r with
            | .won c => call (.start c) >>= fun _ => runJobs b jobs seen p.uploading
            | .lost => call .returnPermit >>= fun _ => runJobs b jobs seen p.skipped
            | .fatal e => call .returnPermit >>= fun _ => pure (p.failed e)) t := by
        intro seen t ht hmet
        rw [meets_bind]
        refine Meets.mono (fun r u hr => ?_) (fun _ _ he => he) (h.upload ht hmet)
        cases r with
        | won c => exact meets_bind.2 (Meets.mono (fun _ _ hu => ih hu) (fun _ _ he => he) hr)
        | lost => exact meets_bind.2 (Meets.mono (fun _ _ hu => ih hu) (fun _ _ he => he) hr)
        | fatal e => exact meets_bind.2 hr
      rw [if_pos rfl, meets_bind]
      refine Meets.mono (fun waited t ht => ?_) (fun _ _ he => he) (h.permit hat hmet hupload)
      cases waited with
      | false => exact hclaim ht hmet
      | true =>
        rw [if_pos rfl] at ht
        refine meets_bind.2 (meets_engine.2 (Meets.mono (fun seen u hu => ?_) (fun _ _ he => he) ht))
        dsimp only
        cases hmet : j.constraints.satisfiedBy seen with
        | false =>
          rw [if_pos (by rfl)]
          exact meets_bind.2 (Meets.mono (fun _ _ hv => ih hv) (fun _ _ he => he) (h.returned hu hmet))
        | true =>
          rw [if_neg (by decide)]
          exact hclaim hu hmet

/-- The progress after an upload was joined. -/
def Progress.joined (p : Progress) : Except Stop JobState → Progress
  | .ok state => p.recorded state
  | .error (.failed e) => p.failed e
  | .error (.crashed _) => p

/-- The loop that joins the uploads. -/
theorem meets_joinUploads {At : Nat → Progress → σ → Prop}
    (h : ∀ {n p s}, At (n + 1) p s → w.may s .join ∧ ∀ r t, w.answers s .join r t →
      At n (p.joined r) t) {n : Nat}
    {p : Progress} (hat : At n p s) : Meets w (fun p t => At 0 p t) bad (joinUploads n p) s := by
  induction n generalizing p s with
  | zero => exact hat
  | succ n ih =>
    unfold joinUploads
    rw [meets_bind]
    obtain ⟨hm, hr⟩ := h hat
    refine ⟨hm, fun r t ht => ?_⟩
    have hn := hr r t ht
    cases r with
    | ok state => exact ih hn
    | error e =>
      cases e with
      | failed e => exact ih hn
      | crashed words => exact ih hn

/-! ## The whole pass -/

/-- A pass with nothing due is over at once; another one looks at the network, goes through the jobs, joins the uploads
    and ends with the first failure that it kept. -/
theorem meets_run {b : Backup} {good : PassReport → σ → Prop} (left joined : Progress → σ → Prop)
    (h : Meets w.engine (fun promoted t => Meets w.engine (fun due u =>
      (due.jobs = [] →
        good { (default : PassReport) with promoted := promoted, quarantined := due.quarantined } u) ∧
      (due.jobs ≠ [] → Meets w.engine (fun seen v => Meets w left bad (runJobs b due.jobs seen
        ⟨{ (default : PassReport) with promoted := promoted, quarantined := due.quarantined }, 0,
          none⟩) v) bad look u))
      bad Queue.due t) bad Queue.promote s)
    (hjoin : ∀ p t, left p t → Meets w joined bad (joinUploads p.uploads p) t)
    (hend : ∀ p t, joined p t →
      (p.fatal = none → good p.report t) ∧ ∀ e, p.fatal = some e → bad (.failed e) t) :
    Meets w good bad (run b) s := by
  unfold run
  refine meets_bind.2 (meets_engine.2 (Meets.mono (fun promoted t ht => ?_) (fun _ _ he => he) h))
  refine meets_bind.2 (meets_engine.2 (Meets.mono (fun due u hu => ?_) (fun _ _ he => he) ht))
  obtain ⟨hnone, hsome⟩ := hu
  dsimp only
  split
  · rename_i hempty
    exact hnone (List.isEmpty_iff.1 hempty)
  · rename_i hempty
    have hlook := hsome fun hj => hempty (List.isEmpty_iff.2 hj)
    refine meets_bind.2 (meets_engine.2 (Meets.mono (fun seen v hv => ?_) (fun _ _ he => he) hlook))
    refine meets_bind.2 (Meets.mono (fun p x hp => ?_) (fun _ _ he => he) hv)
    refine meets_bind.2 (Meets.mono (fun q y hq => ?_) (fun _ _ he => he) (hjoin p x hp))
    obtain ⟨hgood, hbad⟩ := hend q y hq
    cases hf : q.fatal with
    | none => exact hgood hf
    | some e => exact hbad e hf

end Pass

end MediaBackup
