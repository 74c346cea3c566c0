import MediaBackup.Proofs.Pass.Chronicle
import MediaBackup.Proofs.Pass.Permits

/-
  What may stop a pass.

  Nothing is expected of the world: any call may be answered with anything, and a host may break down under any of
  them.  An error that stops a pass is a failure of the database that was the answer to one of its calls (`Blamed`).
  What the programs of the engine have to do with it is told by their own entries (`noted`); what a pass joins of its
  uploads is told by what they were answered.
-/

namespace MediaBackup

/-- The error is a failure of the database, and one of the entries shows it. -/
def Stop.Blamed (told : List Entry) (e : Stop) : Prop :=
  ∃ fault, e = .failed (.database fault) ∧ ∃ d ∈ told, fault ∈ d.faults

namespace Faults

open Script

variable {told told' : List Entry} {e : Stop} {α : Type}

theorem blamed_mono (h : e.Blamed told) (hsub : ∀ d ∈ told, d ∈ told') : e.Blamed told' := by
  obtain ⟨fault, rfl, d, hd, hfault⟩ := h
  exact ⟨fault, rfl, d, hsub d hd, hfault⟩

/-! ## Programs of the engine -/

/-- The property that is preserved is none. -/
abbrev Any (_ : List Entry) : Prop := True

/-- The program is stopped by what may be blamed, and else not. -/
def Stops (p : Engine α) : Prop := ∀ told, Meets noted (fun _ => Any) (fun e told => e.Blamed told) p told

/-- It is stopped by an error; one that nothing can be done about may be blamed. -/
def Fails (p : Engine α) : Prop :=
  ∀ told, Meets noted (fun _ => Any) (fun e told => e.IsError ∧ (e.IsFatal → e.Blamed told)) p told

theorem blamed_jobs {st : JobStatement} {fault : StoreFault} (h : noted.answers told (.jobs st) (.error fault) told') :
    (Stop.failed (.database fault)).Blamed told' := by
  obtain ⟨-, before, after, rfl⟩ := h
  exact ⟨fault, rfl, _, .head _, .head _⟩

theorem not_isFatal_transition (fault : TransitionFault) : ¬(Stop.failed (.transition fault)).IsFatal := by
  rintro ⟨_, heq, hfatal⟩
  obtain rfl := Stop.failed.inj heq
  exact Bool.false_ne_true hfatal

theorem noted_silent : noted.Silent fun _ _ => True where
  trans _ _ _ _ _ := trivial
  mayNow _ := trivial
  now _ _ _ h := ⟨h.1, trivial⟩
  mayEmit _ _ := trivial
  emit _ _ _ _ := trivial

theorem answerable : Engine.Answerable noted Any fun e told => e.Blamed told where
  call _ _ _ _ := Engine.meets_call.mpr ⟨trivial, fun _ _ _ => trivial⟩
  date _ _ _ _ h := h.1
  fault := by
    rintro st fault told _ - ⟨-, before, after, rfl⟩
    exact ⟨fault, rfl, _, .head _, .head _⟩

theorem upholds_jobs (st : JobStatement) :
    Engine.Upholds noted Any (fun e told => e.Blamed told) (Engine.jobs st) := fun _ _ =>
  Engine.meets_jobs.mpr ⟨trivial, fun _ _ _ => trivial, fun _ _ h => ⟨trivial, fun _ => blamed_jobs h⟩⟩

theorem upholds_enqueueWithin (r : JobRequest) (rounds : Nat) :
    Engine.Upholds noted Any (fun e told => e.Blamed told) (Queue.enqueueWithin r rounds) := by
  induction rounds with
  | zero => exact Engine.upholds_fail rfl
  | succ rounds ih =>
    refine answerable.bind_now fun now _ => Engine.upholds_bind (upholds_jobs _) fun found => ?_
    match found with
    | none =>
      refine Engine.upholds_bind (upholds_jobs _) fun inserted => ?_
      cases inserted with
      | true => exact Engine.upholds_pure _
      | false => exact ih
    | some (.corrupt key reason) =>
      refine Engine.upholds_bind (answerable.bind_now fun now _ => ?_) fun _ => ih
      exact Engine.upholds_bind (upholds_jobs _) fun _ => answerable.emit _
    | some (.valid existing) =>
      dsimp only
      split
      · exact Engine.upholds_pure _
      · refine Engine.upholds_bind (upholds_jobs _) fun replaced => ?_
        cases replaced with
        | true => exact Engine.upholds_bind (answerable.emit _) fun _ => Engine.upholds_pure _
        | false => exact ih

theorem fails_complete (rules : RetryRules) (c : Job) (o : Outcome) : Fails (Queue.complete rules c o) := by
  intro told
  have hrefused : ∀ fault told', (Stop.failed (.transition fault)).IsError ∧
      ((Stop.failed (.transition fault)).IsFatal → (Stop.failed (.transition fault)).Blamed told') :=
    fun fault _ => ⟨⟨_, rfl⟩, fun hfatal => absurd hfatal (not_isFatal_transition fault)⟩
  refine Queue.meets_complete noted_silent (fun _ _ _ _ => hrefused _ _) fun change told₁ _ _ _ _ _ => ?_
  exact ⟨trivial, fun _ _ _ _ => trivial, fun _ _ => hrefused _ _,
    fun fault _ h => ⟨⟨_, rfl⟩, fun _ => blamed_jobs h⟩⟩

theorem fails_claim (j : Job) : Fails (Queue.claim j) := by
  intro told
  refine Queue.meets_claim noted_silent (fun _ => ⟨⟨_, rfl⟩, fun hfatal => absurd hfatal (not_isFatal_transition _)⟩) ?_
  intro _ now told₁ _ _
  exact ⟨trivial, fun _ _ _ _ => trivial, fun _ _ => trivial, fun fault _ h => ⟨⟨_, rfl⟩, fun _ => blamed_jobs h⟩⟩

/-- The work at a job ends in a state, or the database has failed. -/
theorem stops_work (b : Backup) (c : Job) : Stops (b.work c) := by
  intro told
  have houtcome : Meets noted (fun _ => Any) (fun e told => e.Blamed told) (b.outcome c) told :=
    Meets.mono (fun _ _ h => h) (fun _ _ h => h.2)
      (answerable.meets_outcome trivial fun r _ => upholds_enqueueWithin r _)
  refine Engine.meets_work houtcome fun o told₁ _ => ?_
  refine Meets.mono (fun _ _ _ => trivial) ?_ (fails_complete b.retry c o told₁)
  rintro _ told₂ ⟨⟨e, rfl⟩, hblamed⟩
  dsimp only
  split
  · rename_i hfatal
    exact hblamed ⟨e, rfl, hfatal⟩
  · trivial

theorem stops_promote : Stops Queue.promote := by
  intro told
  refine meets_bind.mpr (Engine.meets_now.mpr ⟨trivial, fun now told₁ _ => ?_⟩)
  exact Engine.meets_jobs.mpr ⟨trivial, fun _ _ _ => trivial, fun _ _ h => blamed_jobs h⟩

theorem stops_sift (rows : List Decoded) (d : DueJobs) : Stops (Queue.sift rows d) := by
  induction rows generalizing d with
  | nil => exact fun _ => trivial
  | cons row rows ih =>
    cases row with
    | valid j => exact ih _
    | corrupt key reason =>
      intro told
      refine meets_bind.mpr (meets_bind.mpr (Engine.meets_now.mpr ⟨trivial, fun now told₁ _ => ?_⟩))
      refine meets_bind.mpr (Engine.meets_jobs.mpr ⟨trivial, fun _ told₂ _ => ?_, fun _ _ h => blamed_jobs h⟩)
      exact Engine.meets_emit.mpr ⟨trivial, fun _ told₃ _ => ih _ told₃⟩

theorem stops_due : Stops Queue.due := by
  intro told
  refine meets_bind.mpr (Engine.meets_now.mpr ⟨trivial, fun now told₁ _ => ?_⟩)
  refine meets_bind.mpr (Engine.meets_jobs.mpr ⟨trivial, fun rows told₂ _ => ?_, fun _ _ h => blamed_jobs h⟩)
  exact meets_map.mpr (stops_sift rows _ told₂)

/-! ## The main line -/

/-- What is known of a main line are its own entries, and at a join those that may be blamed for it. -/
def noting : Protocol PassCall PassCall.Answer (List Entry) where
  may _ _ := True
  answers told c x told' := match c with
    | .engine c => noted.answers told c x told'
    | .join => (∀ d ∈ told, d ∈ told') ∧ ∀ e, x = .error e → e.Blamed told'
    | _ => told' = told

/-- The error that the main line keeps may be blamed. -/
def Kept (p : Pass.Progress) (told : List Entry) : Prop :=
  ∀ e, p.fatal = some e → (Stop.failed e).Blamed told

theorem Kept.of_none {p : Pass.Progress} (h : p.fatal = none) : Kept p told :=
  fun _ he => absurd (he.symm.trans h) (Option.some_ne_none _)

/-- The first error stays. -/
theorem Kept.failed {p : Pass.Progress} {error : SyncError} (h : Kept p told)
    (herror : (Stop.failed error).Blamed told) : Kept (p.failed error) told := by
  intro e he
  obtain rfl := Option.some.inj he
  cases hfatal : p.fatal with
  | none => exact herror
  | some first => exact h first hfatal

theorem meets_tryClaim {good : Pass.Claimed → List Entry → Prop} (j : Job)
    (hwon : ∀ c told', good (.won c) told') (hlost : ∀ told', good .lost told')
    (hfatal : ∀ e told', (Stop.failed e).Blamed told' → good (.fatal e) told') :
    Meets noting good (fun e told => e.Blamed told) (Pass.tryClaim j) told := by
  refine Pass.meets_tryClaim (fails_claim j told) (fun c told' _ => hwon c told') (fun told' _ => hlost told') ?_ ?_ ?_
  · exact fun e told' h hfatal' => hfatal e told' (h.2 ⟨e, rfl, hfatal'⟩)
  · exact fun e told' _ _ => hlost told'
  · exact fun words told' h => absurd h.1 fun ⟨_, heq⟩ => nomatch heq

theorem meets_look {p : Pass.Progress} (h : p.fatal = none) :
    Meets noting.engine (fun _ _ => p.fatal = none) (fun e told => e.Blamed told) Pass.look told :=
  Pass.meets_look trivial (fun _ _ => h) (fun _ _ _ => h) fun _ _ _ => h

/-- The loop goes on only while it keeps no error. -/
theorem loop (b : Backup) :
    Pass.Loop noting b (fun _ _ p _ => p.fatal = none) (fun _ _ _ p _ => p.fatal = none) Kept
      (fun e told => e.Blamed told) where
  ended h := .of_none h
  deferred h _ := h
  housekeeping {j jobs seen p told} h _ _ := by
    refine meets_tryClaim j (fun c told₁ => ?_) (fun _ => h) fun e _ he => (Kept.of_none h).failed he
    refine Meets.mono (fun _ _ _ => h) (fun e told₂ he => ?_) (stops_work b c told₁)
    cases e with
    | failed e => exact Kept.failed (.of_none h) he
    | crashed words => exact he
  permit {j jobs seen p told} h _ _ := by
    refine Pass.meets_takePermit trivial (fun _ _ => h) fun _ _ => ⟨trivial, fun told₂ _ => ?_⟩
    exact meets_look h
  returned h _ := Pass.meets_call.mpr ⟨trivial, fun _ _ _ => h⟩
  upload {j jobs seen p told} h _ := by
    refine meets_tryClaim j (fun c told₁ => ?_) (fun told₁ => ?_) fun e told₁ he => ?_
    · exact Pass.meets_call.mpr ⟨trivial, fun _ _ _ => h⟩
    · exact Pass.meets_call.mpr ⟨trivial, fun _ _ _ => h⟩
    · refine Pass.meets_call.mpr ⟨trivial, ?_⟩
      rintro _ _ rfl
      exact (Kept.of_none h).failed he

theorem meets_joinUploads {p : Pass.Progress} (h : Kept p told) :
    Meets noting Kept (fun e told => e.Blamed told) (Pass.joinUploads p.uploads p) told := by
  refine @Pass.meets_joinUploads _ noting _ told (fun _ => Kept) (fun {left p told} h => ⟨trivial, ?_⟩) p.uploads p h
  rintro r told' ⟨hsub, hblamed⟩
  have hstill : Kept p told' := fun e he => blamed_mono (h e he) hsub
  match r with
  | .ok state => exact hstill
  | .error (.failed e) => exact hstill.failed (hblamed _ rfl)
  | .error (.crashed words) => exact hstill

/-- What stops the main line may be blamed. -/
theorem run_keeps (b : Backup) :
    (ExceptT.run (Pass.run b)).Keeps noting (fun r told => ∀ e, r = .error e → e.Blamed told) [] := by
  suffices hmeets : Meets noting (fun _ _ => True) (fun e told => e.Blamed told) (Pass.run b) [] by
    refine Keeps.mono ?_ hmeets
    rintro (e | report) told h _ heq
    · exact Except.error.inj heq ▸ h
    · cases heq
  refine Pass.meets_run Kept Kept ?_ (fun p told h => meets_joinUploads h) fun p told h => ⟨fun _ => trivial, h⟩
  refine Meets.mono (fun promoted told₁ _ => ?_) (fun _ _ h => h) (stops_promote [])
  refine Meets.mono (fun due told₂ _ => ⟨fun _ => trivial, fun _ => ?_⟩) (fun _ _ h => h) (stops_due told₁)
  refine Meets.mono (fun seen told₃ h => ?_) (fun _ _ h => h)
    (@meets_look told₂ ⟨{ (default : PassReport) with promoted := promoted, quarantined := due.quarantined }, 0,
      none⟩ rfl)
  exact (loop b).meets_runJobs h

/-! ## The whole pass -/

/-- The chronicle has the entries of all members, and those that may be blamed for what the uploads ended with. -/
structure Shown (w : Chronicle) (members : List (List Entry)) (ended : List (Except Stop JobState)) : Prop where
  entries : ∀ told ∈ members, ∀ d ∈ told, d ∈ w.past
  ended : ∀ r ∈ ended, ∀ e, r = .error e → e.Blamed w.past

/-- A member notes one more entry. -/
theorem Shown.write {w v : Chronicle} {c : Call} {x : c.Answer} {before after : List (List Entry)}
    {ended : List (Except Stop JobState)} (h : Shown w (before ++ told :: after) ended)
    (hx : Chronicle.Wild w c x v) :
    ∃ told', noted.answers told c x told' ∧ Shown v (before ++ told' :: after) ended := by
  obtain ⟨hdate, table, rfl⟩ := hx
  have hlater : ∀ d ∈ w.past, d ∈ (w.write c x table).past := fun d hd => .tail _ hd
  refine ⟨⟨c, x, w.jobs, table⟩ :: told, ⟨hdate, _, _, rfl⟩, fun entries hentries d hd => ?_,
    fun r hr e he => blamed_mono (h.ended r hr e he) hlater⟩
  rcases List.mem_append.mp hentries with hbefore | hrest
  · exact hlater d (h.entries entries (List.mem_append_left _ hbefore) d hd)
  rcases List.mem_cons.mp hrest with rfl | hafter
  · rcases List.mem_cons.mp hd with rfl | hd
    · exact .head _
    · exact hlater d (h.entries told (List.mem_append_right _ (.head _)) d hd)
  · exact hlater d (h.entries entries (List.mem_append_right _ (.tail _ hafter)) d hd)

/-- The guide of a pass in the wild. -/
def guide (b : Backup) : Guide b Chronicle.Wild (List Entry) (List Entry) where
  main := noting
  upload := noted
  ends r told := ∀ e, r = .error e → e.Blamed told
  inv w m ls ended _ := Shown w (m :: ls) ended
  engine h _ hx := @Shown.write _ _ _ _ _ [] _ _ h hx
  refused h _ := ⟨_, rfl, h⟩
  granted h _ := ⟨_, rfl, h⟩
  waited h _ := ⟨_, rfl, h⟩
  returned h _ := ⟨_, rfl, h⟩
  started {w m ls ended free j} h _ := by
    refine ⟨_, [], rfl, ?_, fun told htold d hd => ?_, h.ended⟩
    · refine Keeps.mono ?_ (stops_work b j [])
      rintro (e | state) told hstop _ heq
      · exact Except.error.inj heq ▸ hstop
      · cases heq
    · rcases List.mem_append.mp (List.cons_append (a := m) ▸ htold) with htold | htold
      · exact h.entries told htold d hd
      · exact absurd (List.mem_singleton.mp htold ▸ hd) List.not_mem_nil
  joined {w m ls r ended free} h _ := by
    refine ⟨w.past, ⟨h.entries m (.head _), h.ended r (.head _)⟩, fun told htold => ?_,
      fun s hs => h.ended s (.tail _ hs)⟩
    rcases List.mem_cons.mp htold with rfl | htold
    · exact fun _ hd => hd
    · exact h.entries told (.tail _ htold)
  called {w m ls l ks ended free e x v} h _ hx := @Shown.write _ _ _ _ _ (m :: ls) _ _ h hx
  left {w m ls l ks ended free r} h hends := by
    have hin : ∀ told ∈ m :: (ls ++ ks), told ∈ m :: (ls ++ l :: ks) := by
      simp only [List.mem_cons, List.mem_append]
      exact fun told htold => htold.imp_right fun htold => htold.imp_right .inr
    refine ⟨fun told htold => h.entries told (hin told htold), fun s hs e he => ?_⟩
    rcases List.mem_append.mp hs with hs | hs
    · exact h.ended s hs e he
    · obtain rfl := List.mem_singleton.mp hs
      exact blamed_mono (hends e he) (h.entries l (List.mem_append_right (m :: ls) (.head _)))

/-- In the wild a pass comes to its end, and what stopped it is a failure of the database that was an answer in it. -/
theorem comes_to_end {b : Backup} (hpermits : 0 < b.permits) (w : Chronicle) :
    Comes (Crew.Turn b Chronicle.Wild) (fun a => ∃ r, a.1.main = .done r ∧ a.1.uploads = [] ∧
      ∀ e, r = .error e → e.Blamed a.2.past) (Recovery.fresh b, w) := by
  have hholds : (guide b).Holds (fun r told => ∀ e, r = .error e → e.Blamed told) (Recovery.fresh b) w := by
    refine ⟨[], [], run_keeps b, rfl, fun _ hu => (nomatch hu), ⟨fun told htold d hd => ?_, fun _ hr => (nomatch hr)⟩⟩
    exact absurd (List.mem_singleton.mp htold ▸ hd) List.not_mem_nil
  refine (Guide.comes_to_end hpermits Chronicle.exists_wild hholds).mono ?_
  rintro ⟨c, v⟩ ⟨⟨r, hr⟩, hnone, m, row, hmain, -, -, hshown⟩
  refine ⟨r, hr, hnone, fun e he => ?_⟩
  rw [hr] at hmain
  exact blamed_mono (hmain e he) (hshown.entries m (.head _))

end Faults

end MediaBackup
