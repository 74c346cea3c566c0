import MediaBackup.Proofs.Pass.Rules

/-
  After every wait for a permit a pass looks at the network.

  The onlooker of the protocol `prompt` remembers whether the last call was a wait.  Programs of the engine never wait,
  so there is nothing to know about them (`meets_engine_prompt`), and the turns of the loop remain.
-/

namespace MediaBackup

/-- The call waits for a permit. -/
def PassCall.IsWait : PassCall → Prop
  | .waitPermit => True
  | _ => False

namespace Pass

open Script

/-- The protocol of main lines that look at the network after every wait. -/
def prompt : Protocol PassCall PassCall.Answer Prop where
  may waited c := waited → c = .engine .network
  answers _ c _ waited := waited = c.IsWait

/-- The main line has not waited just now. -/
abbrev Prompt (_ : Progress) (waited : Prop) : Prop := ¬waited

variable {α : Type} {waited : Prop}

/-- Programs of the engine do not wait. -/
theorem meets_engine_prompt {good : α → Prop → Prop} {bad : Stop → Prop → Prop} (h : ¬waited) (p : Engine α)
    (hgood : ∀ a (waited : Prop), ¬waited → good a waited) (hbad : ∀ e (waited : Prop), ¬waited → bad e waited) :
    Meets prompt.engine good bad p waited := by
  suffices hkeeps : ∀ (p : Script Call Call.Answer (Except Stop α)) (waited : Prop), ¬waited →
      p.Keeps prompt.engine (fun _ waited => ¬waited) waited by
    refine Keeps.mono ?_ (hkeeps p.run waited h)
    rintro (e | a) waited hnot
    · exact hbad e waited hnot
    · exact hgood a waited hnot
  intro p
  induction p with
  | done r => exact fun _ hnot => hnot
  | ask c next ih =>
    refine fun waited hnot => ⟨fun hwaited => absurd hwaited hnot, ?_⟩
    rintro x _ rfl
    exact ih x _ id

/-- A look is what may follow a wait. -/
theorem meets_look_prompt {good : Option NetworkInfo → Prop → Prop} {bad : Stop → Prop → Prop}
    (hgood : ∀ seen (waited : Prop), ¬waited → good seen waited) : Meets prompt.engine good bad look waited := by
  refine meets_look (fun _ => rfl) ?_ ?_ ?_
  · rintro _ rfl
    exact hgood _ _ id
  · rintro info _ rfl
    exact hgood _ _ id
  · rintro e _ rfl
    exact hgood _ _ id

theorem meets_call_prompt {c : PassCall} {good : c.Answer → Prop → Prop} {bad : Stop → Prop → Prop} (h : ¬waited)
    (hc : ¬c.IsWait) (hgood : ∀ x (waited : Prop), ¬waited → good x waited) :
    Meets prompt good bad (call c) waited := by
  refine meets_call.mpr ⟨fun hwaited => absurd hwaited h, ?_⟩
  rintro x _ rfl
  exact hgood x _ hc

/-- A claim does not wait. -/
theorem meets_tryClaim_prompt {good : Claimed → Prop → Prop} {j : Job} (h : ¬waited)
    (hgood : ∀ r (waited : Prop), ¬waited → good r waited) :
    Meets prompt good (fun _ _ => True) (tryClaim j) waited := by
  have hclaim : Meets prompt.engine (fun _ waited => ¬waited) (fun _ waited => ¬waited) (Queue.claim j) waited :=
    meets_engine_prompt h _ (fun _ _ hnot => hnot) fun _ _ hnot => hnot
  refine meets_tryClaim hclaim ?_ ?_ ?_ ?_ ?_
  · exact fun c waited hnot => hgood _ waited hnot
  · exact fun waited hnot => hgood _ waited hnot
  · exact fun e waited hnot _ => hgood _ waited hnot
  · exact fun e waited hnot _ => hgood _ waited hnot
  · exact fun _ _ _ => trivial

/-- The turns of the loop. -/
theorem loop_prompt (b : Backup) :
    Loop prompt b (fun _ _ => Prompt) (fun _ _ _ => Prompt) Prompt (fun _ _ => True) where
  ended h := h
  deferred h _ := h
  housekeeping h _ _ := by
    refine meets_tryClaim_prompt h fun r waited hnot => ?_
    cases r with
    | won c =>
      refine meets_engine_prompt hnot _ (fun _ _ hnot => hnot) fun e waited hnot => ?_
      cases e with
      | failed e => exact hnot
      | crashed words => trivial
    | lost => exact hnot
    | fatal e => exact hnot
  permit {j jobs seen progress waited} h _ _ := by
    refine meets_takePermit (fun hwaited => absurd hwaited h) ?_ ?_
    · rintro _ rfl
      exact id
    · rintro _ rfl
      refine ⟨fun hwaited => hwaited.elim, ?_⟩
      rintro _ rfl
      exact meets_look_prompt fun _ _ hnot => hnot
  returned h _ := meets_call_prompt h id fun _ _ hnot => hnot
  upload h _ := by
    refine meets_tryClaim_prompt h fun r waited hnot => ?_
    cases r with
    | won c => exact meets_call_prompt hnot id fun _ _ hnot => hnot
    | lost => exact meets_call_prompt hnot id fun _ _ hnot => hnot
    | fatal e => exact meets_call_prompt hnot id fun _ _ hnot => hnot

/-- The main line of a pass looks at the network after every wait. -/
theorem run_keeps_prompt (b : Backup) : (ExceptT.run (run b)).Keeps prompt (fun _ _ => True) False := by
  have hmeets : Meets prompt (fun _ _ => True) (fun _ _ => True) (run b) False := by
    refine meets_run Prompt Prompt ?_ (fun progress waited h => ?_) fun _ _ _ => ⟨fun _ => trivial, fun _ _ => trivial⟩
    · refine meets_engine_prompt id _ (fun promoted waited hnot => ?_) fun _ _ _ => trivial
      refine meets_engine_prompt hnot _ (fun due waited hnot => ⟨fun _ => trivial, fun _ => ?_⟩) fun _ _ _ => trivial
      exact meets_look_prompt fun seen waited hnot => (loop_prompt b).meets_runJobs hnot
    · refine @meets_joinUploads _ prompt _ waited (fun _ => Prompt) (fun {left progress waited} h => ?_) _ progress h
      refine ⟨fun hwaited => absurd hwaited h, ?_⟩
      rintro r _ rfl
      exact id
  refine Keeps.mono ?_ hmeets
  rintro (e | report) waited _ <;> trivial

end Pass

end MediaBackup
