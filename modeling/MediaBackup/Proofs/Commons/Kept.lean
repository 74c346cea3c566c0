import MediaBackup.Proofs.Commons.Manners
import MediaBackup.Proofs.Store.Items

/-
  What every step on the commons keeps.

  A step runs one statement on one of the tables, or none.  On commons that are KEPT, where the jobs are sound and
  all that is under way minds its manners, that statement is mild and writes what can be read (`Step.writes`), and
  the commons are kept after it (`Step.kept`).  So whatever mild statements preserve is preserved by all that
  can be undertaken.
-/

namespace MediaBackup.Commons

open Script

variable {b : Backup} {s t : Scene} {c d : Commons}

/-- The jobs are sound, and all that is under way keeps to the manners. -/
structure Kept (c : Commons) : Prop where
  jobs : c.scene.jobs.IsSound
  tasks : ∀ task ∈ c.tasks, task.rest.Keeps manners (fun _ _ => True) ()

theorem kept_still (h : s.jobs.IsSound) : Kept (still s) := ⟨h, fun _ ht => absurd ht List.not_mem_nil⟩

/-- Each table is what it was, or what a statement of good manners made of it. -/
structure Writes (s t : Scene) : Prop where
  jobs : t.jobs = s.jobs ∨ ∃ st : JobStatement, st.IsProper ∧ st.IsMild ∧ t.jobs = (st.run s.jobs).2
  items : t.items = s.items ∨ ∃ st : ItemStatement, st.IsDated ∧ t.items = (st.run s.items).2

theorem Writes.refl (s : Scene) : Writes s s := ⟨.inl rfl, .inl rfl⟩

theorem writes_of_answers {q : Call} {x : q.Answer} (hmay : manners.may () q) (hx : s.Answers q x t) :
    Writes s t := by
  constructor
  · rcases hx.workers.table_eq with he | ⟨st, rfl, he⟩
    · exact .inl he
    · exact .inr ⟨st, hmay.1, hmay.2, he⟩
  · rcases hx.items_eq with he | ⟨st, rfl, he⟩
    · exact .inl he
    · exact .inr ⟨st, hmay, he⟩

/-- What is under way goes on within its manners. -/
theorem keeps_of_call {α : Type} {q : Call} {next : q.Answer → Script Call Call.Answer α} {x : q.Answer}
    (h : (Script.ask q next).Keeps manners (fun _ _ => True) ()) (hs : s.jobs.IsSound) (hx : s.Answers q x t) :
    (next x).Keeps manners (fun _ _ => True) () := h.2 x () ⟨s.jobs, t.jobs, hs, hx.workers⟩

theorem Step.writes (h : Step b c d) (hc : Kept c) : Writes c.scene d.scene := by
  cases h with
  | begin u hu => exact .refl _
  | call hx => exact writes_of_answers (hc.tasks _ (List.mem_append_right _ List.mem_cons_self)).1 hx
  | leave => exact .refl _

theorem Writes.isSound (h : Writes s t) (hs : s.jobs.IsSound) : t.jobs.IsSound := by
  rcases h.jobs with he | ⟨st, hproper, _, he⟩
  · exact he ▸ hs
  · exact he ▸ JobTable.isSound_run hs hproper

theorem Step.kept (h : Step b c d) (hc : Kept c) : Kept d := by
  refine ⟨(h.writes hc).isSound hc.jobs, fun task ht => ?_⟩
  cases h with
  | begin u hu =>
    rcases List.mem_cons.1 ht with rfl | ht
    · exact Keeps.mono (fun _ _ _ => trivial) (minds_program b hu)
    · exact hc.tasks task ht
  | call hx =>
    rcases List.mem_append.1 ht with ht | ht
    · exact hc.tasks task (List.mem_append_left _ ht)
    · rcases List.mem_cons.1 ht with rfl | ht
      · exact keeps_of_call (hc.tasks _ (List.mem_append_right _ List.mem_cons_self)) hc.jobs hx
      · exact hc.tasks task (List.mem_append_right _ (List.mem_cons_of_mem _ ht))
  | leave =>
    rcases List.mem_append.1 ht with ht | ht
    · exact hc.tasks task (List.mem_append_left _ ht)
    · exact hc.tasks task (List.mem_append_right _ (List.mem_cons_of_mem _ ht))

/-- What good manners preserve holds wherever the commons come to, if it held before. -/
theorem Reaches.preserves {P : Scene → Prop} (hP : ∀ s t, s.jobs.IsSound → Writes s t → P s → P t)
    (h : Reaches b c d) (hc : Kept c) (hp : P c.scene) : Kept d ∧ P d.scene := by
  induction h with
  | refl => exact ⟨hc, hp⟩
  | tail _ hstep ih =>
    obtain ⟨hkept, hp⟩ := ih
    exact ⟨hstep.kept hkept, hP _ _ hkept.jobs (hstep.writes hkept) hp⟩

end MediaBackup.Commons
