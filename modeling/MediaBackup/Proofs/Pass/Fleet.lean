import Mathlib
import MediaBackup.Proofs.Pass.Permits
import MediaBackup.Proofs.Queue.Dispatching

/-
  Passes that overlap and share their permits.

  A FLEET is any number of passes under way, in one world and with one store of free permits.  A new pass may begin at
  any time, and any member of any pass may go on.  A step moves the permits of one pass only, so what holds of one
  pass (`Permits.Moored`) holds of each, and their permits and the free ones add up to the same number
  (`Run.steady`).  How a fleet shares its permits (`Shares`) follows from that alone: nothing is expected of the world.
-/

namespace MediaBackup

open Permits

/-- A pass of a fleet: what its main line did, newest first, and what is left of it. -/
structure Berth where
  past : List Deed
  main : Crew.MainLine (Except Stop PassReport)
  uploads : List Crew.UploadLine
  ended : List (Except Stop JobState)

namespace Berth

/-- A pass that is about to begin. -/
def fresh (b : Backup) : Berth := ⟨[], ExceptT.run (Pass.run b), [], []⟩

/-- The pass where so many permits are free. -/
def crew (p : Berth) (free : Nat) : Crew (Except Stop PassReport) := ⟨p.main, p.uploads, p.ended, free⟩

/-- The permits that it has. -/
def taken (p : Berth) : Nat := p.uploads.length + held p.past

end Berth

namespace Fleet

variable {σ : Type} {b : Backup} {W : Ways σ} {start s t : σ} {fleet before after : List Berth} {free free' : Nat}

/-- The runs of a fleet in a world: its passes, the free permits, and the state of the world.  The main line of a pass
    goes on as one that asks nothing else would, and its uploads go on as they would beside one that is at its end. -/
inductive Run (b : Backup) (W : Ways σ) (start : σ) : List Berth → Nat → σ → Prop where
  | empty : Run b W start [] b.permits start
  | begins {fleet : List Berth} {free : Nat} {s : σ} (h : Run b W start fleet free s) :
    Run b W start (fleet ++ [.fresh b]) free s
  | goes {before after : List Berth} {past : List Deed} {e : PassCall}
      {next : e.Answer → Crew.MainLine (Except Stop PassReport)} {x : e.Answer} {us us' : List Crew.UploadLine}
      {ended ended' : List (Except Stop JobState)} {free free' : Nat} {s t : σ}
      (h : Run b W start (before ++ ⟨past, .ask e next, us, ended⟩ :: after) free s)
      (hm : Crew.Moves b W ⟨.ask e .done, us, ended, free⟩ s ⟨.done x, us', ended', free'⟩ t) :
    Run b W start (before ++ ⟨⟨e, x⟩ :: past, next x, us', ended'⟩ :: after) free' t
  | beside {before after : List Berth} {past : List Deed} {main : Crew.MainLine (Except Stop PassReport)}
      {us us' : List Crew.UploadLine} {ended ended' : List (Except Stop JobState)} {free free' : Nat} {s t : σ}
      (h : Run b W start (before ++ ⟨past, main, us, ended⟩ :: after) free s)
      (hm : Crew.Moves b W ⟨.done (), us, ended, free⟩ s ⟨.done (), us', ended', free'⟩ t) :
    Run b W start (before ++ ⟨past, main, us', ended'⟩ :: after) free' t

/-- Whatever step a pass takes where so many permits are free, the fleet goes on with it. -/
theorem Run.exists_of_goes {p : Berth} (h : Run b W start (before ++ p :: after) free s)
    {c : Crew (Except Stop PassReport)} (hg : Crew.Goes b W (p.crew free) s c t) :
    ∃ q : Berth, q.crew c.free = c ∧ Run b W start (before ++ q :: after) c.free t := by
  obtain ⟨past, main, us, ended⟩ := p
  obtain ⟨main', us', ended', free'⟩ := c
  rcases (Crew.moves_of_goes hg).main_or_beside with ⟨e, next, x, hask, rfl, hm⟩ | ⟨hsame, hm⟩
  · obtain rfl : main = .ask e next := hask
    exact ⟨_, rfl, h.goes hm⟩
  · obtain rfl : main' = main := hsame
    exact ⟨_, rfl, h.beside hm⟩

/-- The world answers the main line of a pass. -/
theorem Run.call {past : List Deed} {e : Call} {next : e.Answer → Crew.MainLine (Except Stop PassReport)}
    {us : List Crew.UploadLine} {ended : List (Except Stop JobState)} (x : e.Answer) (t : σ)
    (h : Run b W start (before ++ ⟨past, .ask (.engine e) next, us, ended⟩ :: after) free s) (hx : W s e x t) :
    Run b W start (before ++ ⟨⟨.engine e, x⟩ :: past, next x, us, ended⟩ :: after) free t := h.goes (.engine hx)

/-- Every pass of the fleet is moored, and all permits are free or taken by one of them. -/
structure Steady (permits : Nat) (fleet : List Berth) (free : Nat) : Prop where
  moored : ∀ p ∈ fleet, Moored p.past (p.crew free)
  sum : free + (fleet.map Berth.taken).sum = permits

/-- How many permits are free does not matter to a pass that is moored. -/
theorem moored_crew {p : Berth} (h : Moored p.past (p.crew free)) (free' : Nat) : Moored p.past (p.crew free') :=
  ⟨h.main, h.lawful, h.afloat⟩

/-- A step of one pass. -/
theorem Steady.step {permits : Nat} {p q : Berth} (h : Steady permits (before ++ p :: after) free)
    (hq : Moored q.past (q.crew free') ∧ free' + q.taken = free + p.taken) :
    Steady permits (before ++ q :: after) free' where
  moored r hr := by
    rcases List.mem_append.mp hr with hr | hr
    · exact moored_crew (h.moored r (List.mem_append_left _ hr)) free'
    · rcases List.mem_cons.mp hr with rfl | hr
      · exact hq.1
      · exact moored_crew (h.moored r (List.mem_append_right _ (.tail _ hr))) free'
  sum := by
    have hsum := h.sum
    simp only [List.map_append, List.map_cons, List.sum_append, List.sum_cons] at hsum ⊢
    have hstep := hq.2
    omega

theorem Run.steady (h : Run b W start fleet free s) : Steady b.permits fleet free := by
  induction h with
  | empty => exact ⟨fun p hp => absurd hp List.not_mem_nil, rfl⟩
  | @begins fleet free s _ ih =>
    refine ⟨fun p hp => ?_, ?_⟩
    · rcases List.mem_append.mp hp with hp | hp
      · exact ih.moored p hp
      · obtain rfl := List.mem_singleton.mp hp
        have hfresh : Moored [] ((Berth.fresh b).crew b.permits) := moored_fresh b
        exact moored_crew hfresh free
    · rw [List.map_append, List.sum_append]
      exact ih.sum
  | @goes before after past e next x us us' ended ended' free free' s t _ hm ih =>
    exact ih.step ((ih.moored _ (List.mem_append_right _ (.head _))).goes hm)
  | @beside before after past main us us' ended ended' free free' s t _ hm ih =>
    exact ih.step ((ih.moored _ (List.mem_append_right _ (.head _))).beside hm)

/-- How a fleet shares its permits where `limit` uploads may run at once; one may always. -/
structure Shares (limit : Nat) (fleet : List Berth) (free : Nat) : Prop where
  capped : (fleet.map fun p => p.uploads.length).sum ≤ max 1 limit
  /-- A permit is free, or an upload under way has it, or a main line that is about to start one. -/
  counted : free + (fleet.map fun p => p.uploads.length + held p.past).sum = max 1 limit
  /-- A main line holds a permit for an upload, and none while it is at work at a scan or dispatch. -/
  starts : ∀ p ∈ fleet, ∀ later c x earlier, p.past = later ++ ⟨.start c, x⟩ :: earlier →
    c.key.isUpload = true ∧ held earlier = 1
  atWork : ∀ p ∈ fleet, AtWork p.past → held p.past = 0
  /-- A pass that has returned has no upload under way and no permit. -/
  returned : ∀ p ∈ fleet, (∃ r, p.main = .done r) → p.uploads = [] ∧ held p.past = 0
  /-- When all have returned, every permit is free. -/
  allReturned : (∀ p ∈ fleet, ∃ r, p.main = .done r) → free = max 1 limit

/-- A pass at its end has no permit. -/
theorem taken_of_done {p : Berth} (h : Moored p.past (p.crew free)) (hdone : ∃ r, p.main = .done r) :
    p.uploads = [] ∧ held p.past = 0 := by
  obtain ⟨past, main, us, ended⟩ := p
  obtain ⟨r, hr⟩ := hdone
  obtain rfl : main = .done r := hr
  exact ⟨h.at_end.1, h.at_end.2.2⟩

theorem Steady.shares {limit : Nat} (h : Steady (max limit 1) fleet free) : Shares limit fleet free where
  capped := by
    have hsum := h.sum
    unfold Berth.taken at hsum
    rw [List.sum_map_add] at hsum
    omega
  counted := h.sum.trans (Nat.max_comm limit 1)
  starts p hp later c x earlier hpast := by
    have hlawful : Lawful (later ++ ⟨.start c, x⟩ :: earlier) := hpast ▸ (h.moored p hp).lawful
    have hmay : held earlier = 1 ∧ c.key.isUpload = true := hlawful.of_split
    exact hmay.symm
  atWork p hp hwork := (h.moored p hp).lawful.held_of_atWork hwork
  returned p hp hdone := taken_of_done (h.moored p hp) hdone
  allReturned hdone := by
    have hnone : (fleet.map Berth.taken).sum = 0 := by
      refine List.sum_eq_zero fun n hn => ?_
      obtain ⟨p, hp, rfl⟩ := List.mem_map.mp hn
      obtain ⟨huploads, hheld⟩ := taken_of_done (h.moored p hp) (hdone p hp)
      unfold Berth.taken
      rw [huploads, hheld]
      rfl
    have hsum := h.sum
    omega

/-- However many passes overlap and whatever the world answers, the uploads under way are no more than the limit, and
    every permit that was taken is given back. -/
theorem Run.shares_permits {limit : Nat} (h : Run { b with permits := max limit 1 } W start fleet free s) :
    Shares limit fleet free := h.steady.shares

/-- A backup that may run no upload at once runs one all the same, and a pass that begins meanwhile waits for its
    permit. -/
theorem Run.shares_permits_waiting : ∃ p q next,
    Run { Dispatching.photos with permits := max 0 1 } (fun _ _ _ _ => True) () [p, q] 0 () ∧
    p.uploads.length = 1 ∧ q.main = .ask .waitPermit next ∧ Shares 0 [p, q] 0 := by
  let busy : Backup := { Dispatching.photos with permits := max 0 1 }
  -- a pass reads that an upload is due, and that the host cannot look at its network
  have hreads := fun (before after : List Berth) (free : Nat)
      (h : Run busy (fun _ _ _ _ => True) () (before ++ .fresh busy :: after) free ()) =>
    ((((h.call (e := .now) Instant.epoch () trivial).call (e := .jobs (.promote .epoch)) (.ok 0) () trivial).call
      (e := .now) Instant.epoch () trivial).call (e := .jobs (.listDue .epoch))
      (.ok [.valid Dispatching.freshUpload]) () trivial).call (e := .network) none () trivial
  have h₁ := (hreads [] [.fresh busy] 1 (.begins (.begins .empty))).goes .granted
  -- the first pass claims the upload, and starts it
  have h₂ := (h₁.call (e := .now) Instant.epoch () trivial).call (e := .jobs (.updateIf Dispatching.freshUpload
    (Dispatching.freshUpload.claimChange .epoch))) (.ok true) () trivial
  have h₃ := (h₂.call () () trivial).goes .started
  have h₄ := (hreads [_] [] 0 h₃).goes .refused
  exact ⟨_, _, _, h₄, rfl, rfl, h₄.shares_permits⟩

end Fleet

end MediaBackup
