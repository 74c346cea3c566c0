import Mathlib.Data.Finset.Card
import MediaBackup.Ledger.Basic
import MediaBackup.Proofs.Queue.Solo

/-
  What a scan writes down.

  A scan is run alone with the table of items.  The library answers as it likes: it may list any entries, some of them
  twice, and fail after them, or not open at all.  The clock is read once for every entry.

  One entry adds its item if it has no row (`Recorded.cons`).  So after all of them every item that was listed has a row,
  and a new one is dated by the clock at its first entry; what was there is as it was.  The count follows the items that
  are left to be new: one entry takes its item off them (`fresh_erase`).  Of a second scan the first one has taken off
  what it listed, however far it came (`scan_exact`).
-/

namespace MediaBackup

/-- The items of these entries that have no row. -/
def ItemTable.fresh (t : ItemTable) (ids : List String) : Finset String :=
  ids.toFinset.filter fun id => t.row? id = none

/-- What was listed. -/
def Reply.ids : Reply Listing → List String
  | .given listing => listing.ids
  | .failed _ | .crashed _ => []

/-- How a scan ends that comes upon so many new items. -/
def Ledger.scanResult (discovered : Nat) : Reply Listing → Except Stop ScanReport
  | .given ⟨ids, none⟩ => .ok ⟨ids.length, discovered⟩
  | .given ⟨_, some e⟩ | .failed e => .error (.failed (.sourceUnavailable e.message))
  | .crashed words => .error (.crashed words)

/-- A table of items, with a clock. -/
structure Survey where
  items : ItemTable
  /-- What the clock showed, oldest first. -/
  shown : List Instant

namespace Survey

open Script

variable {reply : Reply Listing} {s v : Survey} {t u t' : ItemTable} {id : String} {ids : List String}
  {time : Instant} {times : List Instant} {bad : Stop → Survey → Prop}

/-- The answers to a program that has the table for itself, where the library is listed so. -/
def Goes (reply : Reply Listing) : Ways Survey
  | s, .items st, x, v => x = .ok (st.run s.items).1 ∧ v = { s with items := (st.run s.items).2 }
  | s, .now, x, v => x.IsDate ∧ v = { s with shown := s.shown ++ [x] }
  | s, .list, x, v => x = reply ∧ v = s
  | s, _, _, v => v = s

theorem exists_goes (reply : Reply Listing) (s : Survey) (c : Call) : ∃ x v, Goes reply s c x v := by
  cases c with
  | jobs st => exact ⟨.error .closed, _, rfl⟩
  | items st => exact ⟨.ok _, _, rfl, rfl⟩
  | now => exact ⟨.epoch, _, by decide, rfl⟩
  | emit e => exact ⟨(), _, rfl⟩
  | network => exact ⟨none, _, rfl⟩
  | list => exact ⟨reply, _, rfl, rfl⟩
  | openItem id => exact ⟨.crashed none, _, rfl⟩
  | send request body => exact ⟨(0 : Nat), _, rfl⟩
  | await n => exact ⟨.late, _, rfl⟩

/-! ## One entry -/

theorem mem_fresh_iff : id ∈ t.fresh ids ↔ id ∈ ids ∧ t.row? id = none := by
  unfold ItemTable.fresh
  rw [Finset.mem_filter, List.mem_toFinset]

/-- The rows after an entry: its item has one now, if it had none. -/
theorem row?_discover (t : ItemTable) (id : String) (time : Instant) (other : String) :
    ((ItemStatement.insertIfAbsent id time).run t).2.row? other =
      (t.row? other).or (if id = other then some ⟨id, time.cell, none⟩ else none) :=
  ItemTable.row?_run t (.insertIfAbsent id time) other

theorem answer_discover (t : ItemTable) (id : String) (time : Instant) :
    ((ItemStatement.insertIfAbsent id time).run t).1 = decide (t.row? id = none) := by
  show (if t.any (·.id == id) then (false, t) else (true, t ++ [⟨id, time.cell, none⟩])).1 = _
  rw [Rows.any_name_eq t id]
  show _ = decide (Rows.row? ItemRow.id t id = none)
  cases Rows.row? ItemRow.id t id <;> rfl

theorem row?_discover_eq_none_iff {other : String} :
    ((ItemStatement.insertIfAbsent id time).run t).2.row? other = none ↔ other ≠ id ∧ t.row? other = none := by
  rw [row?_discover, Option.or_eq_none_iff, and_comm]
  refine and_congr_left fun _ => ?_
  by_cases h : id = other
  · rw [if_pos h]
    exact ⟨nofun, fun hne => absurd h.symm hne⟩
  · rw [if_neg h]
    exact ⟨fun _ => Ne.symm h, fun _ => rfl⟩

theorem row?_eq_none_iff : t.row? id = none ↔ ¬ t.Knows id := Option.eq_none_iff_forall_ne_some.trans not_exists.symm

theorem knows_discover {other : String} :
    ((ItemStatement.insertIfAbsent id time).run t).2.Knows other ↔ t.Knows other ∨ other = id := by
  have hknows (t : ItemTable) : t.Knows other ↔ ¬ t.row? other = none := Option.ne_none_iff_exists'.symm
  rw [hknows, hknows, row?_discover_eq_none_iff]
  tauto

/-- An entry takes its item off those that are new. -/
theorem fresh_erase (t : ItemTable) (id : String) (time : Instant) (ids : List String) :
    ((ItemStatement.insertIfAbsent id time).run t).2.fresh ids = (t.fresh (id :: ids)).erase id := by
  ext other
  rw [Finset.mem_erase, mem_fresh_iff, mem_fresh_iff, row?_discover_eq_none_iff, List.mem_cons]
  tauto

/-- So it is counted if it is one of them. -/
theorem card_fresh_cons (t : ItemTable) (id : String) (time : Instant) (ids : List String) :
    (t.fresh (id :: ids)).card = (((ItemStatement.insertIfAbsent id time).run t).2.fresh ids).card +
      if t.row? id = none then 1 else 0 := by
  rw [fresh_erase]
  by_cases hnew : t.row? id = none
  · rw [if_pos hnew]
    exact (Finset.card_erase_add_one (mem_fresh_iff.mpr ⟨List.mem_cons_self, hnew⟩)).symm
  · rw [if_neg hnew, Finset.erase_eq_of_notMem fun h => hnew (mem_fresh_iff.mp h).2]
    rfl

/-! ## All entries -/

/-- What the entries left: each was dated by one look at the clock. -/
structure Recorded (ids : List String) (times : List Instant) (t u : ItemTable) : Prop where
  length : times.length = ids.length
  dated : ∀ time ∈ times, time.IsDate
  known : ∀ id row, t.row? id = some row → u.row? id = some row
  /-- A new item is pending since its first entry. -/
  new : ∀ id, t.row? id = none → u.row? id = ((ids.zip times).lookup id).map fun time => ⟨id, time.cell, none⟩
  knows_iff : ∀ id, u.Knows id ↔ t.Knows id ∨ id ∈ ids
  keyed : t.Keyed → u.Keyed

theorem Recorded.nil (t : ItemTable) : Recorded [] [] t t :=
  ⟨rfl, nofun, fun _ _ h => h, fun _ h => h, fun _ => (or_iff_left List.not_mem_nil).symm, id⟩

/-- One entry before others. -/
theorem Recorded.cons (htime : time.IsDate)
    (h : Recorded ids times ((ItemStatement.insertIfAbsent id time).run t).2 u) :
    Recorded (id :: ids) (time :: times) t u := by
  refine ⟨congrArg Nat.succ h.length, List.forall_mem_cons.mpr ⟨htime, h.dated⟩, ?_, ?_, ?_, ?_⟩
  · intro other row hrow
    refine h.known other row ?_
    rw [row?_discover, hrow, Option.some_or]
  · intro other hnone
    rw [List.zip_cons_cons, List.lookup_cons]
    by_cases hother : other = id
    · -- its row is there from this entry on
      subst hother
      rw [beq_self_eq_true]
      refine h.known other _ ?_
      rw [row?_discover, hnone, Option.none_or, if_pos rfl]
    · rw [beq_eq_false_iff_ne.mpr hother]
      exact h.new other (row?_discover_eq_none_iff.mpr ⟨hother, hnone⟩)
  · intro other
    rw [h.knows_iff, knows_discover, List.mem_cons, or_assoc]
  · exact fun hk => h.keyed (ItemTable.keyed_run hk _)

theorem Recorded.eq_none_iff (h : Recorded ids times t u) : u.row? id = none ↔ t.row? id = none ∧ id ∉ ids := by
  rw [row?_eq_none_iff, row?_eq_none_iff, h.knows_iff, not_or]

/-! ## A scan -/

/-- The protocol of a program that has the table for itself, where the library is listed so. -/
abbrev alone (reply : Reply Listing) : Protocol Call Call.Answer Survey := Protocol.alone (Goes reply)

theorem meets_discoverAll {r : ScanReport} : Meets (alone reply)
    (fun r' v => ∃ times, v.shown = s.shown ++ times ∧ Recorded ids times s.items v.items ∧
      r' = ⟨r.seen + ids.length, r.discovered + (s.items.fresh ids).card⟩)
    bad (Ledger.discoverAll ids r) s := by
  -- the count is carried along, so the induction is on the entries for every count and every table
  induction ids generalizing r s with
  | nil => exact ⟨[], (List.append_nil _).symm, .nil _, rfl⟩
  | cons id ids ih =>
    unfold Ledger.discoverAll Ledger.discover
    rw [meets_bind, Engine.meets_now]
    refine ⟨trivial, ?_⟩
    rintro time _ ⟨hdate, rfl⟩
    rw [meets_bind]
    refine Engine.meets_items.mpr ⟨trivial, ?_, ?_⟩
    case refine_2 =>
      rintro fault v ⟨hfault, -⟩
      cases hfault
    rintro new _ ⟨hnew, rfl⟩
    obtain rfl := Except.ok.inj hnew
    refine ih.mono ?_ fun _ _ h => h
    rintro r' v ⟨times, hshown, hrecorded, rfl⟩
    refine ⟨time :: times, ?_, hrecorded.cons hdate, ?_⟩
    · rw [hshown, List.append_assoc]
      rfl
    · show ScanReport.mk (r.seen + 1 + ids.length)
        ((if ((ItemStatement.insertIfAbsent id time).run s.items).1 then r.discovered + 1 else r.discovered) +
          (((ItemStatement.insertIfAbsent id time).run s.items).2.fresh ids).card) = _
      rw [answer_discover, card_fresh_cons s.items id time ids, List.length_cons]
      refine congrArg₂ ScanReport.mk (by omega) ?_
      by_cases hnone : s.items.row? id = none
      · rw [if_pos hnone, if_pos (decide_eq_true hnone)]
        omega
      · rw [if_neg hnone, if_neg fun h => hnone (of_decide_eq_true h)]
        omega

/-- However a scan is answered where the library is listed so, it ends, and its result, what the clock showed, and what is
    left satisfy `post`. -/
def Scans (reply : Reply Listing) (s : Survey) (post : Except Stop ScanReport → List Instant → Survey → Prop) : Prop :=
  Comes (Script.Goes (Goes reply)) (fun a => ∃ result times, a.1 = .done result ∧ a.2.shown = s.shown ++ times ∧
    post result times a.2) (Ledger.scan.run, s)

theorem Scans.mono {post post' : Except Stop ScanReport → List Instant → Survey → Prop} (h : s.Scans reply post)
    (hpost : ∀ result times v, post result times v → post' result times v) : s.Scans reply post' := by
  refine Comes.mono h ?_
  rintro a ⟨result, times, hdone, hshown, hend⟩
  exact ⟨result, times, hdone, hshown, hpost _ _ _ hend⟩

theorem scans (reply : Reply Listing) (s : Survey) : s.Scans reply fun result times v =>
    result = Ledger.scanResult (s.items.fresh reply.ids).card reply ∧ Recorded reply.ids times s.items v.items := by
  have hmeets : Meets (alone reply)
      (fun r v => ∃ times, v.shown = s.shown ++ times ∧
        .ok r = Ledger.scanResult (s.items.fresh reply.ids).card reply ∧ Recorded reply.ids times s.items v.items)
      (fun e v => ∃ times, v.shown = s.shown ++ times ∧
        .error e = Ledger.scanResult (s.items.fresh reply.ids).card reply ∧ Recorded reply.ids times s.items v.items)
      Ledger.scan s := by
    unfold Ledger.scan
    rw [meets_bind, Engine.meets_call]
    refine ⟨trivial, ?_⟩
    rintro x _ ⟨rfl, rfl⟩
    rw [meets_bind]
    cases x with
    | failed e => exact ⟨[], (List.append_nil _).symm, rfl, .nil _⟩
    | crashed words => exact ⟨[], (List.append_nil _).symm, rfl, .nil _⟩
    | given listing =>
      obtain ⟨ids, failure⟩ := listing
      show Meets _ _ _ (Ledger.discoverAll ids ⟨0, 0⟩ >>= _) _
      rw [meets_bind]
      refine meets_discoverAll.mono ?_ fun _ _ h => h
      rintro r v ⟨times, hshown, hrecorded, rfl⟩
      cases failure with
      | none =>
        refine ⟨times, hshown, congrArg Except.ok (congrArg₂ ScanReport.mk ?_ ?_), hrecorded⟩
        · exact Nat.zero_add _
        · exact Nat.zero_add _
      | some e => exact ⟨times, hshown, rfl, hrecorded⟩
  refine (Script.comes_of_keeps (exists_goes reply) hmeets).mono ?_
  rintro ⟨p, v⟩ ⟨result, rfl, hend⟩
  cases result with
  | ok r =>
    obtain ⟨times, hshown, hresult, hrecorded⟩ := hend
    exact ⟨_, times, rfl, hshown, hresult, hrecorded⟩
  | error e =>
    obtain ⟨times, hshown, hresult, hrecorded⟩ := hend
    exact ⟨_, times, rfl, hshown, hresult, hrecorded⟩

/-- **What a scan writes down.**  Every item of an entry has a row then, and no other is added; what was known is as it
    was, and what is new is pending since its first entry.  A scan that comes to the end of the library tells how many
    entries there were and how many items were new; one that fails on the way tells that the library failed.  The next
    scan that comes to the end leaves the same items as if it were the first, and counts those that are left. -/
theorem scan_exact (s : Survey) :
    (∀ reply, s.Scans reply fun result times v =>
      result = Ledger.scanResult (s.items.fresh reply.ids).card reply ∧ Recorded reply.ids times s.items v.items) ∧
    ∀ reply ids, (∀ id ∈ reply.ids, id ∈ ids) → s.Scans reply fun _ _ v =>
      v.Scans (.given ⟨ids, none⟩) fun result _ u =>
        result = .ok ⟨ids.length, (s.items.fresh ids \ reply.ids.toFinset).card⟩ ∧
        s.Scans (.given ⟨ids, none⟩) fun _ _ u' => ∀ id, u.items.Knows id ↔ u'.items.Knows id := by
  refine ⟨fun reply => scans reply s, fun reply ids hsub => (scans reply s).mono ?_⟩
  rintro - times v ⟨-, hfirst⟩
  refine (scans (.given ⟨ids, none⟩) v).mono ?_
  rintro result times' u ⟨rfl, hsecond⟩
  refine ⟨?_, (scans (.given ⟨ids, none⟩) s).mono ?_⟩
  · -- the first scan took off what it listed
    have hleft : v.items.fresh ids = s.items.fresh ids \ reply.ids.toFinset := by
      ext id
      rw [Finset.mem_sdiff, mem_fresh_iff, mem_fresh_iff, List.mem_toFinset, hfirst.eq_none_iff, and_assoc]
    show Except.ok (ScanReport.mk ids.length (v.items.fresh ids).card) = _
    rw [hleft]
  · rintro - times'' u' ⟨-, halone⟩ id
    rw [hsecond.knows_iff, hfirst.knows_iff, halone.knows_iff]
    constructor
    · rintro ((hknown | hlisted) | hlisted)
      · exact .inl hknown
      · exact .inr (hsub id hlisted)
      · exact .inr hlisted
    · rintro (hknown | hlisted)
      · exact .inl (.inl hknown)
      · exact .inr hlisted

/-- One item of a phone was seen before. -/
def seenPhone : Survey := ⟨[⟨"a", .int 0, none⟩], []⟩

/-- The listing of the phone fails on the way. -/
def interrupted : Reply Listing := .given ⟨["b", "a", "b"], some (.device "unplugged")⟩

/-- A scan comes upon a new item and one that is known before the library fails; the next one counts the last item. -/
theorem scan_exact_interrupted : (∀ id ∈ interrupted.ids, id ∈ ["b", "a", "b", "c"]) ∧
    seenPhone.Scans interrupted (fun result _ v => (∃ words, result = .error (.failed (.sourceUnavailable words))) ∧
      v.items.Knows "b") ∧
    seenPhone.Scans interrupted fun _ _ v =>
      v.Scans (.given ⟨["b", "a", "b", "c"], none⟩) fun result _ _ => result = .ok ⟨4, 1⟩ := by
  have hsub : ∀ id ∈ interrupted.ids, id ∈ ["b", "a", "b", "c"] := by decide
  obtain ⟨hfirst, hsecond⟩ := scan_exact seenPhone
  refine ⟨hsub, (hfirst interrupted).mono ?_, (hsecond interrupted _ hsub).mono ?_⟩
  · rintro result times v ⟨rfl, hrecorded⟩
    exact ⟨⟨_, rfl⟩, (hrecorded.knows_iff "b").mpr (.inr (by decide))⟩
  · refine fun _ _ v h => h.mono ?_
    rintro result _ _ ⟨rfl, -⟩
    rfl

end Survey

end MediaBackup
