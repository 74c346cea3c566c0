import Mathlib.Data.List.Dedup
import Mathlib.Data.List.Induction
import MediaBackup.Proofs.Ledger.Programs
import MediaBackup.Proofs.Store.ItemReading
import MediaBackup.Proofs.Text.Order

/-
  The ledger as what a history tells.

  A history is a list of entries: an item was seen, or it was acknowledged, each at some time.  `told` says
  what a history tells of one item, with no table in it: nothing as long as the item was not seen; after
  that the time it was first seen and the time of the first acknowledgement behind it, moved to the former
  if it lies before.  The crux is `Tells.step`: a table that has of every item the row that the history
  tells keeps doing so with every entry.  What the ledger's programs answer after any history
  (`law_of_history`) is then read from such a table.
-/

namespace MediaBackup

/-- The later of two points in time. -/
def Instant.later (s t : Instant) : Instant := ⟨max s.nanos t.nanos⟩

/-- The row of an item. -/
def Item.row (i : Item) : ItemRow := ⟨i.id, i.discoveredAt.cell, i.uploadedAt.map Instant.cell⟩

/-- Items are listed by the time of their discovery, then by the bytes of their id. -/
def Item.ListedBefore (i j : Item) : Prop :=
  i.discoveredAt.nanos < j.discoveredAt.nanos ∨
    i.discoveredAt = j.discoveredAt ∧ Text.encode i.id.toList ≤ Text.encode j.id.toList

namespace Ledger

open Rehearsal

/-! ## What a history tells -/

/-- An entry of a history. -/
inductive Entry where
  | seen (id : String) (time : Instant)
  | acknowledged (id : String) (time : Instant)
deriving DecidableEq, Repr

namespace Entry

def time : Entry → Instant
  | seen _ time | acknowledged _ time => time

/-- Writes the entry down. -/
def write : Entry → Engine Unit
  | seen id time => do let _ ← discover id time
  | acknowledged id time => markUploaded id time

/-- The statement that changes the table. -/
def statement : Entry → ItemStatement
  | seen id time => .insertIfAbsent id time
  | acknowledged id time => .mark id time

/-- The item that was seen. -/
def seen? : Entry → Option String
  | seen id _ => some id
  | acknowledged _ _ => none

/-- When the item was seen, if the entry says so. -/
def seenAt? (id : String) : Entry → Option Instant
  | seen k time => if k = id then some time else none
  | acknowledged _ _ => none

/-- When the item was acknowledged, if the entry says so. -/
def acknowledgedAt? (id : String) : Entry → Option Instant
  | seen _ _ => none
  | acknowledged k time => if k = id then some time else none

end Entry

/-- What a history, oldest first, tells of an item. -/
def told (id : String) : List Entry → Option Item
  | [] => none
  | e :: later => match e.seenAt? id with
    | none => told id later
    | some time => some {
        id := id
        discoveredAt := time.floor
        uploadedAt := (later.findSome? (·.acknowledgedAt? id)).map fun u => time.floor.later u.floor }

/-- The items that were seen in a history. -/
def known (history : List Entry) : List String := (history.filterMap Entry.seen?).dedup

/-- The world after a history. -/
def after (w : World) (history : List Entry) : World := history.foldl (fun w e => (w.run e.write).2) w

/-- What the programs of the ledger answer in a world after a history. -/
structure Law (w : World) (history : List Entry) : Prop where
  get : ∀ id, (w.run (Ledger.get id)).1 = .ok (told id history)
  /-- An item is new exactly if it was not seen before. -/
  discover : ∀ id time, (w.run (Ledger.discover id time)).1 = .ok (decide (id ∉ known history))
  markUploaded : ∀ id time, (w.run (Ledger.markUploaded id time)).1 = .ok ()
  contains : ∀ id, (w.run (Ledger.contains id)).1 = .ok (decide (id ∈ known history))
  /-- What is listed is what was seen and not acknowledged after that, each once and in order. -/
  pending : ∀ reports, ∃ items, (w.run (Ledger.pending reports)).1 = .ok items ∧
    (items.map Item.id).Nodup ∧ items.Pairwise Item.ListedBefore ∧
    ∀ i, i ∈ items ↔ told i.id history = some i ∧ i.uploadedAt = none
  stats : ∃ count, (w.run Ledger.stats).1 = .ok count ∧
    count.total = (known history).length ∧
    count.pending = (known history).countP (fun id => (told id history).any (·.uploadedAt.isNone)) ∧
    count.uploaded = (known history).countP (fun id => (told id history).any (·.uploadedAt.isSome)) ∧
    count.total = count.pending + count.uploaded

/-! ## One entry more -/

variable {history : List Entry} {id : String} {e : Entry} {i : Item}

/-- What an item becomes by an acknowledgement: the first one counts. -/
def acknowledge (i : Item) (time : Instant) : Item :=
  { i with uploadedAt := i.uploadedAt.or (some (i.discoveredAt.later time.floor)) }

theorem told_append_of_none (h : told id history = none) (e : Entry) :
    told id (history ++ [e]) = (e.seenAt? id).map fun time => ⟨id, time.floor, none⟩ := by
  induction history with
  | nil =>
    show told id [e] = _
    unfold told
    cases e.seenAt? id <;> rfl
  | cons a history ih =>
    rw [List.cons_append]
    unfold told at h ⊢
    cases ha : a.seenAt? id with
    | none =>
      rw [ha] at h
      exact ih h
    | some time =>
      rw [ha] at h
      exact nomatch h

theorem told_append_of_some (h : told id history = some i) (e : Entry) :
    told id (history ++ [e]) = some (match e.acknowledgedAt? id with
      | none => i
      | some time => acknowledge i time) := by
  induction history with
  | nil => exact nomatch h
  | cons a history ih =>
    rw [List.cons_append]
    unfold told at h ⊢
    cases ha : a.seenAt? id with
    | none =>
      rw [ha] at h
      exact ih h
    | some time =>
      rw [ha] at h
      obtain rfl := Option.some.inj h
      dsimp only
      rw [List.findSome?_append, List.findSome?_singleton]
      unfold acknowledge
      cases history.findSome? (·.acknowledgedAt? id) <;> cases e.acknowledgedAt? id <;> rfl

theorem id_of_told (h : told id history = some i) : i.id = id := by
  induction history with
  | nil => exact nomatch h
  | cons a history ih =>
    unfold told at h
    cases ha : a.seenAt? id with
    | none =>
      rw [ha] at h
      exact ih h
    | some time =>
      rw [ha] at h
      exact Option.some.inj h ▸ rfl

/-- An item is known exactly if it was seen. -/
theorem mem_known_iff : id ∈ known history ↔ (told id history).isSome = true := by
  unfold known
  rw [List.mem_dedup]
  induction history with
  | nil => exact iff_of_false List.not_mem_nil Bool.false_ne_true
  | cons a history ih =>
    unfold told
    cases a with
    | acknowledged k time => exact ih
    | seen k time =>
      show id ∈ k :: history.filterMap Entry.seen? ↔ Option.isSome (match if k = id then some time else none with
        | none => told id history
        | some time => _) = true
      rw [List.mem_cons, ih]
      by_cases hk : k = id
      · rw [if_pos hk]
        exact iff_of_true (.inl hk.symm) rfl
      · rw [if_neg hk]
        exact ⟨fun h => h.resolve_left fun he => hk he.symm, .inr⟩

end Ledger

/-! ## The row of an item -/

namespace Instant

theorem cell_floor (t : Instant) : t.floor.cell = t.cell := by
  show Cell.int t.floor.millis = .int t.millis
  rw [millis_floor]

/-- A table keeps the start of the millisecond of a date. -/
theorem IsDate.floor_shows {t : Instant} (h : t.IsDate) : t.floor.cell.Shows t.floor := by
  rw [cell_floor]
  exact h.shows

/-- An instant that a table keeps is told by its milliseconds. -/
theorem nanos_of_shows {t : Instant} (h : t.cell.Shows t) : t.nanos = t.millis * 1000000 := by
  have hfloor := h.floor_eq
  exact congrArg nanos hfloor.symm

theorem later_eq (s t : Instant) : s.later t = if s.nanos < t.nanos then t else s := by
  unfold later
  split
  · rw [Int.max_eq_right (by omega)]
  · rw [Int.max_eq_left (by omega)]

/-- The greater of two cells is that of the later instant. -/
theorem greater_cell {s : Instant} (hs : s.cell.Shows s) (t : Instant) :
    t.cell.greater s.cell = (s.later t.floor).cell := by
  have hnanos := nanos_of_shows hs
  have horder : s.cell.lt t.cell = true ↔ s.nanos < t.floor.nanos := by
    refine Cell.lt_int.trans ?_
    show s.millis < t.millis ↔ s.nanos < t.millis * 1000000
    omega
  unfold Cell.greater
  rw [later_eq, apply_ite cell, cell_floor]
  exact if_congr horder rfl rfl

end Instant

namespace Item

variable {i j : Item}

/-- A table keeps the times of the item as they are. -/
structure IsKept (i : Item) : Prop where
  discoveredAt : i.discoveredAt.cell.Shows i.discoveredAt
  uploadedAt : ∀ u, i.uploadedAt = some u → u.cell.Shows u

/-- The row of an item holds that item. -/
theorem item_row (h : i.IsKept) : i.row.item = .ok i := by
  refine ItemRow.item_eq_ok_iff.2 ⟨rfl, h.discoveredAt, ?_⟩
  show Option.Rel Cell.Shows (i.uploadedAt.map Instant.cell) i.uploadedAt
  cases hu : i.uploadedAt with
  | none => exact .none
  | some u => exact .some (h.uploadedAt u hu)

theorem readRows_row (reports : Bool) {items : List Item} (h : ∀ i ∈ items, i.IsKept) :
    Ledger.readRows reports (items.map row) = pure items := by
  induction items with
  | nil => rfl
  | cons i items ih =>
    rw [List.map_cons]
    unfold Ledger.readRows
    rw [item_row (h i List.mem_cons_self), ih fun j hj => h j (List.mem_cons_of_mem i hj)]
    rfl

/-- Rows of items are handed out by the milliseconds of the discovery, then by the id. -/
theorem pendingBefore_row : i.row.pendingBefore j.row = true ↔
    i.discoveredAt.millis < j.discoveredAt.millis ∨
      i.discoveredAt.millis = j.discoveredAt.millis ∧ i.id ≤ j.id := by
  have horder : i.row.discoveredAt.order j.row.discoveredAt =
      compare i.discoveredAt.millis j.discoveredAt.millis := Cell.order_int _ _
  unfold ItemRow.pendingBefore
  rw [horder]
  cases hc : compare i.discoveredAt.millis j.discoveredAt.millis with
  | lt => exact iff_of_true rfl (.inl (Int.compare_eq_lt.1 hc))
  | eq =>
    have he := Int.compare_eq_eq.1 hc
    refine decide_eq_true_iff.trans ⟨fun h => .inr ⟨he, h⟩, fun h => ?_⟩
    rcases h with h | h
    · omega
    · exact h.2
  | gt =>
    have hgt := Int.compare_eq_gt.1 hc
    refine iff_of_false Bool.false_ne_true fun h => ?_
    omega

/-- Of items that a table keeps, those are listed first that are handed out first. -/
theorem listedBefore_of_pendingBefore (hi : i.IsKept) (hj : j.IsKept)
    (h : i.row.pendingBefore j.row = true) : i.ListedBefore j := by
  have hin := Instant.nanos_of_shows hi.discoveredAt
  have hjn := Instant.nanos_of_shows hj.discoveredAt
  rcases pendingBefore_row.1 h with hlt | ⟨heq, hid⟩
  · left
    omega
  · refine .inr ⟨?_, Text.le_iff_encode_le.1 (decide_eq_true hid)⟩
    rw [← hi.discoveredAt.floor_eq, ← hj.discoveredAt.floor_eq]
    unfold Instant.floor
    rw [heq]

/-- Handing out sorts: a list of rows of items comes out as the rows of those items in order. -/
theorem exists_sorted (items : List Item) : ∃ sorted : List Item, sorted.Perm items ∧
    (items.map row).mergeSort ItemRow.pendingBefore = sorted.map row ∧
    sorted.Pairwise fun i j => i.row.pendingBefore j.row = true := by
  refine ⟨items.mergeSort fun i j => i.row.pendingBefore j.row, List.mergeSort_perm _ _, ?_, ?_⟩
  · exact (List.map_mergeSort (f := row) fun _ _ _ _ => rfl).symm
  · refine List.pairwise_mergeSort ?_ ?_ items
    · intro a b c hab hbc
      rw [pendingBefore_row] at *
      rcases hab with hab | ⟨hab, hle⟩ <;> rcases hbc with hbc | ⟨hbc, hle'⟩
      · exact .inl (by omega)
      · exact .inl (by omega)
      · exact .inl (by omega)
      · exact .inr ⟨by omega, String.le_trans hle hle'⟩
    · intro a b
      rw [Bool.or_eq_true, pendingBefore_row, pendingBefore_row]
      rcases Int.lt_trichotomy a.discoveredAt.millis b.discoveredAt.millis with h | h | h
      · exact .inl (.inl h)
      · rcases String.le_total (a := a.id) (b := b.id) with hle | hle
        · exact .inl (.inr ⟨h, hle⟩)
        · exact .inr (.inr ⟨h.symm, hle⟩)
      · exact .inr (.inl h)

end Item

namespace Ledger

open Rehearsal

variable {w : World} {t : ItemTable} {history : List Entry} {id : String} {e : Entry} {i : Item}

/-! ## Tables that have what a history tells -/

/-- The table has of every item the row that the history tells. -/
structure Tells (t : ItemTable) (history : List Entry) : Prop where
  keyed : t.Keyed
  rows : ∀ id, t.row? id = (told id history).map Item.row
  kept : ∀ id i, told id history = some i → i.IsKept

theorem tells_nil : Tells [] [] := ⟨ItemTable.keyed_nil, fun _ => rfl, fun _ _ h => nomatch h⟩

theorem isKept_acknowledge (h : i.IsKept) {time : Instant} (ht : time.IsDate) : (acknowledge i time).IsKept := by
  refine ⟨h.discoveredAt, fun u hu => ?_⟩
  rcases Option.or_eq_some_iff.1 hu with hu | ⟨_, hu⟩
  · exact h.uploadedAt u hu
  · obtain rfl := Option.some.inj hu
    rw [Instant.later_eq]
    split
    · exact ht.floor_shows
    · exact h.discoveredAt

/-- What an acknowledgement makes of the row of its item. -/
theorem row_acknowledge (h : i.IsKept) (time : Instant) :
    (if i.row.isMarkable i.id then i.row.marked time else i.row) = (acknowledge i time).row := by
  have hmark : i.row.isMarkable i.id = i.uploadedAt.isNone := by
    unfold ItemRow.isMarkable Item.row
    rw [beq_self_eq_true, Bool.true_and, Option.isNone_map]
  rw [hmark]
  obtain ⟨id, discovered, uploaded⟩ := i
  cases uploaded with
  | none =>
    show ItemRow.mk id discovered.cell (some (time.cell.greater discovered.cell)) =
      ⟨id, discovered.cell, some (discovered.later time.floor).cell⟩
    rw [Instant.greater_cell h.discoveredAt]
  | some u => rfl

/-- What an entry makes of the row that the history tells is the row that it tells with the entry. -/
theorem effect_told (hkept : ∀ i, told id history = some i → i.IsKept) (e : Entry) :
    e.statement.effect id ((told id history).map Item.row) = (told id (history ++ [e])).map Item.row := by
  cases htold : told id history with
  | none =>
    rw [told_append_of_none htold]
    cases e with
    | seen k time =>
      show (none : Option ItemRow).or (if k = id then some ⟨k, time.cell, none⟩ else none) =
        ((if k = id then some time else none).map fun time => Item.mk id time.floor none).map Item.row
      by_cases hk : k = id
      · rw [if_pos hk, if_pos hk, hk]
        show some (ItemRow.mk id time.cell none) = some ⟨id, time.floor.cell, none⟩
        rw [Instant.cell_floor]
      · rw [if_neg hk, if_neg hk]
        rfl
    | acknowledged k time => rfl
  | some i =>
    rw [told_append_of_some htold]
    cases e with
    | seen k time => rfl
    | acknowledged k time =>
      show some (if i.row.isMarkable k then i.row.marked time else i.row) =
        some (Item.row (match (if k = id then some time else none) with
          | none => i
          | some time => acknowledge i time))
      have hid := id_of_told htold
      by_cases hk : k = id
      · rw [if_pos hk, hk, ← hid]
        exact congrArg some (row_acknowledge (hkept i htold) time)
      · have hmark : i.row.isMarkable k = false := by
          unfold ItemRow.isMarkable
          rw [Bool.and_eq_false_iff]
          exact .inl (beq_eq_false_iff_ne.2 fun he => hk (he.symm.trans hid))
        rw [if_neg hk, hmark]
        rfl

/-- The times that a history of dates tells can be kept. -/
theorem isKept_told (hkept : ∀ i, told id history = some i → i.IsKept) (he : e.time.IsDate)
    (h : told id (history ++ [e]) = some i) : i.IsKept := by
  cases htold : told id history with
  | none =>
    rw [told_append_of_none htold, Option.map_eq_some_iff] at h
    obtain ⟨time, hseen, rfl⟩ := h
    cases e with
    | seen k time' =>
      obtain ⟨_, hsome⟩ := Option.ite_none_right_eq_some.1 hseen
      obtain rfl := Option.some.inj hsome
      exact ⟨Instant.IsDate.floor_shows he, fun u hu => nomatch hu⟩
    | acknowledged k time' => exact nomatch hseen
  | some j =>
    have hj := hkept j htold
    rw [told_append_of_some htold] at h
    obtain rfl := Option.some.inj h
    cases e with
    | seen k time => exact hj
    | acknowledged k time =>
      show Item.IsKept (match (if k = id then some time else none) with
        | none => j
        | some time => acknowledge j time)
      split
      · exact hj
      · rename_i hsome
        obtain ⟨_, hsome⟩ := Option.ite_none_right_eq_some.1 hsome
        obtain rfl := Option.some.inj hsome
        exact isKept_acknowledge hj he

/-- With every entry the table goes on having what the history tells. -/
theorem Tells.step (h : Tells t history) (he : e.time.IsDate) :
    Tells (e.statement.run t).2 (history ++ [e]) where
  keyed := ItemTable.keyed_run h.keyed _
  rows id := by rw [ItemTable.row?_run, h.rows, effect_told (h.kept id)]
  kept id _ hi := isKept_told (h.kept id) he hi

/-- Rows that are rows of items are the rows of a list of items. -/
theorem exists_items_of_rows {p : Item → Prop} {rows : List ItemRow} (h : ∀ r ∈ rows, ∃ i, p i ∧ r = i.row) :
    ∃ items : List Item, rows = items.map Item.row ∧ ∀ i ∈ items, p i := by
  induction rows with
  | nil => exact ⟨[], rfl, fun _ hi => absurd hi List.not_mem_nil⟩
  | cons r rows ih =>
    obtain ⟨i, hi, rfl⟩ := h r List.mem_cons_self
    obtain ⟨items, rfl, hitems⟩ := ih fun q hq => h q (List.mem_cons_of_mem _ hq)
    exact ⟨i :: items, rfl, List.forall_mem_cons.2 ⟨hi, hitems⟩⟩

/-- The rows of such a table are those of the items that the history tells. -/
theorem Tells.exists_items (h : Tells t history) : ∃ items : List Item, t = items.map Item.row ∧
    (items.map Item.id).Nodup ∧ ∀ i, i ∈ items ↔ told i.id history = some i := by
  have hmem : ∀ r ∈ t, ∃ i, told i.id history = some i ∧ r = i.row := by
    intro r hr
    have hrow := ItemTable.row?_of_mem h.keyed hr
    rw [h.rows, Option.map_eq_some_iff] at hrow
    obtain ⟨i, hi, rfl⟩ := hrow
    exact ⟨i, hi, rfl⟩
  obtain ⟨items, rfl, htold⟩ := exists_items_of_rows hmem
  refine ⟨items, rfl, ?_, fun i => ⟨htold i, fun hi => ?_⟩⟩
  · have hkeyed := h.keyed
    unfold ItemTable.Keyed Rows.Keyed at hkeyed
    rwa [List.map_map] at hkeyed
  · have hrow := h.rows i.id
    rw [hi] at hrow
    obtain ⟨j, hj, hrow⟩ := List.mem_map.1 (ItemTable.mem_of_row? hrow)
    have hid : j.id = i.id := congrArg ItemRow.id hrow
    have hji := htold j hj
    rw [hid, hi] at hji
    exact Option.some.inj hji ▸ hj

/-! ## What the programs answer -/

theorem Tells.isNone_row? (h : Tells t history) (id : String) :
    (t.row? id).isNone = decide (id ∉ known history) := by
  rw [h.rows, Option.isNone_map, Bool.eq_iff_iff, decide_eq_true_iff, mem_known_iff]
  cases told id history <;> simp

/-- The items that were seen are those of the table, in another order. -/
theorem known_perm {items : List Item} (hnodup : (items.map Item.id).Nodup)
    (hitems : ∀ i, i ∈ items ↔ told i.id history = some i) : (known history).Perm (items.map Item.id) := by
  have hknown : (known history).Nodup := List.nodup_dedup _
  refine (List.perm_ext_iff_of_nodup hknown hnodup).2 fun id => ?_
  rw [mem_known_iff, Option.isSome_iff_exists, List.mem_map]
  constructor
  · rintro ⟨i, hi⟩
    have hid := id_of_told hi
    exact ⟨i, (hitems i).2 (hid ▸ hi), hid⟩
  · rintro ⟨i, hi, rfl⟩
    exact ⟨i, (hitems i).1 hi⟩

/-- Counting what a history tells of the items that were seen counts the items of the table. -/
theorem countP_known {items : List Item} (hnodup : (items.map Item.id).Nodup)
    (hitems : ∀ i, i ∈ items ↔ told i.id history = some i) (p : Item → Bool) :
    (known history).countP (fun id => (told id history).any p) = items.countP p := by
  rw [(known_perm hnodup hitems).countP_eq, List.countP_map]
  refine List.countP_congr fun i hi => ?_
  show (told i.id history).any p = true ↔ _
  rw [(hitems i).1 hi]
  rfl

theorem Tells.pending (h : Tells t history) (hw : w.Holds t) (reports : Bool) :
    ∃ items, (w.run (Ledger.pending reports)).1 = .ok items ∧ (items.map Item.id).Nodup ∧
      items.Pairwise Item.ListedBefore ∧
      ∀ i, i ∈ items ↔ told i.id history = some i ∧ i.uploadedAt = none := by
  obtain ⟨items, rfl, hnodup, hitems⟩ := h.exists_items
  obtain ⟨sorted, hperm, hsort, hpairwise⟩ := Item.exists_sorted (items.filter (·.uploadedAt.isNone))
  have hmem : ∀ i, i ∈ sorted ↔ told i.id history = some i ∧ i.uploadedAt = none := by
    intro i
    rw [hperm.mem_iff, List.mem_filter, hitems, Option.isNone_iff_eq_none]
  have hkept : ∀ i ∈ sorted, i.IsKept := fun i hi => h.kept i.id i ((hmem i).1 hi).1
  have hrows : (ItemStatement.listPending.run (items.map Item.row)).1 = sorted.map Item.row := by
    show ((items.map Item.row).filter (·.uploadedAt.isNone)).mergeSort ItemRow.pendingBefore = _
    rw [List.filter_map, ← hsort]
    refine congrArg (fun l => (List.map Item.row l).mergeSort ItemRow.pendingBefore) ?_
    refine List.filter_congr fun i _ => ?_
    exact Option.isNone_map
  refine ⟨sorted, (ends_pending hw ?_).value, ?_, ?_, hmem⟩
  · rw [hrows]
    exact Item.readRows_row reports hkept
  · refine (List.Perm.nodup_iff (hperm.map _)).2 (List.Nodup.sublist ?_ hnodup)
    exact List.Sublist.map _ List.filter_sublist
  · refine hpairwise.imp_of_mem fun hi hj hij => ?_
    exact Item.listedBefore_of_pendingBefore (hkept _ hi) (hkept _ hj) hij

theorem Tells.stats (h : Tells t history) (hw : w.Holds t) : ∃ count, (w.run Ledger.stats).1 = .ok count ∧
    count.total = (known history).length ∧
    count.pending = (known history).countP (fun id => (told id history).any (·.uploadedAt.isNone)) ∧
    count.uploaded = (known history).countP (fun id => (told id history).any (·.uploadedAt.isSome)) ∧
    count.total = count.pending + count.uploaded := by
  obtain ⟨items, rfl, hnodup, hitems⟩ := h.exists_items
  have hlength : (items.map Item.row).length = (known history).length := by
    rw [(known_perm hnodup hitems).length_eq, List.length_map, List.length_map]
  have hpending : (items.map Item.row).countP (·.uploadedAt.isNone) = items.countP (·.uploadedAt.isNone) := by
    rw [List.countP_map]
    exact List.countP_congr fun i _ => iff_of_eq (congrArg (· = true) Option.isNone_map)
  have hboth : items.length = items.countP (·.uploadedAt.isNone) + items.countP (·.uploadedAt.isSome) := by
    rw [List.length_eq_countP_add_countP (·.uploadedAt.isNone)]
    refine congrArg _ (List.countP_congr fun i _ => ?_)
    cases i.uploadedAt <;> simp
  refine ⟨_, (ends_stats hw).value, hlength, ?_, ?_, ?_⟩
  · rw [countP_known hnodup hitems]
    exact hpending
  · rw [countP_known hnodup hitems]
    show (items.map Item.row).length - (items.map Item.row).countP _ = _
    rw [hpending, List.length_map]
    omega
  · show (items.map Item.row).length = (items.map Item.row).countP _ +
      ((items.map Item.row).length - (items.map Item.row).countP _)
    rw [hpending, List.length_map]
    omega

/-- A world that holds such a table answers as the history tells. -/
theorem Tells.law (h : Tells t history) (hw : w.Holds t) : Law w history where
  get id := by
    cases htold : told id history with
    | none =>
      have hrow : t.row? id = none := by rw [h.rows, htold]; rfl
      exact (ends_get_none hw hrow).value
    | some i =>
      have hrow : t.row? id = some i.row := by rw [h.rows, htold]; rfl
      exact (ends_get_some hw hrow (Item.item_row (h.kept id i htold))).value
  discover id time := by
    rw [← h.isNone_row?]
    exact (ends_discover hw id time).value
  markUploaded id time := (ends_markUploaded hw id time).value
  contains id := by
    have hsome : (t.row? id).isSome = decide (id ∈ known history) := by
      rw [← Option.not_isNone, h.isNone_row?]
      simp
    rw [← hsome]
    exact (ends_contains hw id).value
  pending := h.pending hw
  stats := h.stats hw

theorem ends_write (hw : w.Holds t) (e : Entry) : w.Ends e.write () (e.statement.run t).2 := by
  cases e with
  | seen id time =>
    have hdiscover := ends_discover hw id time
    exact hdiscover.bind (World.ends_pure hdiscover.holds ())
  | acknowledged id time => exact ends_markUploaded hw id time

/-- After a history the world holds a table that has what the history tells. -/
theorem exists_tells_after (hw : w.Holds []) (hdates : ∀ e ∈ history, e.time.IsDate) :
    ∃ t, (after w history).Holds t ∧ Tells t history := by
  induction history using List.reverseRecOn with
  | nil => exact ⟨[], hw, tells_nil⟩
  | append_singleton history e ih =>
    obtain ⟨t, ht, htells⟩ := ih fun a ha => hdates a (List.mem_append_left _ ha)
    have he : e.time.IsDate := hdates e (List.mem_append_right _ List.mem_cons_self)
    refine ⟨(e.statement.run t).2, ?_, htells.step he⟩
    unfold after
    rw [List.foldl_append]
    exact (ends_write ht e).holds

/-- From an empty table of items on, whatever is seen and acknowledged at whatever dates, the ledger answers
    what the history tells. -/
theorem law_of_history (hopen : w.database.isOpen = true) (hitems : w.database.items = some [])
    (hdates : ∀ e ∈ history, e.time.IsDate) : Law (after w history) history := by
  obtain ⟨t, ht, htells⟩ := exists_tells_after ⟨hopen, hitems⟩ hdates
  exact htells.law ht

/-- An item that is acknowledged before it is seen, and then again with a clock that went back; another one
    that was only seen. -/
def clockWentBack : List Entry :=
  [.acknowledged "a" ⟨5000000⟩, .seen "a" ⟨3000001⟩, .seen "b" ⟨-1⟩, .acknowledged "a" ⟨2000000⟩,
    .seen "a" ⟨1000000⟩, .acknowledged "a" ⟨9000000⟩]

/-- A world with an empty database, where nothing else happens. -/
def emptyWorld : World where
  database := .empty
  clock := .epoch
  network := none
  shelf := []
  listing := default
  server := []
  losses := default
  events := []
  received := []
  inFlight := []
  peak := 0
  exchanges := 0
  elapsed := 0

theorem law_of_history_clock_went_back :
    (∀ e ∈ clockWentBack, e.time.IsDate) ∧
      ((after emptyWorld clockWentBack).run (Ledger.get "a")).1 =
        .ok (some ⟨"a", ⟨3000000⟩, some ⟨3000000⟩⟩) ∧
      ((after emptyWorld clockWentBack).run (Ledger.get "b")).1 = .ok (some ⟨"b", ⟨-1000000⟩, none⟩) ∧
      ((after emptyWorld clockWentBack).run (Ledger.discover "c" .epoch)).1 = .ok true := by
  have hdates : ∀ e ∈ clockWentBack, e.time.IsDate := by decide
  have hlaw : Law (after emptyWorld clockWentBack) clockWentBack := law_of_history rfl rfl hdates
  exact ⟨hdates, hlaw.get "a", hlaw.get "b", hlaw.discover "c" .epoch⟩

end Ledger

end MediaBackup
