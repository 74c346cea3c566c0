import MediaBackup.Ledger.Basic
import MediaBackup.Proofs.Store.Items
import MediaBackup.Proofs.Store.Reading
import MediaBackup.Rehearsal.World

/-
  What the programs of the ledger come to in a world whose database can be reached.

  A world HOLDS a table of items if its database is open and has that table.  Each program then ends with a
  value and leaves the world holding the table that its statement makes of the one before; so a run of the
  ledger is told by statements on a table.
-/

namespace MediaBackup

namespace Rehearsal.World

variable {w : World} {t : ItemTable} {α β : Type}

/-- The database is open and has this table of items. -/
structure Holds (w : World) (t : ItemTable) : Prop where
  isOpen : w.database.isOpen = true
  items : w.database.items = some t

/-- The program ends with a value and leaves the world holding a table. -/
structure Ends (w : World) (p : Engine α) (a : α) (t : ItemTable) : Prop where
  value : (w.run p).1 = .ok a
  holds : (w.run p).2.Holds t

theorem ends_pure (h : w.Holds t) (a : α) : w.Ends (pure a) a t := ⟨rfl, h⟩

/-- One program after another. -/
theorem Ends.bind {p : Engine α} {f : α → Engine β} {a : α} {b : β} {u : ItemTable} (hp : w.Ends p a t)
    (hf : (w.run p).2.Ends (f a) b u) : w.Ends (p >>= f) b u := by
  have hrun : w.run (p >>= f) = (w.run p).2.run (f a) := by
    show Script.run answer (p.run.bind (ExceptT.bindCont f)) w = _
    rw [Script.run_bind]
    have hvalue : (Script.run answer p.run w).1 = .ok a := hp.value
    rw [hvalue]
    rfl
  constructor
  · rw [hrun]
    exact hf.value
  · rw [hrun]
    exact hf.holds

/-- A statement on the items is answered from the table that the world holds. -/
theorem ends_items (h : w.Holds t) (s : ItemStatement) : w.Ends (Engine.items s) (s.run t).1 (s.run t).2 := by
  have hreach : w.database.reach "items" w.database.items = .ok t := by
    unfold Database.reach
    rw [h.isOpen, h.items]
    rfl
  have hanswer : w.answerItems s =
      (.ok (s.run t).1, { w with database := { w.database with items := some (s.run t).2 } }) := by
    unfold answerItems Database.runItems
    rw [hreach]
  have hcall : w.run (Engine.call (.items s)) =
      (.ok (.ok (s.run t).1), { w with database := { w.database with items := some (s.run t).2 } }) := by
    show ((Except.ok (w.answerItems s).1 : Except Stop _), (w.answerItems s).2) = _
    rw [hanswer]
  have hholds : (w.run (Engine.call (.items s))).2.Holds (s.run t).2 := by
    rw [hcall]
    exact ⟨h.isOpen, rfl⟩
  exact Ends.bind ⟨congrArg Prod.fst hcall, hholds⟩ (ends_pure hholds _)

end Rehearsal.World

namespace Ledger

open Rehearsal

variable {w : World} {t : ItemTable}

theorem ends_discover (h : w.Holds t) (id : String) (time : Instant) :
    w.Ends (discover id time) (t.row? id).isNone ((ItemStatement.insertIfAbsent id time).run t).2 := by
  have hanswer : ((ItemStatement.insertIfAbsent id time).run t).1 = (t.row? id).isNone := by
    show (if t.any (·.id == id) then (false, t) else (true, t ++ [⟨id, time.cell, none⟩])).1 = _
    rw [Rows.any_name_eq t id]
    show _ = (Rows.row? ItemRow.id t id).isNone
    cases Rows.row? ItemRow.id t id <;> rfl
  rw [← hanswer]
  exact World.ends_items h _

/-- A mark that changes nothing only looks at the table once more. -/
theorem ends_markUploaded (h : w.Holds t) (id : String) (time : Instant) :
    w.Ends (markUploaded id time) () ((ItemStatement.mark id time).run t).2 := by
  have hmark := World.ends_items h (.mark id time)
  refine hmark.bind ?_
  split
  · have hlook := World.ends_items hmark.holds (.exists id)
    exact hlook.bind (World.ends_pure hlook.holds ())
  · exact World.ends_pure hmark.holds ()

theorem ends_contains (h : w.Holds t) (id : String) : w.Ends (contains id) (t.row? id).isSome t := by
  have hanswer : ((ItemStatement.exists id).run t).1 = (t.row? id).isSome := Rows.any_name_eq t id
  rw [← hanswer]
  exact World.ends_items h _

theorem ends_get_none (h : w.Holds t) {id : String} (hrow : t.row? id = none) : w.Ends (get id) none t := by
  refine (World.ends_items h (.find id)).bind ?_
  have hanswer : ((ItemStatement.find id).run t).1 = none := hrow
  rw [hanswer]
  exact World.ends_pure (World.ends_items h _).holds none

/-- A row that can be read is found as the item that it holds. -/
theorem ends_get_some (h : w.Holds t) {id : String} {row : ItemRow} {item : Item} (hrow : t.row? id = some row)
    (hitem : row.item = .ok item) : w.Ends (get id) (some item) t := by
  refine (World.ends_items h (.find id)).bind ?_
  have hanswer : ((ItemStatement.find id).run t).1 = some row := hrow
  have hread : itemOf row = .ok item := by
    unfold itemOf
    rw [hitem]
  rw [hanswer]
  dsimp only
  rw [hread]
  exact World.ends_pure (World.ends_items h _).holds (some item)

theorem ends_stats (h : w.Holds t) :
    w.Ends stats ⟨t.length, t.countP (·.uploadedAt.isNone)⟩ t := World.ends_items h .count

/-- Rows that can all be read are listed as the items that they hold. -/
theorem ends_pending (h : w.Holds t) {reports : Bool} {items : List Item}
    (hitems : readRows reports (ItemStatement.listPending.run t).1 = pure items) :
    w.Ends (pending reports) items t := by
  refine (World.ends_items h .listPending).bind ?_
  rw [hitems]
  exact World.ends_pure (World.ends_items h _).holds items

end Ledger

end MediaBackup
