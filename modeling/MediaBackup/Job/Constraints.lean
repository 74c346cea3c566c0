import MediaBackup.Json.Record
import MediaBackup.Json.Writer
import MediaBackup.Network.Info

/-
  What the network must offer before a job may start, and the text of it that a row keeps.
-/

namespace MediaBackup

/-- A job's demands on the network. -/
structure Constraints where
  requiresNetwork : Bool
  requiresUnmetered : Bool
deriving DecidableEq, Repr, Inhabited

namespace Constraints

/-- No demand. -/
def none : Constraints := ⟨false, false⟩

/-- A connection. -/
def network : Constraints := ⟨true, false⟩

/-- A connection whose traffic is free. -/
def unmetered : Constraints := ⟨true, true⟩

/-- The network as seen meets the demands.  A host that cannot look at its network (`none`) is
    trusted to have one. -/
def satisfiedBy (c : Constraints) : Option NetworkInfo → Bool
  | .none => true
  | some n =>
    if (c.requiresNetwork || c.requiresUnmetered) && !n.isConnected then false
    else !(c.requiresUnmetered && n.isMetered)

/-! ## Text -/

/-- The fields of the text, in their order. -/
def fields : List (Json.Field Constraints) :=
  [⟨"requires_network", fun _ c => do return { c with requiresNetwork := ← Json.Reader.bool }⟩,
   ⟨"requires_unmetered", fun _ c => do return { c with requiresUnmetered := ← Json.Reader.bool }⟩]

/-- Reads the text; a field that is missing is no demand. -/
def ofText (s : String) : Except Json.Fault Constraints :=
  (Json.Reader.document "struct JobConstraints" fields none).run s

/-- Writes the text. -/
def text (c : Constraints) : String :=
  Json.writeObject
    [("requires_network", Json.writeBool c.requiresNetwork),
     ("requires_unmetered", Json.writeBool c.requiresUnmetered)]

end Constraints

end MediaBackup
