/-
  What is known of the network.
-/

namespace MediaBackup

/-- Whether there is a connection. -/
inductive NetworkStatus where
  | connected
  | disconnected
  | indeterminate
deriving DecidableEq, Repr, Inhabited

/-- What the connection is made of. -/
inductive NetworkKind where
  | cellular
  | wifi
  | ethernet
  | other
deriving DecidableEq, Repr, Inhabited

/-- One look at the network. -/
structure NetworkInfo where
  status : NetworkStatus
  kind : Option NetworkKind
  /-- Traffic costs. -/
  isMetered : Bool
deriving DecidableEq, Repr, Inhabited

namespace NetworkInfo

/-- There is a connection. -/
def isConnected (n : NetworkInfo) : Bool := n.status == .connected

/-- There is a connection, and traffic on it is free. -/
def isUnmetered (n : NetworkInfo) : Bool := n.isConnected && !n.isMetered

/-- What is assumed when the network cannot be asked: no connection for sure, and any traffic costs. -/
def unknown : NetworkInfo := ⟨.indeterminate, none, true⟩

/-- A look shows a connection; a look that failed shows none. -/
def isSeenConnected {ε : Type} : Except ε NetworkInfo → Bool
  | .ok n => n.isConnected
  | .error _ => false

/-- A look shows that traffic costs; a look that failed does not. -/
def isSeenMetered {ε : Type} : Except ε NetworkInfo → Bool
  | .ok n => n.isMetered
  | .error _ => false

end NetworkInfo

end MediaBackup
