import DeadDrop.Server.Settings

/-!
Starting a server. The table of a durable store is opened before anything else is looked at, and
the network comes last; the first thing that fails is the answer.
-/

namespace DeadDrop.Server

structure Machine where
  openTable : Except String Unit
  listen : Except String Unit

def ioFailure (reason : String) : Error := .storage (.io ("I/O error: " ++ reason))

def openStorage (settings : Settings) (machine : Machine) : Except Error Unit :=
  match settings.database with
  | .memory => .ok ()
  | .durable => machine.openTable.mapError ioFailure

/-- Starts a server: storage, policy, headers and network, in this order. -/
def launch (settings : Settings) (machine : Machine) : Except Error Unit := do
  openStorage settings machine
  let _ ← settings.policy.maximum.mapError .policy
  settings.http.check.mapError .settings
  machine.listen.mapError .transport

end DeadDrop.Server
