/-
  LeaseLock: why the system refuses a connection.
  The three refusals that a server or a client can meet when it sets up a connection, with the
  numbers, names and texts that the system has for them.
-/

namespace LeaseLock.Net

/-- Why a socket cannot be set up. -/
inductive SocketError where
  /-- Another server listens at the address. -/
  | addressInUse
  /-- There is no route to the address. -/
  | unreachable
  /-- Nobody listens at the address. -/
  | refused
deriving DecidableEq, Repr

namespace SocketError

/-- The number of the error. -/
def number : SocketError → Nat
  | addressInUse => 98
  | unreachable => 101
  | refused => 111

/-- The name of the error. -/
def name : SocketError → String
  | addressInUse => "AddrInUse"
  | unreachable => "NetworkUnreachable"
  | refused => "ConnectionRefused"

/-- The error in words. -/
def words : SocketError → String
  | addressInUse => "Address already in use"
  | unreachable => "Network is unreachable"
  | refused => "Connection refused"

/-- The wording of the error, with its number. -/
def message (e : SocketError) : String := s!"{e.words} (os error {e.number})"

/-- All that is known of the error, as a record. -/
def record (e : SocketError) : String :=
  s!"Os \x7b code: {e.number}, kind: {e.name}, message: \"{e.words}\" \x7d"

/-- Why a client has no connection to the server at an address. -/
def connectMessage (e : SocketError) (address : String) : String :=
  s!"connect to lock server {address}: {e.message}"

/-- Why the event loop has no connection to a destination at an address. -/
def destinationMessage (e : SocketError) (address : String) : String :=
  s!"connect to {address}: {e.message}"

/-- Why a server does not listen at an address. -/
def listenMessage (e : SocketError) (address : String) : String :=
  s!"listen on {address}: bind {address}: {e.message}"

end SocketError

end LeaseLock.Net
