import LeaseLock.Wire.Frame

/-
  LeaseLock: the commands of the lock server.
  A command has a number, which travels in the request frame, and arguments, which are its body.
  The body of a lock request is carried unread: the coordinator decodes it, so that a malformed
  one is answered like a refused one.
-/

namespace LeaseLock.Wire

/-- What a client can ask of the lock server. -/
inductive Command where
  /-- Start a session and bind it to the connection. -/
  | openSession
  /-- Bind a session that is still leased to the connection. -/
  | attachSession (session : UInt64)
  /-- Renew the lease and do nothing else. -/
  | keepAlive
  /-- Open the resource of this name. -/
  | open (name : String)
  /-- Close a handle. -/
  | close (handle : UInt64)
  /-- Request a lock. -/
  | lock (payload : Bytes)
  /-- Release a lock. -/
  | release (handle : UInt64)
  /-- Withdraw a request that still waits. -/
  | cancelLock (handle : UInt64)
  /-- End the session. -/
  | closeSession
  /-- Report the state of the server. -/
  | stats
deriving DecidableEq, Repr

namespace Command

/-- The number of a command. -/
def code : Command → UInt8
  | openSession => 1
  | attachSession _ => 2
  | keepAlive => 3
  | .open _ => 4
  | close _ => 5
  | lock _ => 6
  | release _ => 7
  | cancelLock _ => 8
  | closeSession => 9
  | stats => 10

/-- Whether a command acts for the session bound to its connection. -/
def needsSession : Command → Bool
  | openSession | attachSession _ | stats => false
  | _ => true

/-- The arguments of a command. -/
def body : Command → Bytes
  | openSession | keepAlive | closeSession | stats => []
  | attachSession id | close id | release id | cancelLock id => encodeU64 id
  | .open name => putText name
  | lock payload => payload

/-- The command with this number and these arguments, `none` if no command has the number.  What
follows the arguments is ignored. -/
def decode (code : UInt8) (body : Bytes) : Except Fault (Option Command) :=
  match code with
  | 1 => .ok (some openSession)
  | 2 => (decodeU64 "session id" body).map (some ∘ attachSession)
  | 3 => .ok (some keepAlive)
  | 4 => (takeText "handle name" body).map fun (name, _) => some (.open name)
  | 5 => (decodeU64 "handle" body).map (some ∘ close)
  | 6 => .ok (some (lock body))
  | 7 => (decodeU64 "handle" body).map (some ∘ release)
  | 8 => (decodeU64 "handle" body).map (some ∘ cancelLock)
  | 9 => .ok (some closeSession)
  | 10 => .ok (some stats)
  | _ => .ok none

/-- The request frame of a command. -/
def request (c : Command) (id : UInt32) : Request := { id, command := c.code, body := c.body }

end Command

end LeaseLock.Wire
