import LeaseLock.Client.Conversation
import LeaseLock.Text.Json

/-
  LeaseLock: the calls of a client.
  Each call of the lock server as a conversation.  All but one send a single request and read its
  reply.  A request for a lock with a time limit sends a second one when the time is up, to
  withdraw the first; if that finds nothing to withdraw, the first has been answered, and a lock
  that it got is released again.
-/

namespace LeaseLock.Client.Conversation

variable {α : Type}

/-! ## Requests -/

/-- Send a request and wait for the reply, whatever its status. -/
def exchange (command : UInt8) (body : Bytes) : Conversation Wire.Response := do
  let ticket ← send command body
  await ticket

/-- A reply that is not an error. -/
def accepted (r : Wire.Response) : Except Error Wire.Response :=
  if r.isError then .error (.remote r) else .ok r

/-- Send a command and wait for a reply that is not an error. -/
def call (command : Wire.Command) : Conversation Wire.Response := do
  let r ← exchange command.code command.body
  ofExcept (accepted r)

/-- A result read from a reply. -/
def result (part : Part) (r : Except Fault α) : Conversation α :=
  match r with
  | .ok a => done a
  | .error fault => fail (.unreadable part fault)

/-- Send a command whose reply carries nothing. -/
def order (command : Wire.Command) : Conversation Unit := do
  let _ ← call command

/-! ## Sessions -/

/-- Open a session and act for it. -/
def openSession : Conversation Wire.SessionGrant := do
  let r ← call .openSession
  let grant ← result .session (Wire.SessionGrant.decode r.body)
  adopt grant.session
  return grant

/-- Act for a session that is open already. -/
def attachSession (session : UInt64) : Conversation Unit := do
  order (.attachSession session)
  adopt session

/-- Renew the lease of the session. -/
def keepAlive : Conversation Unit := order .keepAlive

/-- Close the session. -/
def closeSession : Conversation Unit := do
  order .closeSession
  adopt 0

/-- The statistics of the server. -/
def stats : Conversation JsonValue := do
  let r ← call .stats
  match JsonValue.ofBytes? r.body with
  | some json => return json
  | none => fail .unreadableStatistics

/-! ## Handles -/

/-- Open the resource of this name.  A name that no text field can carry is refused at once. -/
def openHandle (name : String) : Conversation UInt64 := do
  if Wire.maxTextLength < name.utf8ByteSize then
    fail (.longName name.utf8ByteSize)
  else
    let r ← call (.open name)
    result .handle (Wire.decodeU64 "handle" r.body)

/-- Close a handle. -/
def close (handle : UInt64) : Conversation Unit := order (.close handle)

/-- Release a lock. -/
def release (handle : UInt64) : Conversation Unit := order (.release handle)

/-- Withdraw a request that waits for a lock; tells whether there was one. -/
def cancelLock (handle : UInt64) : Conversation Bool := do
  let r ← call (.cancelLock handle)
  return r.body.head?.any (· != 0)

/-! ## Locks -/

/-- The command that requests a lock. -/
def lockCommand (handle : UInt64) (mode : Mode) (tryOnly : Bool) : Wire.Command :=
  .lock (Wire.LockRequest.mk handle mode.bits tryOnly).encode

/-- The generation in a reply that grants a lock. -/
def generation (r : Wire.Response) : Conversation UInt64 := do
  let grant ← result .generation (Wire.LockGrant.decode r.body)
  return grant.generation

/-- What a reply says to a request that waits. -/
def granted (r : Wire.Response) : Conversation UInt64 :=
  match LockStatus.ofStatus? r.status with
  | some .granted => generation r
  | some .cancelled => fail .withdrawn
  | _ => fail (.strayStatus r.status r.id)

/-- Wait for a lock. -/
def lock (handle : UInt64) (mode : Mode) : Conversation UInt64 := do
  let r ← call (lockCommand handle mode false)
  granted r

/-- Take a lock if it is free; `none` if it is not. -/
def tryLock (handle : UInt64) (mode : Mode) : Conversation (Option UInt64) := do
  let r ← call (lockCommand handle mode true)
  match LockStatus.ofStatus? r.status with
  | some .granted => some <$> generation r
  | some .busy => return none
  | _ => fail (.strayStatus r.status r.id)

/-- Release the lock if this reply granted it; how that goes is nobody's concern. -/
def undo (handle : UInt64) (reply : Except Error Wire.Response) : Conversation Unit :=
  match reply with
  | .ok r =>
    if LockStatus.ofStatus? r.status = some .granted then do
      let _ ← (release handle).attempt
    else done ()
  | .error _ => done ()

/-- The time for the request with this ticket is up: withdraw it, and release the lock if it was
granted meanwhile. -/
def giveUp (handle : UInt64) (limit ticket : Nat) : Conversation α := do
  if !(← cancelLock handle) then
    undo handle (← (await ticket).attempt)
  fail (.tooLate handle limit)

/-- Wait for a lock, but no longer than this. -/
def lockWithin (handle : UInt64) (mode : Mode) (limit : Nat) : Conversation UInt64 := do
  let command := lockCommand handle mode false
  let ticket ← send command.code command.body
  match ← awaitWithin ticket limit with
  | some r => do
    let r ← ofExcept (accepted r)
    granted r
  | none => giveUp handle limit ticket

end LeaseLock.Client.Conversation
