import LeaseLock.Coordinator.Turn
import LeaseLock.Wire.Frame

/-
  LeaseLock: the operations of the coordinator.
  Each takes the state to a result and a turn.  An operation that is refused leaves the state as it
  is, but for the counts.  `Operation` names them all, so that a run is a list of them.
-/

namespace LeaseLock.Coordinator

/-! ## Single operations -/

namespace State

variable {ρ : Type}

/-- Begin a session. -/
def createSession (s : State ρ) (now : Nat) : Except Crash Nat × State ρ :=
  let (id, sessions) := s.sessions.create now
  (id, { s with sessions })

/-- Renew the lease of a session; returns its new end. -/
def renew (s : State ρ) (session now : Nat) : Except Failure Nat × State ρ :=
  let (expiry, sessions) := s.sessions.renew session now
  (expiry, { s with sessions })

/-- End a session: its locks are released, its requests withdrawn, its handles closed. -/
def closeSession (s : State ρ) (session : Nat) : Except Fault Unit × Turn ρ :=
  match s.sessions.remove session with
  | (none, _) => (.error (.sessionExpired session), .start s)
  | (some gone, sessions) =>
    (.ok (), ((Turn.start { s with sessions }).detachAll session .sessionClosed
      gone.opened.keys).2)

/-- The id of the handle with this name, which is created if there is none. -/
def ensureHandle (s : State ρ) (name : String) : Nat × State ρ :=
  match s.named? name with
  | some id => (id, s)
  | none =>
    (s.nextHandle, { s with
      handles := s.handles.insert s.nextHandle (.fresh name)
      names := s.names ++ [(name, s.nextHandle)]
      nextHandle := s.nextHandle + 1 })

/-- Open the resource of this name for a session; returns its handle. -/
def openHandle (s : State ρ) (session : Nat) (name : String) : Except Fault Nat × State ρ :=
  if s.sessions.contains session then
    let (id, s) := s.ensureHandle name
    (.ok id, { s with
      handles := s.handles.modify id fun h => { h with openers := IdSet.add h.openers session }
      sessions := s.sessions.openHandle session id })
  else (.error (.sessionExpired session), s)

/-- Close a handle for a session, with its lock or its request. -/
def closeHandle (s : State ρ) (session handle : Nat) : Except Fault Unit × Turn ρ :=
  match s.sessions.get? session with
  | none => (.error (.sessionExpired session), .start s)
  | some owner =>
    if owner.opened.contains handle then
      let sessions := s.sessions.modify session fun o =>
        { o with opened := o.opened.erase handle, held := o.held.erase handle }
      (.ok (), ((Turn.start { s with sessions }).detach handle session .handleClosed).2)
    else (.error (.unknownHandle handle), .start s)

/-- Why a session may not ask for a lock now, or the handle it asks for. -/
def checkRequest (s : State ρ) (session handle : Nat) : Except Fault (Handle ρ) :=
  match s.sessions.get? session with
  | none => .error (.sessionExpired session)
  | some owner =>
    if owner.opened.contains handle then
      match s.handle? handle with
      | none => .error (.unknownHandle handle)
      | some h => if h.involves session then .error (.alreadyLocked handle) else .ok h
    else .error (.unknownHandle handle)

/-- Ask for a lock.  It is given at once if nobody waits and the holders admit the mode; otherwise
the request waits behind all others, unless it would not wait. -/
def acquire (s : State ρ) (session handle : Nat) (mode : Mode) (tryOnly : Bool) (reply : ρ) :
    LockOutcome × Turn ρ :=
  let t := Turn.start s
  match s.checkRequest session handle with
  | .error fault => (.refused fault.code, t.answer reply (.refused fault))
  | .ok h =>
    if h.waiters.isEmpty && h.admits mode then
      let h' := h.grant session mode
      (.granted h'.generation,
        (t.onHandles fun hs => hs.insert handle h').recordGrant handle session mode
          h'.generation reply)
    else if tryOnly then
      (.denied, (t.count fun c => { c with denials := c.denials + 1 }).answer reply .busy)
    else
      (.queued, (t.onHandles fun hs =>
        hs.insert handle { h with waiters := h.waiters ++ [⟨session, mode, reply⟩] }).count
          fun c => { c with queued := c.queued + 1 })

/-- Read the body of a lock request and the mode in it. -/
def readRequest (payload : Bytes) : Except Fault (Wire.LockRequest × Mode) := do
  let request ← Wire.LockRequest.decode payload
  let mode ← Mode.ofBits request.mode
  return (request, mode)

/-- Ask for a lock with the body of a lock request; one that cannot be read is refused. -/
def dispatch (s : State ρ) (session : Nat) (payload : Bytes) (reply : ρ) : LockOutcome × Turn ρ :=
  match readRequest payload with
  | .ok (request, mode) => s.acquire session request.handle.toNat mode request.tryOnly reply
  | .error fault =>
    (.refused fault.code,
      ((Turn.start s).count fun c => { c with protocolErrors := c.protocolErrors + 1 }).answer reply
        (.malformed fault))

/-- Release a lock and serve the queue behind it. -/
def release (s : State ρ) (session handle : Nat) : Except Fault Unit × Turn ρ :=
  match s.handle? handle with
  | none => (.error (.unknownHandle handle), .start s)
  | some _ =>
    match (Turn.start s).unlock handle session .explicit with
    | (false, t) => (.error (.notLocked handle), t)
    | (true, t) => (.ok (), (t.onSessions fun r => r.unhold session handle).pump handle)

/-- Withdraw a session's request; tells whether there was one. -/
def cancel (s : State ρ) (session handle : Nat) : Bool × Turn ρ :=
  match (Turn.start s).withdraw handle session .cancelled with
  | (false, t) => (false, t)
  | (true, t) => (true, t.pump handle)

/-- The sessions whose lease has ended at `now`, with what they were. -/
def lapsed (s : State ρ) (now : Nat) : List (Nat × Session) :=
  s.sessions.table.entries.filter fun e => e.2.lapsed now

/-- Take sessions off the registry. -/
def unregister (s : State ρ) (ids : List Nat) : State ρ :=
  { s with sessions := { s.sessions with
    table := s.sessions.table.filterKeys fun id => !ids.contains id } }

/-- End every session whose lease has ended; returns them in ascending order.  All of them leave
the registry before any lock is released, so none of them is given a lock on the way. -/
def expire (s : State ρ) (now : Nat) : List Nat × Turn ρ :=
  let gone := s.lapsed now
  let ids := gone.map (·.1)
  (ids, ((Turn.start (s.unregister ids)).expireAll gone).count
    fun c => { c with expiredSessions := c.expiredSessions + ids.length })

end State

/-! ## Operations as data -/

/-- An operation of the coordinator. -/
inductive Operation (ρ : Type) where
  /-- Begin a session. -/
  | createSession (now : Nat)
  /-- Renew a lease. -/
  | renew (session now : Nat)
  /-- End a session. -/
  | closeSession (session : Nat)
  /-- Open a handle. -/
  | openHandle (session : Nat) (name : String)
  /-- Close a handle. -/
  | closeHandle (session handle : Nat)
  /-- Ask for a lock. -/
  | acquire (session handle : Nat) (mode : Mode) (tryOnly : Bool) (reply : ρ)
  /-- Ask for a lock with the body of a lock request. -/
  | dispatch (session : Nat) (payload : Bytes) (reply : ρ)
  /-- Release a lock. -/
  | release (session handle : Nat)
  /-- Withdraw a request. -/
  | cancel (session handle : Nat)
  /-- End the sessions whose lease has ended. -/
  | expire (now : Nat)

/-- The result of an operation. -/
inductive Result where
  /-- The id of a new session. -/
  | created (id : Except Crash Nat)
  /-- The new end of a lease. -/
  | renewed (expiry : Except Failure Nat)
  /-- Done, or refused. -/
  | done (result : Except Fault Unit)
  /-- The id of an opened handle. -/
  | opened (handle : Except Fault Nat)
  /-- How a lock request stands. -/
  | outcome (outcome : LockOutcome)
  /-- Whether a request was withdrawn. -/
  | withdrawn (any : Bool)
  /-- The sessions that were ended. -/
  | expired (sessions : List Nat)

/-- The same operation with another reply address. -/
def Operation.mapReply {ρ σ : Type} (f : ρ → σ) : Operation ρ → Operation σ
  | .createSession now => .createSession now
  | .renew session now => .renew session now
  | .closeSession session => .closeSession session
  | .openHandle session name => .openHandle session name
  | .closeHandle session handle => .closeHandle session handle
  | .acquire session handle mode tryOnly reply => .acquire session handle mode tryOnly (f reply)
  | .dispatch session payload reply => .dispatch session payload (f reply)
  | .release session handle => .release session handle
  | .cancel session handle => .cancel session handle
  | .expire now => .expire now

/-- Carry out an operation. -/
def State.perform {ρ : Type} (s : State ρ) : Operation ρ → Result × Turn ρ
  | .createSession now => let (r, s) := s.createSession now; (.created r, .start s)
  | .renew session now => let (r, s) := s.renew session now; (.renewed r, .start s)
  | .closeSession session => let (r, t) := s.closeSession session; (.done r, t)
  | .openHandle session name => let (r, s) := s.openHandle session name; (.opened r, .start s)
  | .closeHandle session handle => let (r, t) := s.closeHandle session handle; (.done r, t)
  | .acquire session handle mode tryOnly reply =>
    let (r, t) := s.acquire session handle mode tryOnly reply; (.outcome r, t)
  | .dispatch session payload reply =>
    let (r, t) := s.dispatch session payload reply; (.outcome r, t)
  | .release session handle => let (r, t) := s.release session handle; (.done r, t)
  | .cancel session handle => let (r, t) := s.cancel session handle; (.withdrawn r, t)
  | .expire now => let (r, t) := s.expire now; (.expired r, t)

end LeaseLock.Coordinator
