import LeaseLock.Coordinator.Operation
import LeaseLock.Coordinator.Reply
import LeaseLock.Coordinator.Snapshot
import LeaseLock.Reactor.Program
import LeaseLock.Wire.Command

/-
  LeaseLock: the lock service.
  The service is the handler of all client connections.  A connection is bound to at most one
  session, whose lease is renewed by every command that comes over it.  A connection that ends only
  loses its binding: the session lives on until its lease ends, and another connection can attach
  to it.  Every request is answered once; a lock request that has to wait is answered when it
  leaves the queue.  A timer looks for lapsed leases and schedules itself anew.
-/

namespace LeaseLock.Service

open Reactor Coordinator

/-! ## State -/

/-- Where the response to a request goes. -/
structure ReplyTo where
  /-- The endpoint over which the request came. -/
  endpoint : Nat
  /-- The id of the request. -/
  id : UInt32
deriving DecidableEq, Repr

/-- The coordinator, the sessions of the connections, and the timer. -/
structure State where
  /-- The settings. -/
  config : Config
  /-- The coordinator. -/
  coordinator : Coordinator.State ReplyTo
  /-- The session that each endpoint is bound to. -/
  bindings : Table Nat
  /-- The timer that looks for lapsed leases. -/
  sweepTimer : Option Nat

namespace State

/-- No sessions and no connections; the timer is not started. -/
def empty (config : Config) : State := ⟨config, .empty config.lease, ∅, none⟩

/-- The session that an endpoint is bound to. -/
def sessionFor (s : State) (endpoint : Nat) : Option Nat := s.bindings.get? endpoint

/-- Bind an endpoint to a session. -/
def bind (s : State) (endpoint session : Nat) : State :=
  { s with bindings := s.bindings.insert endpoint session }

/-- Forget the binding of an endpoint. -/
def unbind (s : State) (endpoint : Nat) : State :=
  { s with bindings := s.bindings.erase endpoint }

/-- Forget the bindings to these sessions. -/
def unbindAll (s : State) (sessions : List Nat) : State :=
  { s with bindings := s.bindings.filter fun _ session => !sessions.contains session }

/-- The time between two looks for lapsed leases; at least a millisecond. -/
def sweepInterval (s : State) : Nat := max s.config.sweepInterval Time.milli

end State

/-! ## Replies -/

variable {κ η : Type}

/-- What the service does in the event loop.  It notes the events of the coordinator. -/
abbrev Activity (κ η α : Type) := Program κ η State LockEvent α

/-- Send a response.  That the client has gone is nobody's concern. -/
def sendResponse (endpoint : Nat) (r : Wire.Response) : Activity κ η Unit := do
  let _ ← Program.send endpoint r.encode

/-- Report a success. -/
def respond (dest : ReplyTo) (body : Bytes) : Activity κ η Unit :=
  sendResponse dest.endpoint ⟨dest.id, Wire.Response.statusOk, body⟩

/-- Report an error. -/
def reject (dest : ReplyTo) (code : FaultCode) (message : String) : Activity κ η Unit :=
  sendResponse dest.endpoint (.error dest.id code.toStatus message)

/-- Report a fault. -/
def rejectFault (dest : ReplyTo) (fault : Fault) : Activity κ η Unit :=
  reject dest fault.code fault.message

/-- Report how an operation went. -/
def report (dest : ReplyTo) : Except Fault Bytes → Activity κ η Unit
  | .ok body => respond dest body
  | .error fault => rejectFault dest fault

/-! ## The coordinator -/

/-- Carry out an operation of the coordinator: its events are noted and its answers sent. -/
def operate {α : Type} (f : Coordinator.State ReplyTo → α × Turn ReplyTo) :
    Activity κ η α := do
  let (a, turn) ← Program.update fun s =>
    let (a, turn) := f s.coordinator
    ((a, turn), { s with coordinator := turn.state })
  Program.each Program.note turn.events
  Program.each (fun (dest, answer) => sendResponse dest.endpoint (answer.reply.response dest.id))
    turn.answers
  return a

/-- Carry out an operation of the coordinator that has neither events nor answers. -/
def consult {α : Type} (f : Coordinator.State ReplyTo → α × Coordinator.State ReplyTo) :
    Activity κ η α :=
  Program.update fun s =>
    let (a, coordinator) := f s.coordinator
    (a, { s with coordinator })

/-- Change the state. -/
def change (f : State → State) : Activity κ η Unit := Program.update fun s => ((), f s)

/-- Renew the lease of a session; crashes if the lease would end at no instant. -/
def renew (session : Nat) : Activity κ η (Except Fault Unit) := do
  let now ← Program.now
  match ← consult fun s => s.renew session now with
  | .ok _ => return .ok ()
  | .error (.refused fault) => return .error fault
  | .error (.crashed c) => .crash c

/-- Begin a session; crashes if its lease would end at no instant. -/
def createSession : Activity κ η Nat := do
  let now ← Program.now
  match ← consult fun s => s.createSession now with
  | .ok id => return id
  | .error c => .crash c

/-! ## Commands -/

/-- Carry out a command that acts for a session. -/
def executeFor (dest : ReplyTo) (session : Nat) : Wire.Command → Activity κ η Unit
  | .open name => do
    let r ← consult fun s => s.openHandle session name
    report dest (r.map fun handle => encodeU64 (UInt64.ofNat handle))
  | .close handle => do
    let r ← operate fun s => s.closeHandle session handle.toNat
    report dest (r.map fun _ => [])
  | .lock payload => do
    let _ ← operate fun s => s.dispatch session payload dest
  | .release handle => do
    let r ← operate fun s => s.release session handle.toNat
    report dest (r.map fun _ => [])
  | .cancelLock handle => do
    let any ← operate fun s => s.cancel session handle.toNat
    respond dest [if any then 1 else 0]
  | .closeSession => do
    change fun s => s.unbind dest.endpoint
    let r ← operate fun s => s.closeSession session
    report dest (r.map fun _ => [])
  | _ => respond dest []

/-- Carry out a command; `session` is the one that the connection is bound to and whose lease has
just been renewed. -/
def execute (dest : ReplyTo) (session : Option Nat) : Wire.Command → Activity κ η Unit
  | .openSession => do
    let id ← createSession
    change fun s => s.bind dest.endpoint id
    let config := (← Program.world).config
    respond dest (Wire.SessionGrant.mk (UInt64.ofNat id)
      (UInt64.ofNat (Time.toMillis config.lease))).encode
  | .attachSession id => do
    match ← renew id.toNat with
    | .ok () =>
      change fun s => s.bind dest.endpoint id.toNat
      respond dest []
    | .error fault => rejectFault dest fault
  | .stats => do
    let s ← Program.world
    respond dest (Utf8.encode s.coordinator.snapshot.text)
  | command =>
    match session with
    | some session => executeFor dest session command
    | none => reject dest .sessionExpired "no session bound to this connection"

/-- Carry out a command over the connection it came from.  The lease of the bound session is
renewed first; a binding to a session that has lapsed is forgotten. -/
def onCommand (dest : ReplyTo) (command : Wire.Command) : Activity κ η Unit := do
  match (← Program.world).sessionFor dest.endpoint with
  | none => execute dest none command
  | some session =>
    match ← renew session with
    | .ok () => execute dest (some session) command
    | .error fault =>
      change fun s => s.unbind dest.endpoint
      if command.needsSession then rejectFault dest fault
      else execute dest none command

/-- A frame has come from a client. -/
def onFrame (endpoint : Nat) (payload : Bytes) : Activity κ η Unit :=
  match Wire.Request.decode payload with
  | .error fault => rejectFault ⟨endpoint, 0⟩ fault
  | .ok request =>
    let dest : ReplyTo := ⟨endpoint, request.id⟩
    match Wire.Command.decode request.command request.body with
    | .error fault => rejectFault dest fault
    | .ok none => reject dest .unknownCommand s!"unknown command {request.command}"
    | .ok (some command) => onCommand dest command

/-! ## Leases -/

/-- Schedule the next look for lapsed leases. -/
def scheduleSweep (self : η) : Activity κ η Unit := do
  let s ← Program.world
  let timer ← Program.scheduleAfter s.sweepInterval self
  change fun s => { s with sweepTimer := some timer }

/-- Start looking for lapsed leases. -/
def start (self : η) : Activity κ η Unit := scheduleSweep self

/-- End the sessions whose lease has ended, and forget the bindings to them. -/
def expireSessions (now : Nat) : Activity κ η (List Nat) := do
  let expired ← operate fun s => s.expire now
  change fun s => s.unbindAll expired
  return expired

/-- Look for lapsed leases and schedule the next look. -/
def sweep (self : η) : Activity κ η Unit := do
  let now ← Program.now
  let _ ← expireSessions now
  scheduleSweep self

/-- The handler of the client connections and of the timer. -/
def handle (self : η) : Event → Activity κ η Unit
  | .data endpoint payload => onFrame endpoint payload
  | .state endpoint state =>
    if state.isTerminal then change fun s => s.unbind endpoint else return ()
  | .timer id => do
    if (← Program.world).sweepTimer == some id then
      sweep self

end LeaseLock.Service
