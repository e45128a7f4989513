import LeaseLock.Net.Framing
import LeaseLock.Reactor.Machine
import LeaseLock.Service

/-
  LeaseLock: a lock server and its connections.
  Bytes come in over connections, are cut into frames and handled by the lock service in its event
  loop; the frames that the service sends come out, oldest first, and so does the news that a
  connection has ended.  Nothing here waits or reads a clock: whoever drives the server moves it.
-/

namespace LeaseLock

open Reactor

/-- A lock server. -/
structure Server where
  /-- The event loop of the service; its connections keep what is sent over them. -/
  loop : Machine Unit Unit Service.State (List (Nat × Bytes)) Coordinator.LockEvent
  /-- What has come over each connection and is no whole frame yet. -/
  inflows : Table Net.Remainder

namespace Server

/-- What comes out of a server. -/
inductive Output where
  /-- A frame for the other end of a connection. -/
  | frame (endpoint : Nat) (payload : Bytes)
  /-- A connection has ended. -/
  | ended (endpoint : Nat)
deriving DecidableEq, Repr

/-- The service and its connections. -/
def wiring : Wiring Unit Unit Service.State (List (Nat × Bytes)) Coordinator.LockEvent where
  handle := Service.handle
  transmit := fun _ endpoint payload sent => (true, [], sent ++ [(endpoint, payload)])

/-- The rounds that the loop can take at once. -/
def roundLimit : Nat := 1000000

/-- Why a frame, or its beginning, ends a connection. -/
def oversized : LinkState := .failed "frame size too big"

/-- A server without connections, which looks for lapsed leases. -/
def start (config : Coordinator.Config) : Server where
  loop := (Machine.run wiring (Service.start ()) (.start (.empty config) [])).2
  inflows := ∅

/-- Move the clock forward to an instant. -/
def advanceTo (s : Server) (instant : Nat) : Server :=
  { s with loop := { s.loop with clock := max s.loop.clock instant } }

/-- Carry out a program inside the event loop. -/
def inside {α : Type} (s : Server) (p : Program Unit Unit Service.State Coordinator.LockEvent α) :
    Except Crash α × Server :=
  let (r, loop) := s.loop.run wiring p
  (r, { s with loop })

/-- A connection has been made; returns its endpoint. -/
def connect (s : Server) : Nat × Server :=
  let endpoint := s.loop.nextEndpoint
  let (_, s) := s.inside do
    let endpoint ← Program.register () ()
    let _ ← Program.deliver (.state endpoint .established)
  (endpoint, { s with inflows := s.inflows.insert endpoint .start })

/-- A connection ends in this state. -/
def cut (s : Server) (endpoint : Nat) (state : LinkState) : Server :=
  { s with
    loop := (s.loop.deliver (.state endpoint state)).2
    inflows := s.inflows.erase endpoint }

/-- Bytes have come over a connection.  A frame that is too long ends it. -/
def push (s : Server) (endpoint : Nat) (bytes : Bytes) : Server :=
  match s.inflows.get? endpoint with
  | none => s
  | some inflow =>
    let (payloads, inflow) := inflow.feed bytes
    let loop := payloads.foldl (fun m p => (m.deliver (.data endpoint p)).2) s.loop
    let s := { s with loop, inflows := s.inflows.insert endpoint inflow }
    if inflow = .oversized then s.cut endpoint oversized else s

/-- No more bytes will come over a connection. -/
def hangUp (s : Server) (endpoint : Nat) : Server :=
  match s.inflows.get? endpoint with
  | none => s
  | some inflow =>
    s.cut endpoint (if inflow = .start then .closed else .failed "bytes remaining on stream")

/-- Send what the service has sent.  A frame that is too long ends its connection. -/
def flush (s : Server) : List (Nat × Bytes) → List Output × Server
  | [] => ([], s)
  | (endpoint, payload) :: rest =>
    if payload.length ≤ Net.maxPayload then
      let (outputs, s) := s.flush rest
      (.frame endpoint payload :: outputs, s)
    else
      let (outputs, s) := (s.cut endpoint oversized).flush rest
      (.ended endpoint :: outputs, s)

/-- The connections that are open in one state of the server and no longer in another. -/
def lost (before after : Server) : List Output :=
  (before.inflows.keys.filter fun endpoint => !after.inflows.contains endpoint).map .ended

/-- Let the server work until it has nothing to do: what comes out, and the server afterwards. -/
def settle (s : Server) : List Output × Server :=
  let loop := { s.loop with trace := [] }.settle wiring roundLimit
  { s with loop := { loop with links := [] } }.flush loop.links

end Server

end LeaseLock
