import LeaseLock.Scenario.Loop
import LeaseLock.Service

/-
  LeaseLock: scripted runs of the lock service.
  The script connects clients and queues their request frames; the log shows the responses.
-/

namespace LeaseLock.Scenario.Requests

open Reactor Loop LeaseLock.Service

/-- An operation of such a script. -/
inductive Action where
  /-- Start looking for lapsed leases. -/
  | start
  /-- Connect a client, which takes so many frames if it does not take all. -/
  | connect (refuseAfter : Option Nat)
  /-- Queue a request. -/
  | request (endpoint : Nat) (id : UInt32) (command : Wire.Command)
  /-- Hand an event to the service directly. -/
  | handle (event : Event)
  /-- The session that an endpoint is bound to. -/
  | sessionFor (endpoint : Nat)
  /-- The statistics. -/
  | snapshot
  /-- The lock of a handle and the length of its queue. -/
  | state (handle : Nat)

/-- What such an operation answers. -/
inductive Answer where
  /-- A session, if there is one. -/
  | session (id : Option Nat)
  /-- The statistics. -/
  | snapshot (s : Coordinator.Snapshot)
  /-- The lock of a handle and the length of its queue. -/
  | state (lock : Option Coordinator.LockState) (queue : Option Nat)

/-- A client: the number of frames that it takes, if it does not take all. -/
structure Client where
  /-- The number of frames. -/
  refuseAfter : Option Nat

/-- Clients that count the frames they have seen. -/
def transmit (link : Option Client) (endpoint : Nat) (_ : Bytes) (seen : Table Nat) :
    Bool × List Event × Table Nat :=
  match link with
  | none => (true, [], seen)
  | some client =>
    let n := (seen.get? endpoint).getD 0
    (client.refuseAfter.all fun limit => n < limit, [], seen.insert endpoint (n + 1))

/-- What an operation of the script's own does. -/
def act : Action → Activity (Option Client) (Option Unit) (Value Answer)
  | .start => do
    LeaseLock.Service.start (some ())
    return .nothing
  | .connect refuseAfter => do
    let endpoint ← Program.register (some ⟨refuseAfter⟩) (some ())
    return if (← Program.deliver (.state endpoint .established)) then .number endpoint
      else .fault .shutdown
  | .request endpoint id command =>
    return if (← Program.deliver (.data endpoint (command.request id).encode)) then .nothing
      else .fault .shutdown
  | .handle event => do
    LeaseLock.Service.handle (some ()) event
    return .nothing
  | .sessionFor endpoint => return .own (.session ((← Program.world).sessionFor endpoint))
  | .snapshot => return .own (.snapshot (← Program.world).coordinator.snapshot)
  | .state handle => do
    let s ← Program.world
    return .own (.state (s.coordinator.lockState? handle) (s.coordinator.queueLength? handle))

/-- The stage of a script. -/
def stage : Stage Client Unit State (Table Nat) Coordinator.LockEvent Answer Action where
  wiring :=
    { handle := fun
        | some () => LeaseLock.Service.handle (some ())
        | none => fun _ => .done ()
      transmit := transmit }
  peer := fun _ => none
  own := act

/-- Carry out a script. -/
def run (config : Coordinator.Config) (script : List (Op Action)) :
    Report Client Unit State (Table Nat) Coordinator.LockEvent Answer :=
  play stage (.empty config) ∅ script

end LeaseLock.Scenario.Requests
