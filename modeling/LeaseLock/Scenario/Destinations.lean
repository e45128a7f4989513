import LeaseLock.Fanout
import LeaseLock.Scenario.Loop

/-
  LeaseLock: scripted runs of fan-outs.
  The script attaches destinations and scatters to them.  A destination refuses all frames from
  some attempt on, answers all from some attempt on, or stays silent.
-/

namespace LeaseLock.Scenario.Destinations

open Reactor Loop LeaseLock.Fanout

/-- What a destination does with the frames sent to it. -/
structure Behaviour where
  /-- The number of frames that it takes, if it does not take all. -/
  refuseAfter : Option Nat
  /-- The status of its responses, if it responds. -/
  reply : Option UInt32
  /-- The number of frames that it does not respond to at first. -/
  dropFirst : Nat

/-- An operation of such a script. -/
inductive Action where
  /-- Attach a destination. -/
  | attach (behaviour : Behaviour)
  /-- Scatter a command. -/
  | scatter (countdown : Nat) (command : UInt8) (targets : List (Nat × Bytes))
  /-- Queue a response. -/
  | reply (endpoint : Nat) (response : Wire.Response)
  /-- Hand an event to the fan-out directly. -/
  | handle (event : Event)
  /-- Wait for a countdown, without any patience. -/
  | wait (countdown : Nat)

/-- What such an operation answers. -/
inductive Answer where
  /-- A countdown. -/
  | countdown (c : Countdown)
  /-- The verdict of a countdown. -/
  | verdict (v : Except Fault Bool)

/-- What a destination does with a frame: it responds with the frame's own id and body. -/
def Behaviour.transmit (b : Behaviour) (endpoint : Nat) (frame : Bytes) (seen : Nat) :
    Bool × List Event :=
  if b.refuseAfter.any fun limit => limit ≤ seen then (false, [])
  else if seen < b.dropFirst then (true, [])
  else
    match b.reply, Wire.Request.decode frame with
    | some status, .ok request =>
      (true, [.data endpoint (Wire.Response.mk request.id status request.body).encode])
    | _, _ => (true, [])

/-- Destinations that count the frames they have seen. -/
def transmit (link : Option Behaviour) (endpoint : Nat) (frame : Bytes) (seen : Table Nat) :
    Bool × List Event × Table Nat :=
  match link with
  | none => (true, [], seen)
  | some b =>
    let n := (seen.get? endpoint).getD 0
    let (ok, events) := b.transmit endpoint frame n
    (ok, events, seen.insert endpoint (n + 1))

/-- What an operation of the script's own does. -/
def act : Action → Program (Option Behaviour) (Option Unit) State Empty (Value Answer)
  | .attach behaviour => return .number (← Program.register (some behaviour) (some ()))
  | .scatter countdown command targets => do
    LeaseLock.Fanout.scatter (some ()) countdown command targets
    return .own (.countdown ((← Program.world).countdown countdown))
  | .reply endpoint response =>
    return if (← Program.deliver (.data endpoint response.encode)) then .nothing
      else .fault .shutdown
  | .handle event => do
    LeaseLock.Fanout.handle (some ()) event
    return .nothing
  | .wait countdown => do
    let c ← Program.update fun s =>
      let c := s.countdown countdown
      (c, { s with countdowns := s.countdowns.insert countdown c })
    return .own (.verdict c.verdict)

/-- The stage of a script. -/
def stage : Stage Behaviour Unit State (Table Nat) Empty Answer Action where
  wiring :=
    { handle := fun
        | some () => LeaseLock.Fanout.handle (some ())
        | none => fun _ => .done ()
      transmit := transmit }
  peer := fun _ => none
  own := act

/-- Carry out a script. -/
def run (config : Config) (script : List (Op Action)) :
    Report Behaviour Unit State (Table Nat) Empty Answer :=
  play stage (.empty config) ∅ script

end LeaseLock.Scenario.Destinations
