import LeaseLock.Countdown
import LeaseLock.Reactor.Program
import LeaseLock.Table
import LeaseLock.Wire.Frame

/-
  LeaseLock: one request to many destinations.
  A fan-out arms a countdown with the number of its targets and sends each of them a request frame
  with an id of its own.  A sub-request stays pending, with one timer, until a response with its id
  comes from its endpoint, its timer has fired more often than it may be sent again, a send fails,
  or its endpoint ends.  Then its token is used up: the task is counted as done, and as failed
  unless the response was a success.
-/

namespace LeaseLock.Fanout

open Reactor

/-! ## State -/

/-- How sub-requests are sent. -/
structure Config where
  /-- The time to wait for a response before sending again. -/
  timeout : Nat
  /-- How often a sub-request may be sent again. -/
  maxRetries : Nat
deriving DecidableEq, Repr

/-- Two seconds, and two more attempts. -/
def Config.default : Config := ⟨Time.ofSeconds 2, 2⟩

/-- The task of a countdown that a sub-request stands for. -/
structure Token where
  /-- The countdown. -/
  countdown : Nat
  /-- The arming to which the task belongs. -/
  epoch : UInt64
deriving DecidableEq, Repr

/-- How the task of a sub-request ends. -/
inductive Outcome where
  /-- Its response has come. -/
  | answered (failed : Bool)
  /-- It has waited too often. -/
  | lapsed
  /-- It could not be sent, or its endpoint has ended. -/
  | lost
deriving DecidableEq, Repr

/-- Everything but a successful response is a failure. -/
def Outcome.isFailure : Outcome → Bool
  | answered failed => failed
  | lapsed | lost => true

/-- A sub-request without a response. -/
structure Pending where
  /-- Where it was sent. -/
  endpoint : Nat
  /-- What was sent. -/
  frame : Bytes
  /-- How often it was sent again. -/
  retries : Nat
  /-- The timer that ends the wait. -/
  timer : Nat
  /-- Its task. -/
  token : Token
deriving DecidableEq, Repr

/-- Counts of what has happened since the start. -/
structure Stats where
  /-- Sub-requests begun. -/
  sent : Nat
  /-- Responses that ended a sub-request. -/
  replies : Nat
  /-- Frames sent again. -/
  retries : Nat
  /-- Sub-requests that were given up for want of a response. -/
  timeouts : Nat
  /-- Sub-requests that ended without a response. -/
  failures : Nat
deriving DecidableEq, Repr

/-- The pending sub-requests, and the countdowns that they complete. -/
structure State where
  /-- How sub-requests are sent. -/
  config : Config
  /-- The pending sub-requests by their ids. -/
  pending : Table Pending
  /-- The id of the sub-request that a timer belongs to. -/
  byTimer : Table Nat
  /-- The id of the next sub-request; ids start over after the last one of 32 bits. -/
  nextId : UInt32
  /-- What has happened so far. -/
  stats : Stats
  /-- The countdowns. -/
  countdowns : Table Countdown

namespace State

/-- Nothing pending and no countdowns; ids start at 1. -/
def empty (config : Config) : State := ⟨config, ∅, ∅, 1, ⟨0, 0, 0, 0, 0⟩, ∅⟩

/-- The number of pending sub-requests. -/
def inFlight (s : State) : Nat := s.pending.size

/-- A countdown; one that was never mentioned is idle. -/
def countdown (s : State) (name : Nat) : Countdown := (s.countdowns.get? name).getD .idle

/-- Count a sub-request that has begun. -/
def countSent (s : State) : State := { s with stats := { s.stats with sent := s.stats.sent + 1 } }

/-- Count how a sub-request has ended. -/
def countEnd (s : State) : Outcome → State
  | .answered _ => { s with stats := { s.stats with replies := s.stats.replies + 1 } }
  | .lapsed =>
    { s with
      stats := { s.stats with
        timeouts := s.stats.timeouts + 1
        failures := s.stats.failures + 1 } }
  | .lost => { s with stats := { s.stats with failures := s.stats.failures + 1 } }

/-- Arm a countdown; returns the token of its tasks. -/
def arm (s : State) (name tasks : Nat) : Token × State :=
  let c := (s.countdown name).arm tasks
  (⟨name, c.epoch⟩, { s with countdowns := s.countdowns.insert name c })

/-- Complete a task. -/
def complete (s : State) (token : Token) (failed : Bool) : State :=
  { s with
    countdowns := s.countdowns.modify token.countdown fun c => (c.complete token.epoch failed).2 }

/-- Give up several tasks of one token. -/
def abandon (s : State) (token : Token) : Nat → State
  | 0 => s
  | n + 1 => (s.complete token true).abandon token n

/-- Note that a task was retried. -/
def markRetried (s : State) (token : Token) : State :=
  { s with countdowns := s.countdowns.modify token.countdown fun c => c.retried token.epoch }

/-- Use up an id. -/
def takeId (s : State) : UInt32 × State := (s.nextId, { s with nextId := s.nextId + 1 })

/-- Enter a sub-request.  One that was pending under the same id is given up. -/
def enter (s : State) (id : Nat) (p : Pending) : State :=
  let displaced := s.pending.get? id
  let s := { s with
    byTimer := s.byTimer.insert p.timer id
    pending := s.pending.insert id p }
  match displaced with
  | some old => s.complete old.token true
  | none => s

/-- Take a sub-request out. -/
def take (s : State) (id : Nat) : Option Pending × State :=
  match s.pending.get? id with
  | none => (none, s)
  | some p =>
    (some p, { s with pending := s.pending.erase id, byTimer := s.byTimer.erase p.timer })

/-- Take a sub-request out if it was sent to this endpoint. -/
def takeFrom (s : State) (endpoint id : Nat) : Option Pending × State :=
  match s.pending.get? id with
  | some p => if p.endpoint = endpoint then s.take id else (none, s)
  | none => (none, s)

/-- Take out every sub-request that was sent to this endpoint; returns them with their ids. -/
def takeAllFrom (s : State) (endpoint : Nat) : List (Nat × Pending) × State :=
  let taken := s.pending.filter fun _ p => p.endpoint == endpoint
  (taken.entries, taken.keys.foldl (fun s id => (s.take id).2) s)

/-- What a timer that has fired means. -/
inductive Expiry where
  /-- Nothing: no sub-request waits for it. -/
  | stray
  /-- The sub-request may be sent again. -/
  | again (id : Nat)
  /-- The sub-request has been sent as often as it may. -/
  | exhausted (id : Nat)

/-- Forget a timer that has fired; tells what it means. -/
def expire (s : State) (timer : Nat) : Expiry × State :=
  match s.byTimer.get? timer with
  | none => (.stray, s)
  | some id =>
    let s := { s with byTimer := s.byTimer.erase timer }
    match s.pending.get? id with
    | none => (.stray, s)
    | some p => (if s.config.maxRetries ≤ p.retries then .exhausted id else .again id, s)

/-- Count one more attempt of a sub-request, which waits for a new timer; returns it. -/
def rearm (s : State) (id timer : Nat) : Option Pending × State :=
  let s := { s with byTimer := s.byTimer.insert timer id }
  match s.pending.get? id with
  | none => (none, s)
  | some p =>
    let p := { p with timer, retries := p.retries + 1 }
    let s := { s with
      pending := s.pending.insert id p
      stats := { s.stats with retries := s.stats.retries + 1 } }
    (some p, s.markRetried p.token)

end State

/-! ## Programs -/

variable {κ η ν : Type}

/-- What the fan-out does in the event loop. -/
abbrev Activity (κ η ν α : Type) := Program κ η State ν α

/-- Change the state. -/
def change (f : State → State) : Activity κ η ν Unit := Program.update fun s => ((), f s)

/-- End a sub-request that was taken out: count how it has ended, then complete its task. -/
def settle (token : Token) (outcome : Outcome) : Activity κ η ν Unit := do
  change fun s => s.countEnd outcome
  change fun s => s.complete token outcome.isFailure

/-- End a sub-request that was taken out before its timer has fired. -/
def stop (p : Pending) (outcome : Outcome) : Activity κ η ν Unit := do
  let _ ← Program.cancel p.timer
  settle p.token outcome

/-- End a sub-request whose frame could not be sent. -/
def giveUp (id : Nat) : Activity κ η ν Unit := do
  match ← Program.update fun s => s.take id with
  | none => return ()
  | some p => stop p .lost

/-- Send each target its sub-request.  The timer runs before the frame is sent.  A crash on the way
gives up the targets that are left. -/
def launch (self : η) (command : UInt8) (token : Token) :
    List (Nat × Bytes) → Activity κ η ν Unit
  | [] => return ()
  | (endpoint, body) :: rest => do
    let id ← Program.update State.takeId
    let frame := (Wire.Request.mk id command body).encode
    let config := (← Program.world).config
    match ← (Program.scheduleAfter config.timeout self).attempt with
    | .error c =>
      change fun s => s.abandon token (rest.length + 1)
      .crash c
    | .ok timer =>
      change fun s => s.enter id.toNat ⟨endpoint, frame, 0, timer, token⟩
      change fun s => s.countSent
      if (← Program.send endpoint frame).isSome then
        giveUp id.toNat
      launch self command token rest

/-- Send a command to every target, each with a body of its own, and arm the countdown with their
number. -/
def scatter (self : η) (countdown : Nat) (command : UInt8) (targets : List (Nat × Bytes)) :
    Activity κ η ν Unit := do
  let token ← Program.update fun s => s.arm countdown targets.length
  launch self command token targets

/-- A frame has come from an endpoint. -/
def onReply (endpoint : Nat) (payload : Bytes) : Activity κ η ν Unit := do
  match Wire.Response.decode payload with
  | .error _ => return ()
  | .ok response =>
    match ← Program.update fun s => s.takeFrom endpoint response.id.toNat with
    | none => return ()
    | some p => stop p (.answered response.isError)

/-- A timer has fired. -/
def onTimer (self : η) (timer : Nat) : Activity κ η ν Unit := do
  match ← Program.update fun s => s.expire timer with
  | .stray => return ()
  | .exhausted id =>
    match ← Program.update fun s => s.take id with
    | none => return ()
    | some p => settle p.token .lapsed
  | .again id =>
    let config := (← Program.world).config
    let timer ← Program.scheduleAfter config.timeout self
    match ← Program.update fun s => s.rearm id timer with
    | none => return ()
    | some p =>
      if (← Program.send p.endpoint p.frame).isSome then
        giveUp id

/-- An endpoint has ended. -/
def onClosed (endpoint : Nat) : Activity κ η ν Unit := do
  let failed ← Program.update fun s => s.takeAllFrom endpoint
  Program.each (fun (_, p) => stop p .lost) failed

/-- The handler of the destinations and of the timers. -/
def handle (self : η) : Event → Activity κ η ν Unit
  | .data endpoint payload => onReply endpoint payload
  | .timer id => onTimer self id
  | .state endpoint state => if state.isTerminal then onClosed endpoint else return ()

end LeaseLock.Fanout
