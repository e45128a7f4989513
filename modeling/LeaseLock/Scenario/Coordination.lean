import LeaseLock.Broadcast
import LeaseLock.Coordinator.Operation
import LeaseLock.Coordinator.Reply
import LeaseLock.Coordinator.Snapshot

/-
  LeaseLock: scripted runs of the coordinator.
  A script is a list of actions.  A lock request may carry actions of its own, which are carried
  out as soon as the request is answered, in the middle of whatever operation answers it.  The
  events of that operation have been published by then.  The run keeps a log of the events that an
  observer sees and of the answers, in the order of their delivery.
-/

namespace LeaseLock.Scenario.Coordination

open Coordinator

/-! ## Scripts -/

/-- A question that changes nothing but the position of a reader. -/
inductive Query where
  /-- A new reader of the events. -/
  | subscribe
  /-- What a reader finds. -/
  | events (reader : Nat)
  /-- The lock of a handle and the length of its queue. -/
  | state (handle : Nat)
  /-- The number of sessions. -/
  | sessionCount
  /-- The statistics. -/
  | snapshot
  /-- The settings. -/
  | config

/-- A step of a script; `τ` is the type of the names of requests. -/
inductive Action (τ : Type) where
  /-- An operation of the coordinator, and what to do when its request is answered. -/
  | operate (op : Operation τ) (onAnswer : List (Action τ))
  /-- A question. -/
  | ask (query : Query)

mutual

/-- The number of actions in an action, itself included. -/
def Action.count {τ : Type} : Action τ → Nat
  | .operate _ onAnswer => 1 + countAll onAnswer
  | .ask _ => 1

/-- The number of actions in a script. -/
def countAll {τ : Type} : List (Action τ) → Nat
  | [] => 0
  | t :: rest => t.count + countAll rest

end

/-- Where the answer to a request goes: its name, and the actions that wait for it. -/
structure Callback (τ : Type) where
  /-- The name of the request. -/
  tag : τ
  /-- The actions that wait for the answer. -/
  onAnswer : List (Action τ)

/-- What an action answers. -/
inductive Outcome where
  /-- The result of an operation. -/
  | result (r : Result)
  /-- The position of a new reader in the list of readers. -/
  | reader (index : Nat)
  /-- What a reader found, `none` if there is no such reader. -/
  | events (found : Option (List (Delivery LockEvent)))
  /-- The lock of a handle and the length of its queue. -/
  | state (lock : Option LockState) (queue : Option Nat)
  /-- The number of sessions. -/
  | sessionCount (n : Nat)
  /-- The statistics. -/
  | snapshot (s : Snapshot)
  /-- The settings. -/
  | config (c : Config)
  /-- The action did not take place. -/
  | crashed (c : Crash)
  /-- The action was not carried out. -/
  | skipped

/-- An entry of the log. -/
inductive Entry (τ : Type) where
  /-- What the observer found. -/
  | observed (d : Delivery LockEvent)
  /-- The answer to a request. -/
  | answered (tag : τ) (a : Answer)
  /-- What an action that had waited for an answer answers itself. -/
  | nested (o : Outcome)

/-- Whether the clock can name the instant of an operation. -/
def nameable {ρ : Type} : Operation ρ → Bool
  | .createSession now | .renew _ now | .expire now => now < Time.limit
  | _ => true

/-! ## Runs -/

/-- A run under way. -/
structure Run (τ : Type) where
  /-- The settings. -/
  config : Config
  /-- The coordinator. -/
  state : State (Callback τ)
  /-- The stream of events. -/
  stream : Broadcast LockEvent
  /-- The positions of the readers that the script has made. -/
  readers : List Nat
  /-- The position of the observer, if there is one. -/
  observer : Option Nat
  /-- The log of the action under way, newest entry first. -/
  log : List (Entry τ)

namespace Run

variable {τ : Type}

/-- A run at its start. -/
def start (config : Config) (observed : Bool) : Run τ where
  config := config
  state := .empty config.lease
  stream := .empty config.eventCapacity
  readers := []
  observer := if observed then some 0 else none
  log := []

/-- Write down what the observer finds. -/
def observe (r : Run τ) : Run τ :=
  match r.observer with
  | none => r
  | some position =>
    let (found, position) := r.stream.receive position
    { r with
      observer := some position
      log := (found.map Entry.observed).reverse ++ r.log }

/-- Add to the log what the observer finds and then an entry. -/
def note (r : Run τ) (e : Entry τ) : Run τ :=
  let r := r.observe
  { r with log := e :: r.log }

/-- Answer a question. -/
def ask (r : Run τ) : Query → Outcome × Run τ
  | .subscribe =>
    (.reader r.readers.length, { r with readers := r.readers ++ [r.stream.sent] })
  | .events reader =>
    match r.readers[reader]? with
    | none => (.events none, r)
    | some position =>
      let (found, position) := r.stream.receive position
      (.events (some found), { r with readers := r.readers.set reader position })
  | .state handle => (.state (r.state.lockState? handle) (r.state.queueLength? handle), r)
  | .sessionCount => (.sessionCount r.state.sessions.size, r)
  | .snapshot => (.snapshot r.state.snapshot, r)
  | .config => (.config r.config, r)

/-- Carry out an action.  The events of an operation are published first; then its answers go out
one after another, and after each the actions that waited for it are carried out, to their end,
before the next.  `fuel` bounds how deep actions can nest. -/
def carryOut : Nat → Run τ → Action τ → Outcome × Run τ
  | _, r, .ask query => r.ask query
  | 0, r, .operate _ _ => (.skipped, r)
  | fuel + 1, r, .operate op onAnswer =>
    if nameable op then
      let (result, turn) := r.state.perform (op.mapReply fun tag => Callback.mk tag onAnswer)
      let r := { r with state := turn.state, stream := r.stream.sendAll turn.events }
      let r := turn.answers.foldl (fun r (callback, a) =>
        callback.onAnswer.foldl (fun r action =>
          let (o, r) := carryOut fuel r action
          r.note (.nested o)) (r.note (.answered callback.tag a))) r
      (.result result, r)
    else (.crashed .instantOverflow, r)

/-- Carry out an action of the script itself; returns its outcome and its log. -/
def step (fuel : Nat) (r : Run τ) (action : Action τ) : (Outcome × List (Entry τ)) × Run τ :=
  let (o, r) := carryOut fuel r action
  let r := r.observe
  ((o, r.log.reverse), { r with log := [] })

/-- Carry out the actions of a script in order. -/
def steps (fuel : Nat) : Run τ → List (Action τ) → List (Outcome × List (Entry τ)) × Run τ
  | r, [] => ([], r)
  | r, action :: rest =>
    let (o, r) := step fuel r action
    let (os, r) := steps fuel r rest
    (o :: os, r)

end Run

/-- Carry out a script.  No action runs inside more actions than the script has, so that many levels
are enough. -/
def run {τ : Type} (start : Run τ) (script : List (Action τ)) :
    List (Outcome × List (Entry τ)) × Run τ :=
  start.steps (countAll script) script

end LeaseLock.Scenario.Coordination
