import LeaseLock.Scenario.Loop

/-
  LeaseLock: scripted handlers in the event loop.
  A script names handlers and connections.  A handler carries out its actions on its first calls
  and notes what each answers; it may crash afterwards.  A connection takes frames until it has
  seen so many, and refuses the rest.
-/

namespace LeaseLock.Scenario.Handlers

open Reactor Loop

/-- An operation of such a script. -/
inductive Action where
  /-- Make an endpoint of a connection. -/
  | register (connection handler : String)
  /-- Schedule a timer for an instant. -/
  | scheduleAt (instant : Nat) (handler : String)
  /-- Schedule a timer for a time from now. -/
  | scheduleAfter (delay : Nat) (handler : String)

/-- What a handler does. -/
structure Handler where
  /-- The actions of a call. -/
  actions : List (Op Action)
  /-- The number of calls that carry them out. -/
  times : Nat
  /-- Whether a call crashes in the end. -/
  crashes : Bool

/-- What a connection does. -/
structure Connection where
  /-- The number of frames that it takes, if it does not take all. -/
  refuseAfter : Option Nat
  /-- The address of its peer. -/
  peer : Option Net.Address

/-- The handlers and connections of a script. -/
structure Roles where
  /-- The handlers by their names. -/
  handlers : List (String × Handler)
  /-- The connections by their names. -/
  connections : List (String × Connection)

/-- How often each name has been called. -/
abbrev Calls := List (String × Nat)

/-- The calls of a name so far, and the count after one more. -/
def Calls.next (calls : Calls) (name : String) : Nat × Calls :=
  let n := (calls.lookup name).getD 0
  (n, (name, n + 1) :: calls.filter fun c => c.1 != name)

/-- What an operation of the script's own does. -/
def act : Action → Program (Option String) (Option String) Calls (Value Unit) (Value Unit)
  | .register connection handler =>
    return .number (← Program.register (some connection) (some handler))
  | .scheduleAt instant handler =>
    match Time.ofStart? instant with
    | some deadline => return .number (← Program.schedule deadline (some handler))
    | none => .crash .instantOverflow
  | .scheduleAfter delay handler => return .number (← Program.scheduleAfter delay (some handler))

/-- The address of the peer of a connection. -/
def Roles.peer (r : Roles) (name : String) : Option Net.Address :=
  (r.connections.lookup name).bind (·.peer)

/-- Whether a connection takes a frame, after so many. -/
def Roles.accepts (r : Roles) (name : String) (seen : Nat) : Bool :=
  match (r.connections.lookup name).bind (·.refuseAfter) with
  | some limit => seen < limit
  | none => true

/-- Connections that only count the frames they have seen. -/
def Roles.transmit (r : Roles) (link : Option String) (_ : Nat) (_ : Bytes) (calls : Calls) :
    Bool × List Event × Calls :=
  match link with
  | none => (true, [], calls)
  | some name =>
    let (seen, calls) := calls.next name
    (r.accepts name seen, [], calls)

/-- A stage without handlers, on which the actions of handlers are defined. -/
def Roles.bare (r : Roles) : Stage String String Calls Calls (Value Unit) Unit Action where
  wiring := { handle := fun _ _ => .done (), transmit := r.transmit }
  peer := r.peer
  own := act

/-- What a handler does with an event. -/
def Roles.handle (r : Roles) (handler : Option String) (_ : Event) :
    Program (Option String) (Option String) Calls (Value Unit) Unit := do
  match handler with
  | none => return ()
  | some name =>
    match r.handlers.lookup name with
    | none => return ()
    | some h =>
      let calls ← Program.update fun calls => calls.next name
      if calls < h.times then
        Program.each (fun op => do
          let v ← Op.program r.bare op
          Program.note v) h.actions
      if h.crashes then
        .crash (.raised "scripted")

/-- The stage of a script. -/
def Roles.stage (r : Roles) : Stage String String Calls Calls (Value Unit) Unit Action :=
  { r.bare with wiring := { handle := r.handle, transmit := r.transmit } }

/-- Carry out a script. -/
def run (r : Roles) (script : List (Op Action)) :
    Report String String Calls Calls (Value Unit) Unit :=
  play r.stage [] [] script

/-- The names of connections, in the order of their characters. -/
def sorted (names : List String) : List String := names.mergeSort fun a b => !(b < a)

end LeaseLock.Scenario.Handlers
