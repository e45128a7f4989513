import LeaseLock.Net.Address
import LeaseLock.Reactor.Machine

/-
  LeaseLock: scripted runs of the event loop.
  The script has an endpoint of its own, number 1, and each of its operations is carried out as if
  inside an event of that endpoint; then the loop runs until it has nothing to do.  Once the loop
  has ended, the operations that are left are carried out on what is left of it.  The operations
  that every script knows are here; scripts add their own.
-/

namespace LeaseLock.Scenario.Loop

open Reactor

/-! ## Operations -/

/-- An operation that every script knows. -/
inductive Common where
  /-- Move the clock forward. -/
  | advance (duration : Nat)
  /-- Read the clock. -/
  | now
  /-- The number of timers that can still fire. -/
  | pendingTimers
  /-- The number of endpoints. -/
  | endpointCount
  /-- Whether the loop was asked to end. -/
  | isShutdown
  /-- Ask the loop to end. -/
  | shutdown
  /-- Queue an event. -/
  | deliver (event : Event)
  /-- Give up an endpoint. -/
  | deregister (endpoint : Nat)
  /-- Send a frame. -/
  | send (endpoint : Nat) (frame : Bytes)
  /-- Cancel a timer. -/
  | cancelTimer (timer : Nat)
  /-- Look at the connection of an endpoint. -/
  | connection (endpoint : Nat)

/-- An operation of a script whose own operations have the type `o`. -/
inductive Op (o : Type) where
  /-- One that every script knows. -/
  | common (op : Common)
  /-- One of this script. -/
  | own (op : o)
  /-- Several, with no round of the loop between them. -/
  | batch (ops : List (Op o))

/-- What an operation answers; `ε` is the type of answers of the script's own. -/
inductive Value (ε : Type) where
  /-- Nothing. -/
  | nothing
  /-- Yes or no. -/
  | flag (b : Bool)
  /-- A count or an id. -/
  | number (n : Nat)
  /-- An instant. -/
  | instant (t : Nat)
  /-- The instants that two readings of the clock give. -/
  | instants (s t : Nat)
  /-- A refusal. -/
  | fault (f : Fault)
  /-- A crash. -/
  | crashed (c : Crash)
  /-- The address of the peer of a connection, if there is a connection and it knows one. -/
  | link (peer : Option (Option Net.Address))
  /-- An answer of the script's own. -/
  | own (x : ε)
  /-- The answers of several operations. -/
  | list (values : List (Value ε))

variable {C H σ τ ν ε o : Type}

/-- What runs in the loop beside the script: connections and handlers, and what the script's own
operations do.  The script's own connection and handler are `none`. -/
structure Stage (C H σ τ ν ε o : Type) where
  /-- Handlers and connections. -/
  wiring : Wiring (Option C) (Option H) σ τ ν
  /-- The address of the peer of a connection. -/
  peer : C → Option Net.Address
  /-- What an operation of the script's own does. -/
  own : o → Program (Option C) (Option H) σ ν (Value ε)

/-- What an operation that every script knows does. -/
def Common.program (peer : C → Option Net.Address) :
    Common → Program (Option C) (Option H) σ ν (Value ε)
  | .advance duration => return .instant (← Program.elapse duration)
  | .now => return .instants (← Program.now) (← Program.now)
  | .pendingTimers => return .number (← Program.pendingTimers)
  | .endpointCount => return .number (← Program.endpointCount)
  | .isShutdown => return .flag (← Program.isShutdown)
  | .shutdown => do
    Program.shutdown
    return .nothing
  | .deliver event =>
    return if (← Program.deliver event) then .nothing else .fault .shutdown
  | .deregister endpoint => return .flag (← Program.deregister endpoint)
  | .send endpoint frame =>
    return ((← Program.send endpoint frame).map .fault).getD .nothing
  | .cancelTimer timer => return .flag (← Program.cancel timer)
  | .connection endpoint =>
    return .link ((← Program.link endpoint).map fun c => c.bind peer)

/-- A crash is an answer like any other. -/
def caught (p : Program (Option C) (Option H) σ ν (Value ε)) :
    Program (Option C) (Option H) σ ν (Value ε) := do
  match ← p.attempt with
  | .ok v => return v
  | .error c => return .crashed c

mutual

/-- What an operation does. -/
def Op.program (s : Stage C H σ τ ν ε o) :
    Op o → Program (Option C) (Option H) σ ν (Value ε)
  | .common op => caught (op.program s.peer)
  | .own op => caught (s.own op)
  | .batch ops => return .list (← programs s ops)

/-- What operations do, one after another. -/
def programs (s : Stage C H σ τ ν ε o) :
    List (Op o) → Program (Option C) (Option H) σ ν (List (Value ε))
  | [] => return []
  | op :: rest => do
    let v ← op.program s
    let vs ← programs s rest
    return v :: vs

end

/-! ## The log -/

/-- A line of the log. -/
inductive Line (C H ν : Type) where
  /-- A handler was told of an event. -/
  | invoked (handler : H) (event : Event)
  /-- A connection took a frame. -/
  | sent (link : C) (endpoint : Nat) (frame : Bytes)
  /-- A connection refused a frame. -/
  | refused (link : C) (endpoint : Nat) (frame : Bytes)
  /-- A connection was closed. -/
  | closed (link : C) (endpoint : Nat)
  /-- A handler's note. -/
  | noted (n : ν)

/-- What the log says of an entry of the trace. -/
def line? : Entry (Option C) (Option H) σ ν → Option (Line C H ν)
  | .invoked (some h) event => some (.invoked h event)
  | .asked (.send endpoint frame) (.taken (some c))
  | .asked (.send endpoint frame) (.late (some c)) => some (.sent c endpoint frame)
  | .asked (.send endpoint frame) (.refused (some c)) => some (.refused c endpoint frame)
  | .asked (.deregister endpoint) (some (some c)) => some (.closed c endpoint)
  | .asked (.note n) _ => some (.noted n)
  | .closed endpoint (some c) => some (.closed c endpoint)
  | _ => none

/-- Whether an entry of the trace asks the loop to end. -/
def asksToEnd : Entry (Option C) (Option H) σ ν → Bool
  | .asked .shutdown _ => true
  | _ => false

/-- Sort the entries of a trace into lines of the log and connections closed after the loop was
asked to end; `ending` tells whether it was asked before. -/
def sift : Bool → List (Entry (Option C) (Option H) σ ν) →
    List (Line C H ν) × List (C × Nat) × Bool
  | ending, [] => ([], [], ending)
  | ending, e :: rest =>
    let (lines, late, final) := sift (ending || asksToEnd e) rest
    match line? e with
    | none => (lines, late, final)
    | some (.closed c endpoint) =>
      if ending then (lines, (c, endpoint) :: late, final)
      else (.closed c endpoint :: lines, late, final)
    | some l => (l :: lines, late, final)

/-! ## Runs -/

/-- What a step of a run leaves behind. -/
structure Row (C H σ τ ν ε : Type) where
  /-- The answer of the operation. -/
  value : Value ε
  /-- The log of the step. -/
  log : List (Line C H ν)
  /-- The loop after the step. -/
  machine : Machine (Option C) (Option H) σ τ ν

/-- What a run leaves behind. -/
structure Report (C H σ τ ν ε : Type) where
  /-- Its steps. -/
  rows : List (Row C H σ τ ν ε)
  /-- The connections closed after the loop was asked to end. -/
  late : List (C × Nat)
  /-- The loop at the end. -/
  machine : Machine (Option C) (Option H) σ τ ν

/-- The rounds that a step can take.  A script whose timers always rearm themselves at once would
take more than any number. -/
def roundLimit : Nat := 1000000

/-- The loop with nothing but the script's own endpoint. -/
def opening (world : σ) (links : τ) : Machine (Option C) (Option H) σ τ ν :=
  let m : Machine (Option C) (Option H) σ τ ν := .start world links
  { m with endpoints := m.endpoints.insert 1 ⟨none, none⟩, nextEndpoint := 2 }

/-- Carry out a program and let the loop run until it has nothing to do.  The trace afterwards is
that of this step. -/
def step {α : Type} (s : Stage C H σ τ ν ε o) (m : Machine (Option C) (Option H) σ τ ν)
    (p : Program (Option C) (Option H) σ ν α) :
    Except Crash α × Machine (Option C) (Option H) σ τ ν :=
  let (r, m) := { m with trace := [] }.run s.wiring p
  (r, m.settle s.wiring roundLimit)

/-- Carry out the operations of a script. -/
def steps (s : Stage C H σ τ ν ε o) :
    Bool → Machine (Option C) (Option H) σ τ ν → List (Op o) → Report C H σ τ ν ε
  | ending, m, [] =>
    let (_, m) := step s m Program.shutdown
    let (_, late, _) := sift ending m.trace.reverse
    ⟨[], late, m⟩
  | ending, m, op :: rest =>
    let (r, m) := step s m (op.program s)
    let (log, late, ending) := sift ending m.trace.reverse
    let value := match r with
      | .ok v => v
      | .error c => .crashed c
    let report := steps s ending m rest
    ⟨⟨value, log, m⟩ :: report.rows, late ++ report.late, report.machine⟩

/-- Carry out a script from the start. -/
def play (s : Stage C H σ τ ν ε o) (world : σ) (links : τ) (script : List (Op o)) :
    Report C H σ τ ν ε :=
  steps s false (opening world links) script

end LeaseLock.Scenario.Loop
