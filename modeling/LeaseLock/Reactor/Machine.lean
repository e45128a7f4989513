import LeaseLock.Reactor.Program
import LeaseLock.TimerQueue

/-
  LeaseLock: the event loop.
  The loop fires the timers that are due, takes one signal off its queue, hands the event in it to
  the handler of its endpoint, and starts again.  All timers that are due at once are taken out of
  the timer queue before the first of them is handed over.  A terminal state removes its endpoint
  before the handler is told.  Once it was asked to end, the loop finishes the round it is in,
  closes all connections and forgets its timers.  A crash of a handler ends that handler's call and
  no more.
  The trace keeps every request with its answer and every event that was handed to a handler.
-/

namespace LeaseLock.Reactor

/-! ## Machines -/

/-- A registered connection. -/
structure Endpoint (κ η : Type) where
  /-- The connection. -/
  link : κ
  /-- The handler of its events. -/
  handler : η
deriving DecidableEq, Repr

/-- What stands in the queue of the loop. -/
inductive Signal where
  /-- An event to hand over. -/
  | event (e : Event)
  /-- A call to look at the timers again. -/
  | wake
deriving DecidableEq, Repr

/-- How far the loop is. -/
inductive Phase where
  /-- It takes events. -/
  | running
  /-- It was asked to end. -/
  | stopping
  /-- It has ended. -/
  | stopped
deriving DecidableEq, Repr

/-- An entry of the trace. -/
inductive Entry (κ η σ ν : Type) where
  /-- A request and its answer. -/
  | asked (request : Request κ η σ ν) (answer : request.Answer)
  /-- An event was handed to a handler. -/
  | invoked (handler : η) (event : Event)
  /-- A connection was closed at the end of the loop. -/
  | closed (endpoint : Nat) (link : κ)

/-- What takes part beside the loop: handlers, and connections with a state of type `τ`. -/
structure Wiring (κ η σ τ ν : Type) where
  /-- What a handler does with an event. -/
  handle : η → Event → Program κ η σ ν Unit
  /-- Whether a connection takes a frame that is sent through an endpoint, and the events that
  this brings about. -/
  transmit : κ → Nat → Bytes → τ → Bool × List Event × τ

/-- The event loop with what handlers and connections remember. -/
structure Machine (κ η σ τ ν : Type) where
  /-- What the clock shows. -/
  clock : Nat
  /-- The endpoints by their ids. -/
  endpoints : Table (Endpoint κ η)
  /-- The id of the next endpoint. -/
  nextEndpoint : Nat
  /-- The timers, each with its handler. -/
  timers : TimerQueue η
  /-- The signals that have not been taken, oldest first. -/
  queue : List Signal
  /-- How far the loop is. -/
  phase : Phase
  /-- What handlers remember. -/
  world : σ
  /-- What connections remember. -/
  links : τ
  /-- What has happened, newest entry first. -/
  trace : List (Entry κ η σ ν)

namespace Machine

variable {κ η σ τ ν α : Type}

/-- A loop without endpoints and timers, at the start of the clock. -/
def start (world : σ) (links : τ) : Machine κ η σ τ ν where
  clock := 0
  endpoints := ∅
  nextEndpoint := 1
  timers := .empty
  queue := []
  phase := .running
  world := world
  links := links
  trace := []

/-- Add to the trace. -/
def record (m : Machine κ η σ τ ν) (e : Entry κ η σ ν) : Machine κ η σ τ ν :=
  { m with trace := e :: m.trace }

/-- Queue a signal. -/
def signal (m : Machine κ η σ τ ν) (s : Signal) : Machine κ η σ τ ν :=
  { m with queue := m.queue ++ [s] }

/-- Queue an event, unless the loop was asked to end. -/
def deliver (m : Machine κ η σ τ ν) (e : Event) : Bool × Machine κ η σ τ ν :=
  match m.phase with
  | .running => (true, m.signal (.event e))
  | _ => (false, m)

/-- Queue events in order; tells whether the loop takes them. -/
def deliverAll (m : Machine κ η σ τ ν) : List Event → Bool × Machine κ η σ τ ν
  | [] => (true, m)
  | e :: rest =>
    let (taken, m) := m.deliver e
    let (others, m) := deliverAll m rest
    (taken && others, m)

/-- Send a frame through an endpoint. -/
def send (w : Wiring κ η σ τ ν) (m : Machine κ η σ τ ν) (endpoint : Nat) (frame : Bytes) :
    Sending κ × Machine κ η σ τ ν :=
  match m.endpoints.get? endpoint with
  | none => (.unknown, m)
  | some e =>
    let (ok, events, links) := w.transmit e.link endpoint frame m.links
    let (queued, m) := { m with links }.deliverAll events
    (if !ok then .refused e.link else if queued then .taken e.link else .late e.link, m)

/-- Schedule a timer.  One that becomes the earliest wakes the loop. -/
def schedule (m : Machine κ η σ τ ν) (deadline : Nat) (handler : η) :
    Nat × Machine κ η σ τ ν :=
  let (earliest, timers) := m.timers.nextDeadline
  let (id, timers) := timers.schedule deadline handler
  let m := { m with timers }
  (id, if earliest.all fun d => deadline < d then m.signal .wake else m)

/-- Ask the loop to end. -/
def shutdown (m : Machine κ η σ τ ν) : Machine κ η σ τ ν :=
  { m with phase := match m.phase with
      | .running => .stopping
      | p => p }.signal .wake

/-- Answer a request. -/
def answer (w : Wiring κ η σ τ ν) (m : Machine κ η σ τ ν) :
    (r : Request κ η σ ν) → r.Answer × Machine κ η σ τ ν
  | .register link handler =>
    (m.nextEndpoint, { m with
      endpoints := m.endpoints.insert m.nextEndpoint ⟨link, handler⟩
      nextEndpoint := m.nextEndpoint + 1 })
  | .deregister endpoint =>
    ((m.endpoints.get? endpoint).map (·.link),
      { m with endpoints := m.endpoints.erase endpoint })
  | .link endpoint => ((m.endpoints.get? endpoint).map (·.link), m)
  | .send endpoint frame => m.send w endpoint frame
  | .deliver event => m.deliver event
  | .schedule deadline handler => m.schedule deadline handler
  | .cancel timer =>
    let (cancelled, timers) := m.timers.cancel timer
    (cancelled, { m with timers })
  | .now => (m.clock, m)
  | .elapse duration =>
    match Time.add? m.clock duration with
    | some clock => (some clock, { m with clock })
    | none => (none, m)
  | .shutdown => ((), m.shutdown)
  | .isShutdown => (m.phase != .running, m)
  | .pendingTimers => (m.timers.size, m)
  | .endpointCount => (m.endpoints.size, m)
  | .world => (m.world, m)
  | .remember world => ((), { m with world })
  | .note _ => ((), m)

/-- Answer a request and add both to the trace. -/
def perform (w : Wiring κ η σ τ ν) (m : Machine κ η σ τ ν) (r : Request κ η σ ν) :
    r.Answer × Machine κ η σ τ ν :=
  let (a, m) := m.answer w r
  (a, m.record (.asked r a))

/-- Carry out a program. -/
def run (w : Wiring κ η σ τ ν) : Program κ η σ ν α → Machine κ η σ τ ν →
    Except Crash α × Machine κ η σ τ ν
  | .done a, m => (.ok a, m)
  | .crash c, m => (.error c, m)
  | .ask r next, m =>
    let (a, m) := m.perform w r
    run w (next a) m

/-! ## The loop -/

/-- Hand an event to a handler; a crash ends the call. -/
def invoke (w : Wiring κ η σ τ ν) (m : Machine κ η σ τ ν) (handler : η) (event : Event) :
    Machine κ η σ τ ν :=
  (run w (w.handle handler event) (m.record (.invoked handler event))).2

/-- Fire the timers that are due, in the order of their deadlines. -/
def fire (w : Wiring κ η σ τ ν) (m : Machine κ η σ τ ν) : Machine κ η σ τ ν :=
  let (due, timers) := m.timers.popDue m.clock
  due.foldl (fun m (id, handler) => m.invoke w handler (.timer id)) { m with timers }

/-- Hand an event to the handler of its endpoint.  Events of unknown endpoints are dropped, and so
are timer events, which do not come through the queue. -/
def dispatch (w : Wiring κ η σ τ ν) (m : Machine κ η σ τ ν) (event : Event) :
    Machine κ η σ τ ν :=
  match event with
  | .timer _ => m
  | .data endpoint _ =>
    match m.endpoints.get? endpoint with
    | some e => m.invoke w e.handler event
    | none => m
  | .state endpoint state =>
    match m.endpoints.get? endpoint with
    | some e =>
      let m := if state.isTerminal then { m with endpoints := m.endpoints.erase endpoint } else m
      m.invoke w e.handler event
    | none => m

/-- Take a signal off the queue. -/
def takeSignal (w : Wiring κ η σ τ ν) (m : Machine κ η σ τ ν) : Machine κ η σ τ ν :=
  match m.queue with
  | [] => m
  | .wake :: rest => { m with queue := rest }
  | .event e :: rest => { m with queue := rest }.dispatch w e

/-- One round of the loop. -/
def round (w : Wiring κ η σ τ ν) (m : Machine κ η σ τ ν) : Machine κ η σ τ ν :=
  (m.fire w).takeSignal w

/-- Whether the loop has nothing to do until the clock moves. -/
def isQuiet (m : Machine κ η σ τ ν) : Bool := m.queue.isEmpty && !m.timers.anyDue m.clock

/-- The end of the loop: all connections are closed, all endpoints and timers forgotten. -/
def finish (m : Machine κ η σ τ ν) : Machine κ η σ τ ν :=
  m.endpoints.entries.foldl (fun m (id, e) => m.record (.closed id e.link))
    { m with endpoints := ∅, timers := .empty, queue := [], phase := .stopped }

/-- Let the loop run until it has nothing to do, for at most so many rounds. -/
def settle (w : Wiring κ η σ τ ν) : Nat → Machine κ η σ τ ν → Machine κ η σ τ ν
  | 0, m => m
  | rounds + 1, m =>
    match m.phase with
    | .stopped => m
    | .stopping => m.finish
    | .running => if m.isQuiet then m else settle w rounds (m.round w)

end Machine

end LeaseLock.Reactor
