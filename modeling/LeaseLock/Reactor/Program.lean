import LeaseLock.Bytes
import LeaseLock.Fault
import LeaseLock.Time

/-
  LeaseLock: what a handler can do.
  The event loop hands events to handlers.  A handler is a `Program`: a tree of requests to the
  loop, each continued by its answer, that ends with a value or crashes.  Programs say what is
  asked and in which order; `Reactor.Machine` says what the answers are.  The parameters are the
  types of connections (`κ`), of handler names (`η`), of what handlers remember (`σ`) and of what
  they write into the trace (`ν`).
-/

namespace LeaseLock.Reactor

/-! ## Events -/

/-- The state of a connection. -/
inductive LinkState where
  /-- It can be used. -/
  | established
  /-- It has ended. -/
  | closed
  /-- It has failed. -/
  | failed (text : String)
deriving DecidableEq, Repr

/-- Whether a connection is of no further use. -/
def LinkState.isTerminal : LinkState → Bool
  | established => false
  | closed | failed _ => true

/-- What a handler can be told. -/
inductive Event where
  /-- A frame has arrived. -/
  | data (endpoint : Nat) (payload : Bytes)
  /-- A connection has changed its state. -/
  | state (endpoint : Nat) (state : LinkState)
  /-- A timer has fired. -/
  | timer (id : Nat)
deriving DecidableEq, Repr

/-! ## Requests -/

/-- A request to the loop. -/
inductive Request (κ η σ ν : Type) where
  /-- Make an endpoint of a connection, served by a handler. -/
  | register (link : κ) (handler : η)
  /-- Give up an endpoint and close its connection. -/
  | deregister (endpoint : Nat)
  /-- The connection of an endpoint. -/
  | link (endpoint : Nat)
  /-- Send a frame through an endpoint. -/
  | send (endpoint : Nat) (frame : Bytes)
  /-- Queue an event. -/
  | deliver (event : Event)
  /-- Schedule a timer. -/
  | schedule (deadline : Nat) (handler : η)
  /-- Cancel a timer. -/
  | cancel (timer : Nat)
  /-- Read the clock. -/
  | now
  /-- Move the clock forward. -/
  | elapse (duration : Nat)
  /-- Ask the loop to end. -/
  | shutdown
  /-- Whether the loop was asked to end. -/
  | isShutdown
  /-- The number of timers that can still fire. -/
  | pendingTimers
  /-- The number of endpoints. -/
  | endpointCount
  /-- Read what handlers remember. -/
  | world
  /-- Replace what handlers remember. -/
  | remember (world : σ)
  /-- Write into the trace. -/
  | note (n : ν)

/-- What became of a frame. -/
inductive Sending (κ : Type) where
  /-- The connection took it. -/
  | taken (link : κ)
  /-- The connection took it, but the loop no longer took the events that this brought about. -/
  | late (link : κ)
  /-- The connection refused it. -/
  | refused (link : κ)
  /-- There is no such endpoint. -/
  | unknown
deriving DecidableEq, Repr

/-- Why sending failed, if it did. -/
def Sending.fault? {κ : Type} : Sending κ → Option Fault
  | .taken _ => none
  | .late _ => some .shutdown
  | .refused _ | .unknown => some .connectionClosed

/-- The type of the answer to a request. -/
def Request.Answer {κ η σ ν : Type} : Request κ η σ ν → Type
  | .register _ _ => Nat
  | .deregister _ => Option κ
  | .link _ => Option κ
  | .send _ _ => Sending κ
  | .deliver _ => Bool
  | .schedule _ _ => Nat
  | .cancel _ => Bool
  | .now => Nat
  | .elapse _ => Option Nat
  | .shutdown => Unit
  | .isShutdown => Bool
  | .pendingTimers => Nat
  | .endpointCount => Nat
  | .world => σ
  | .remember _ => Unit
  | .note _ => Unit

/-! ## Programs -/

/-- A sequence of requests with a result of type `α`. -/
inductive Program (κ η σ ν α : Type) where
  /-- The result. -/
  | done (a : α)
  /-- The end without a result. -/
  | crash (c : Crash)
  /-- A request, and how to go on with its answer. -/
  | ask (request : Request κ η σ ν) (next : request.Answer → Program κ η σ ν α)

namespace Program

variable {κ η σ ν α β : Type}

/-- Go on with the result. -/
def bind : Program κ η σ ν α → (α → Program κ η σ ν β) → Program κ η σ ν β
  | done a, f => f a
  | crash c, _ => crash c
  | ask request next, f => ask request fun answer => (next answer).bind f

instance : Monad (Program κ η σ ν) where
  pure := done
  bind := bind

/-- A single request. -/
def request (r : Request κ η σ ν) : Program κ η σ ν r.Answer := ask r done

/-- Turn a crash into a result. -/
def attempt : Program κ η σ ν α → Program κ η σ ν (Except Crash α)
  | done a => done (.ok a)
  | crash c => done (.error c)
  | ask request next => ask request fun answer => (next answer).attempt

/-! ## The requests as programs -/

/-- Make an endpoint. -/
def register (link : κ) (handler : η) : Program κ η σ ν Nat := request (.register link handler)

/-- Give up an endpoint; tells whether there was one. -/
def deregister (endpoint : Nat) : Program κ η σ ν Bool :=
  ask (.deregister endpoint) fun (closed : Option κ) => done closed.isSome

/-- The connection of an endpoint. -/
def link (endpoint : Nat) : Program κ η σ ν (Option κ) := request (.link endpoint)

/-- Send a frame; tells why that failed, if it did. -/
def send (endpoint : Nat) (frame : Bytes) : Program κ η σ ν (Option Fault) :=
  ask (.send endpoint frame) fun (sending : Sending κ) => done sending.fault?

/-- Queue an event; tells whether the loop still takes events. -/
def deliver (event : Event) : Program κ η σ ν Bool := request (.deliver event)

/-- Schedule a timer for an instant. -/
def schedule (deadline : Nat) (handler : η) : Program κ η σ ν Nat :=
  request (.schedule deadline handler)

/-- Read the clock. -/
def now : Program κ η σ ν Nat := request .now

/-- Schedule a timer for a time from now; crashes if the clock cannot name that instant. -/
def scheduleAfter (delay : Nat) (handler : η) : Program κ η σ ν Nat := do
  let t ← now
  match Time.add? t delay with
  | some deadline => schedule deadline handler
  | none => crash .instantOverflow

/-- Cancel a timer; tells whether it could still fire. -/
def cancel (timer : Nat) : Program κ η σ ν Bool := request (.cancel timer)

/-- Move the clock forward; crashes if it cannot name the new instant. -/
def elapse (duration : Nat) : Program κ η σ ν Nat :=
  ask (.elapse duration) fun
    | some t => done t
    | none => crash .instantOverflow

/-- Ask the loop to end. -/
def shutdown : Program κ η σ ν Unit := request .shutdown

/-- Whether the loop was asked to end. -/
def isShutdown : Program κ η σ ν Bool := request .isShutdown

/-- The number of timers that can still fire. -/
def pendingTimers : Program κ η σ ν Nat := request .pendingTimers

/-- The number of endpoints. -/
def endpointCount : Program κ η σ ν Nat := request .endpointCount

/-- Read what handlers remember. -/
def world : Program κ η σ ν σ := request .world

/-- Replace what handlers remember. -/
def remember (world : σ) : Program κ η σ ν Unit := request (.remember world)

/-- Write into the trace. -/
def note (n : ν) : Program κ η σ ν Unit := request (.note n)

/-- Change what handlers remember and go on with a value computed on the way. -/
def update (f : σ → α × σ) : Program κ η σ ν α := do
  let (a, changed) := f (← world)
  remember changed
  return a

/-- Carry out a program for each element of a list, in order. -/
def each (f : α → Program κ η σ ν Unit) : List α → Program κ η σ ν Unit
  | [] => done ()
  | x :: rest => do
    f x
    each f rest

theorem bind_done (p : Program κ η σ ν α) : p.bind done = p := by
  induction p with
  | done a => rfl
  | crash c => rfl
  | ask request next ih => simp only [bind, ih]

theorem bind_assoc {γ : Type} (p : Program κ η σ ν α) (f : α → Program κ η σ ν β)
    (g : β → Program κ η σ ν γ) : (p.bind f).bind g = p.bind fun a => (f a).bind g := by
  induction p with
  | done a => rfl
  | crash c => rfl
  | ask request next ih => simp only [bind, ih]

end Program

end LeaseLock.Reactor
