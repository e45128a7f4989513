import LeaseLock.Proofs.Service.Gentle

/-
  LeaseLock: the service at work beside its own start.
  The service is started beside a loop that runs, and the clock moves while it works; so both its
  start and what the loop hands to it are taken pace by pace.  A `Scene` is the loop with the handler
  that works in it and what the start still has to do, and `Watched` says how scenes follow one
  another.  Others who use the loop may schedule and cancel other timers, move the clock on and carry
  out operations of the coordinator.
-/

namespace LeaseLock.Service

open Reactor Coordinator

variable {κ η τ : Type} {w : Wiring κ η State τ LockEvent} {me : η} {m : Loop κ η τ}
  {id deadline : Nat}

/-! ## A look for lapsed leases -/

/-- Store the id of the timer. -/
def store (timer : Nat) : Activity κ η Unit := change fun s => { s with sweepTimer := some timer }

/-- Schedule the timer by this deadline, if there is one. -/
def timerBy (me : η) : Option Nat → Activity κ η Nat
  | some deadline => Program.schedule deadline me
  | none => .crash .instantOverflow

/-- What is left of `scheduleSweep` when the interval is known. -/
def planning (me : η) (interval : Nat) : Activity κ η Unit := do
  let timer ← Program.scheduleAfter interval me
  store timer

/-- What is left of `scheduleSweep` when the deadline is known. -/
def booking (me : η) (deadline : Nat) : Activity κ η Unit := do
  let timer ← Program.schedule deadline me
  store timer

theorem pace_planning {interval : Nat} (htime : m.clock + interval < Time.limit) :
    m.pace w (planning me interval) = (booking me (m.clock + interval), (m.perform w .now).2) := by
  show ((timerBy me (Time.add? m.clock interval)).bind store, _) = _
  rw [Time.add?_eq_some_iff.2 ⟨rfl, htime⟩]
  rfl

/-- Reading the timer's id is one pace with what follows from it. -/
theorem pace_handle_timer (me : η) (hcurrent : m.world.sweepTimer = some id) :
    m.pace w (handle me (.timer id)) = (sweep me, (m.perform w .world).2) := by
  have hnext : (if m.world.sweepTimer == some id then sweep me else pure ()) =
      (sweep me : Activity κ η Unit) := if_pos (by rw [hcurrent]; exact beq_self_eq_true _)
  show (m.perform w .world).2.conclude w
    (if m.world.sweepTimer == some id then sweep me else pure ()) = _
  rw [hnext]
  rfl

theorem pace_sweep (me : η) : m.pace w (sweep me) =
    (expireSessions m.clock >>= fun _ => scheduleSweep me, (m.perform w .now).2) := rfl

/-- The lapsed sessions are ended in one pace; their events, their answers and the bindings to them
follow. -/
theorem pace_expireSessions (floor now : Nat) (f : List Nat → Activity κ η Unit) :
    ∃ p : Activity κ η (List Nat), Gentle floor False p ∧
      (m.pace w (expireSessions now >>= f)).1 = p >>= f ∧
      let m' := (m.pace w (expireSessions now >>= f)).2
      m'.clock = m.clock ∧ m'.timers = m.timers ∧
        m'.world = { m.world with coordinator := (m.world.coordinator.expire now).2.state } := by
  let r := m.world.coordinator.expire now
  exact ⟨_, (Gentle.rest_operate r.2 r.1).bind fun expired =>
    (Gentle.change fun s => ⟨_, rfl⟩).bind fun _ => .done expired, rfl, rfl, rfl, rfl⟩

/-! ## Scenes -/

/-- The loop, with the handler that works in it and the start of the service beside it. -/
structure Scene (κ η τ : Type) where
  /-- The loop. -/
  loop : Loop κ η τ
  /-- The timers that have been taken out and have not been handed over yet. -/
  batch : List (Nat × η)
  /-- What the service still has to do for the event that was handed to it last. -/
  hand : Activity κ η Unit
  /-- What the start of the service still has to do. -/
  beside : Activity κ η Unit
  /-- When an event was handed to the service last. -/
  handed : Nat
  /-- What the service has read when it looked at the clock for the first time since its timer was
  handed over. -/
  looked : Option Nat
  /-- Whether the service has been started. -/
  started : Bool

namespace Scene

/-- Nothing has happened; the service has no sessions. -/
def opening (config : Config) (links : τ) : Scene κ η τ :=
  ⟨.start (.empty config) links, [], .done (), .done (), 0, none, false⟩

/-- The service goes on for a pace. -/
def work (w : Wiring κ η State τ LockEvent) (x : Scene κ η τ) : Scene κ η τ :=
  { x with
    loop := (x.loop.pace w x.hand).2
    hand := (x.loop.pace w x.hand).1
    looked := x.looked.or (if x.hand.readsClock then some x.loop.clock else none) }

/-- Its start goes on for a pace. -/
def prepare (w : Wiring κ η State τ LockEvent) (x : Scene κ η τ) : Scene κ η τ :=
  { x with
    loop := (x.loop.pace w x.beside).2
    beside := (x.loop.pace w x.beside).1 }

/-- The service starts no lease earlier than this: now, or when the event was handed over that it
is working on. -/
def earliest (x : Scene κ η τ) : Nat := if x.hand.ended then x.loop.clock else x.handed

/-- The clock can name the instant of the next look. -/
def InTime (x : Scene κ η τ) : Prop := x.loop.clock + x.loop.world.sweepInterval < Time.limit

instance (x : Scene κ η τ) : Decidable x.InTime := inferInstanceAs (Decidable (_ < _))

/-- Nobody has anything to do until the clock moves. -/
structure AtRest (x : Scene κ η τ) : Prop where
  hand : x.hand.ended = true
  beside : x.beside.ended = true
  batch : x.batch.isEmpty = true
  quiet : x.loop.isQuiet = true

instance (x : Scene κ η τ) : Decidable x.AtRest :=
  decidable_of_iff (x.hand.ended = true ∧ x.beside.ended = true ∧ x.batch.isEmpty = true ∧
    x.loop.isQuiet = true) ⟨fun ⟨h₁, h₂, h₃, h₄⟩ => ⟨h₁, h₂, h₃, h₄⟩,
      fun h => ⟨h.hand, h.beside, h.batch, h.quiet⟩⟩

/-- No timer of the service is pending or about to be handed over. -/
structure Timeless (me : η) (x : Scene κ η τ) : Prop where
  none : ∀ id deadline, ¬ x.loop.timers.Pending id deadline me
  others : ∀ p ∈ x.batch, p.2 ≠ me

/-- The id of the timer is stored, or about to be. -/
def Knows (x : Scene κ η τ) (id : Nat) : Prop :=
  x.beside = .done () ∧ x.loop.world.sweepTimer = some id ∨ x.beside = store id

/-- The service is not at work for its timer, and starts no lease before `floor`. -/
def Minds (x : Scene κ η τ) (floor : Nat) : Prop :=
  ∃ t, floor ≤ t ∧ t ≤ x.loop.clock ∧ Gentle t True x.hand

end Scene

/-! ## Runs -/

/-- A run of the loop.  The service is started once, while no registered session has lapsed; others
are considerate.  Only if `late` holds may the loop hand over a timer whose id is still to be
stored. -/
inductive Watched (w : Wiring κ η State τ LockEvent) (me : η) (late : Bool) : Scene κ η τ → Prop
  | opening (config : Config) (links : τ) : Watched w me late (.opening config links)
  /-- The service is started. -/
  | start {x : Scene κ η τ} (before : Watched w me late x) (once : x.started = false)
    (current : ∀ sid o, x.loop.world.coordinator.sessions.get? sid = some o →
      o.lapsed x.loop.clock = false) :
    Watched w me late
      { x with beside := Service.start me, looked := some x.earliest, started := true }
  /-- Its start goes on. -/
  | prepared {x : Scene κ η τ} (before : Watched w me late x) (intime : x.InTime) :
    Watched w me late (x.prepare w)
  /-- The service goes on with what it was handed. -/
  | worked {x : Scene κ η τ} (before : Watched w me late x) (intime : x.InTime)
    (stored : late = false → ∀ id, x.hand = handle me (.timer id) → x.beside ≠ store id) :
    Watched w me late (x.work w)
  /-- Somebody asks the loop for something. -/
  | asked {x : Scene κ η τ} (before : Watched w me late x) (r : Request κ η State LockEvent)
    (considerate : Considerate me x.loop r) :
    Watched w me late { x with loop := (x.loop.perform w r).2 }
  /-- The timers are taken out that were due when the loop looked at the clock. -/
  | collected {x : Scene κ η τ} (before : Watched w me late x) (free : x.hand.ended = true)
    (handed : x.batch = []) (now : Nat) (read : now ≤ x.loop.clock) :
    Watched w me late { x with
      loop := { x.loop with timers := (x.loop.timers.popDue now).2 }
      batch := (x.loop.timers.popDue now).1 }
  /-- A timer is handed to the service. -/
  | fired {x : Scene κ η τ} (before : Watched w me late x) (free : x.hand.ended = true) (id : Nat)
    (rest : List (Nat × η)) (next : x.batch = (id, me) :: rest) :
    Watched w me late { x with
      loop := x.loop.record (.invoked me (.timer id))
      batch := rest
      hand := w.handle me (.timer id)
      handed := x.loop.clock
      looked := none }
  /-- An event that is no timer is handed to the service. -/
  | told {x : Scene κ η τ} (before : Watched w me late x) (free : x.hand.ended = true) (e : Event)
    (he : ∀ id, e ≠ .timer id) :
    Watched w me late { x with
      loop := x.loop.record (.invoked me e)
      hand := w.handle me e
      handed := x.loop.clock }
  /-- A timer is handed to another handler, who then asks for what he likes. -/
  | passed {x : Scene κ η τ} {id : Nat} {handler : η} {rest : List (Nat × η)}
    (before : Watched w me late x) (free : x.hand.ended = true)
    (next : x.batch = (id, handler) :: rest) (other : handler ≠ me) :
    Watched w me late { x with
      loop := x.loop.record (.invoked handler (.timer id))
      batch := rest }
  /-- Signals are taken off the queue, endpoints are removed, and other handlers are told. -/
  | taken {x : Scene κ η τ} (before : Watched w me late x) (free : x.hand.ended = true)
    (queue : List Signal) (endpoints : Table (Endpoint κ η))
    (trace : List (Entry κ η State LockEvent)) :
    Watched w me late { x with loop := { x.loop with queue, endpoints, trace } }

end LeaseLock.Service
