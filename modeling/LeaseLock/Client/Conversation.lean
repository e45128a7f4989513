import LeaseLock.Client.Connection
import LeaseLock.Client.Error

/-
  LeaseLock: what a call of a client does over its connection.
  A call is a `Conversation`: a tree of steps, each continued by what came of it, that ends with a
  value or an error.  The steps send a request, wait for a reply, or note the session that later
  calls act for.  `Conversation.advance` carries a call on as far as the replies allow.
-/

namespace LeaseLock.Client

/-! ## Steps -/

/-- A step of a call. -/
inductive Step where
  /-- Send a request. -/
  | send (command : UInt8) (body : Bytes)
  /-- Wait for the reply to the request with this ticket. -/
  | await (ticket : Nat)
  /-- Wait for the reply, but no longer than this. -/
  | awaitWithin (ticket limit : Nat)
  /-- Note the session that later calls act for; zero if there is none. -/
  | adopt (session : UInt64)
deriving DecidableEq, Repr

/-- What comes of a step. -/
def Step.Result : Step → Type
  | send _ _ => Option Nat
  | await _ => Outcome
  | awaitWithin _ _ => Option Outcome
  | adopt _ => Unit

/-! ## Conversations -/

/-- A sequence of steps with a result of type `α`. -/
inductive Conversation (α : Type) where
  /-- The result. -/
  | done (a : α)
  /-- The end without a result. -/
  | fail (e : Error)
  /-- A step, and how to go on with what comes of it. -/
  | ask (step : Step) (next : step.Result → Conversation α)

namespace Conversation

variable {α β : Type}

/-- Go on with the result. -/
def bind : Conversation α → (α → Conversation β) → Conversation β
  | done a, f => f a
  | fail e, _ => fail e
  | ask step next, f => ask step fun r => (next r).bind f

instance : Monad Conversation where
  pure := done
  bind := bind

/-- Turn an error into a result. -/
def attempt : Conversation α → Conversation (Except Error α)
  | done a => done (.ok a)
  | fail e => done (.error e)
  | ask step next => ask step fun r => (next r).attempt

/-- A value or an error, without any step. -/
def ofExcept : Except Error α → Conversation α
  | .ok a => done a
  | .error e => fail e

/-- Send a request; the ticket is for its reply. -/
def send (command : UInt8) (body : Bytes) : Conversation Nat :=
  ask (.send command body) fun
    | some ticket => done ticket
    | none => fail .notSent

/-- Wait for a reply. -/
def await (ticket : Nat) : Conversation Wire.Response :=
  ask (.await ticket) fun
    | .replied r => done r
    | .lost => fail (.unanswered false)

/-- Wait for a reply, but no longer than this; `none` if the time is up. -/
def awaitWithin (ticket limit : Nat) : Conversation (Option Wire.Response) :=
  ask (.awaitWithin ticket limit) fun
    | some (.replied r) => done (some r)
    | some .lost => fail (.unanswered true)
    | none => done none

/-- Note the session that later calls act for. -/
def adopt (session : UInt64) : Conversation Unit := ask (.adopt session) done

theorem bind_done (p : Conversation α) : p.bind done = p := by
  induction p with
  | done a => rfl
  | fail e => rfl
  | ask step next ih => simp only [bind, ih]

theorem bind_assoc {γ : Type} (p : Conversation α) (f : α → Conversation β)
    (g : β → Conversation γ) : (p.bind f).bind g = p.bind fun a => (f a).bind g := by
  induction p with
  | done a => rfl
  | fail e => rfl
  | ask step next ih => simp only [bind, ih]

/-! ## Carrying a conversation on -/

/-- What conversations go over; `ω` is the type of its states. -/
structure Transport (ω : Type) where
  /-- Send a request; there is no ticket if the connection takes none. -/
  send : ω → UInt8 → Bytes → Option Nat × ω
  /-- What became of the request with this ticket, if it is no longer under way. -/
  outcome? : ω → Nat → Option Outcome
  /-- Note the session that later calls act for. -/
  adopt : ω → UInt64 → ω

/-- How far a conversation is. -/
inductive Progress (α : Type) where
  /-- It has ended. -/
  | finished (r : Except Error α)
  /-- It waits for a reply that is under way; the rest of it starts with that. -/
  | stalled (rest : Conversation α)

/-- Carry a conversation on until it ends or waits for a reply that has not come.  If `expire`
holds, the time of a wait that has a limit is up. -/
def advance {ω : Type} (t : Transport ω) (expire : Bool) : Conversation α → ω → Progress α × ω
  | done a, w => (.finished (.ok a), w)
  | fail e, w => (.finished (.error e), w)
  | ask (.send command body) next, w =>
    let (ticket, w) := t.send w command body
    advance t expire (next ticket) w
  | ask (.await ticket) next, w =>
    match t.outcome? w ticket with
    | some outcome => advance t expire (next outcome) w
    | none => (.stalled (ask (.await ticket) next), w)
  | ask (.awaitWithin ticket limit) next, w =>
    match t.outcome? w ticket with
    | some outcome => advance t expire (next (some outcome)) w
    | none =>
      if expire then advance t expire (next none) w
      else (.stalled (ask (.awaitWithin ticket limit) next), w)
  | ask (.adopt session) next, w => advance t expire (next ()) (t.adopt w session)

section Advance

variable {ω : Type} {t : Transport ω} {w : ω} {expire : Bool} {ticket limit : Nat}

/-- A request is sent at once. -/
theorem advance_ask_send {command : UInt8} {body : Bytes}
    {next : (Step.send command body).Result → Conversation α} :
    advance t expire (ask (.send command body) next) w =
      advance t expire (next (t.send w command body).1) (t.send w command body).2 := rfl

theorem advance_ask_await {next : (Step.await ticket).Result → Conversation α} :
    advance t expire (ask (.await ticket) next) w =
      match t.outcome? w ticket with
      | some outcome => advance t expire (next outcome) w
      | none => (.stalled (ask (.await ticket) next), w) := by
  rw [advance]

/-- A wait with a limit ends with the reply or with the time. -/
theorem advance_ask_awaitWithin
    {next : (Step.awaitWithin ticket limit).Result → Conversation α} :
    advance t expire (ask (.awaitWithin ticket limit) next) w =
      match t.outcome? w ticket with
      | some outcome => advance t expire (next (some outcome)) w
      | none =>
        if expire then advance t expire (next none) w
        else (.stalled (ask (.awaitWithin ticket limit) next), w) := by
  rw [advance]

end Advance

end Conversation

end LeaseLock.Client
