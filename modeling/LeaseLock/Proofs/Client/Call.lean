import LeaseLock.Proofs.Client.Calls
import LeaseLock.Proofs.Client.Reply

/-
  LeaseLock: a timed call for a lock, undisturbed.
  A call is carried on now and then, while requests and replies are on their way, the server is told
  of other things and the client makes other calls (`Calling.Move`).  `Order.Permits` says what must
  not happen meanwhile: that the connection loses its session or the session its lease, that an id
  is used again before it has been answered, and that somebody else acts on the handle for the
  session between the handling of the request and the end of the call.
-/

namespace LeaseLock.Client

open Reactor Coordinator Service

/-- Calls go over the connection. -/
def Exchange.transport : Conversation.Transport Exchange where
  send := Exchange.submit
  outcome? := fun x ticket => x.client.outcome? ticket
  adopt := fun x session => { x with client := { x.client with session } }

/-! ## Calls under way -/

/-- A call for a lock under way. -/
structure Calling where
  /-- How far it is. -/
  progress : Conversation.Progress UInt64
  /-- The connection. -/
  exchange : Exchange

namespace Calling

/-- What can happen. -/
inductive Move where
  /-- Something happens on the connection that is not done by the call. -/
  | other (m : Exchange.Move)
  /-- The call is carried on; `expire` if its time is up. -/
  | advance (expire : Bool)

/-- Carry the rest of a call on. -/
def carry (expire : Bool) (rest : Conversation UInt64) (x : Exchange) : Calling :=
  let (progress, exchange) := Conversation.advance Exchange.transport expire rest x
  { progress, exchange }

/-- A call has been made and has sent its request. -/
def start (x : Exchange) (handle : UInt64) (mode : Mode) (limit : Nat) : Calling :=
  carry false (Conversation.lockWithin handle mode limit) x

/-- Carry the call on, unless it has ended. -/
def advance (s : Calling) (expire : Bool) : Calling :=
  match s.progress with
  | .finished _ => s
  | .stalled rest => carry expire rest s.exchange

/-- What comes of a move. -/
def apply (s : Calling) : Move → Calling
  | .other m => { s with exchange := s.exchange.apply m }
  | .advance expire => s.advance expire

/-- What comes of moves, one after another. -/
def run (s : Calling) (moves : List Move) : Calling := moves.foldl apply s

end Calling

theorem Calling.carry_eq {x x' : Exchange} {rest : Conversation UInt64}
    {p : Conversation.Progress UInt64} {expire : Bool}
    (h : Conversation.advance Exchange.transport expire rest x = (p, x')) :
    carry expire rest x = ⟨p, x'⟩ := by
  unfold carry
  rw [h]

theorem Calling.carry_congr {x x' : Exchange} {rest rest' : Conversation UInt64} {expire : Bool}
    (h : Conversation.advance Exchange.transport expire rest x =
      Conversation.advance Exchange.transport expire rest' x') :
    carry expire rest x = carry expire rest' x' := by
  unfold carry
  rw [h]

/-! ## What must not happen -/

/-- The connection is bound to this session, which has its lease. -/
def Exchange.Live (x : Exchange) (session : Nat) : Prop :=
  x.loop.world.sessionFor x.endpoint = some session ∧
    Leased x.coordinator session x.loop.clock

instance (x : Exchange) (session : Nat) : Decidable (x.Live session) :=
  inferInstanceAs (Decidable (_ ∧ _))

/-- A call for a lock: who makes it, what it asks for, and the ticket and the address of its
request. -/
structure Order where
  /-- The session that the connection is bound to. -/
  session : Nat
  /-- The handle. -/
  handle : UInt64
  /-- The mode that is asked for. -/
  mode : Mode
  /-- How long the call waits. -/
  limit : Nat
  /-- The ticket of the request. -/
  ticket : Nat
  /-- Where the reply to the request goes. -/
  dest : ReplyTo

/-- The call that can be made next. -/
def Exchange.order (x : Exchange) (session : Nat) (handle : UInt64) (mode : Mode) (limit : Nat) :
    Order :=
  ⟨session, handle, mode, limit, x.client.nextTicket, ⟨x.endpoint, x.client.nextId⟩⟩

namespace Order

/-- The place of the request in the queue, if it has to wait. -/
def waiter (o : Order) : Waiter ReplyTo := ⟨o.session, o.mode, o.dest⟩

/-- The request. -/
def request (o : Order) : Wire.Request :=
  (Conversation.lockCommand o.handle o.mode false).request o.dest.id

/-- A request over the connection does not touch the handle. -/
def Spare (o : Order) (r : Wire.Request) : Prop :=
  ∀ op, asks o.dest.endpoint o.session r.encode = some op → ¬ op.Touches o.session o.handle.toNat

instance (o : Order) (r : Wire.Request) : Decidable (o.Spare r) :=
  inferInstanceAs (Decidable (∀ op ∈ asks o.dest.endpoint o.session r.encode,
    ¬ op.Touches o.session o.handle.toNat))

/-- A move leaves the handle to the call.  What the server is told over other connections is of no
concern before it has handled the request. -/
def Spares (o : Order) (x : Exchange) : Exchange.Move → Prop
  | .serve i => (∀ q ∈ x.sent, q.1 ≠ o.ticket) → i.Spares x.loop o.session o.handle.toNat
  | .request command body => o.Spare ⟨x.client.nextId, command, body⟩
  | _ => True

instance (o : Order) (x : Exchange) (m : Exchange.Move) : Decidable (o.Spares x m) :=
  match m with
  | .serve _ => inferInstanceAs (Decidable (_ → _))
  | .request _ _ => inferInstanceAs (Decidable (o.Spare _))
  | .handle => isTrue trivial
  | .read => isTrue trivial

/-- A move does not disturb the call. -/
def Permits (o : Order) (s : Calling) : Calling.Move → Prop
  | .other m => s.exchange.Live o.session ∧ s.exchange.Allows m ∧ o.Spares s.exchange m
  | .advance _ => s.exchange.client.Free

instance (o : Order) (s : Calling) (m : Calling.Move) : Decidable (o.Permits s m) :=
  match m with
  | .other _ => inferInstanceAs (Decidable (_ ∧ _ ∧ _))
  | .advance _ => inferInstanceAs (Decidable s.exchange.client.Free)

/-- No move disturbs the call. -/
def Undisturbed (o : Order) (s : Calling) : List Calling.Move → Prop
  | [] => True
  | m :: rest => o.Permits s m ∧ o.Undisturbed (s.apply m) rest

instance decidableUndisturbed (o : Order) :
    (s : Calling) → (moves : List Calling.Move) → Decidable (o.Undisturbed s moves)
  | _, [] => isTrue trivial
  | s, m :: rest =>
    have := o.decidableUndisturbed (s.apply m) rest
    inferInstanceAs (Decidable (o.Permits s m ∧ _))

/-- A move in which the server handles the request of the call. -/
def Meets (o : Order) (s : Calling) : Calling.Move → Prop
  | .other .handle => s.exchange.sent.head?.map (·.1) = some o.ticket
  | _ => False

instance (o : Order) (s : Calling) (m : Calling.Move) : Decidable (o.Meets s m) :=
  match m with
  | .other .handle => inferInstanceAs (Decidable (_ = _))
  | .other (.serve _) => isFalse nofun
  | .other .read => isFalse nofun
  | .other (.request _ _) => isFalse nofun
  | .advance _ => isFalse nofun

/-- The coordinator as it is when the server comes to handle the request of the call. -/
def met? (o : Order) (s : Calling) : List Calling.Move → Option (Coordinator.State ReplyTo)
  | [] => none
  | m :: rest => if o.Meets s m then some s.exchange.coordinator else o.met? (s.apply m) rest

end Order

end LeaseLock.Client
