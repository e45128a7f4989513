import LeaseLock.Proofs.Client.Calls
import LeaseLock.Proofs.Coordinator.Lease
import LeaseLock.Proofs.Service.Effect
import LeaseLock.Proofs.Wire.RoundTrip

/-
  LeaseLock: a call and the operation it stands for.
  A `Call` sends one command and reads the reply (`Call.conversation_eq`); the server reads the
  command that was sent (`Call.decode_command`).  `Call.direct` is what the coordinator would do and
  return if it were asked without any connection.  The operations behind the command do the same
  (`Call.state_direct`), and among what the server sends there is a response from which the client
  reads the same result (`Call.replies_direct`).
-/

namespace LeaseLock

open Coordinator Service

/-- The fault that the sender of a lock request is told of. -/
def Coordinator.Answer.fault? : Answer → Option Fault
  | .refused fault => some fault
  | _ => none

/-! ## Commands -/

/-- The coordinator reads the body of a lock request as it was written. -/
theorem Coordinator.State.dispatch_encode {ρ : Type} (s : State ρ) (session : Nat)
    (handle : UInt64) (mode : Mode) (tryOnly : Bool) (reply : ρ) :
    s.dispatch session (Wire.LockRequest.mk handle mode.bits tryOnly).encode reply =
      s.acquire session handle.toNat mode tryOnly reply := by
  have hdecode := Wire.LockRequest.decode_encode_append ⟨handle, mode.bits, tryOnly⟩ []
  rw [List.append_nil] at hdecode
  have hread : readRequest (Wire.LockRequest.mk handle mode.bits tryOnly).encode =
      .ok (⟨handle, mode.bits, tryOnly⟩, mode) := by
    unfold readRequest
    rw [hdecode]
    show (Mode.ofBits mode.bits >>= _) = _
    rw [Mode.ofBits_bits]
    rfl
  unfold dispatch
  rw [hread]

namespace Client

/-! ## Calls -/

/-- A call that acts for a session, by the type of its result.  The name of a resource fits into a
text field. -/
inductive Call : Type → Type where
  /-- Renew the lease. -/
  | keepAlive : Call Unit
  /-- Open the resource of this name. -/
  | openHandle (name : String) (fits : name.utf8ByteSize ≤ Wire.maxTextLength) : Call UInt64
  /-- Close a handle. -/
  | close (handle : UInt64) : Call Unit
  /-- Release a lock. -/
  | release (handle : UInt64) : Call Unit
  /-- Withdraw a request that waits for a lock. -/
  | cancelLock (handle : UInt64) : Call Bool
  /-- Take a lock if it is free. -/
  | tryLock (handle : UInt64) (mode : Mode) : Call (Option UInt64)
  /-- Wait for a lock. -/
  | lock (handle : UInt64) (mode : Mode) : Call UInt64
  /-- End the session. -/
  | closeSession : Call Unit
  /-- Act for a session that is open already. -/
  | attachSession (session : UInt64) : Call Unit

namespace Call

variable {α : Type}

/-- What the client does. -/
def conversation : Call α → Conversation α
  | keepAlive => .keepAlive
  | openHandle name _ => .openHandle name
  | close handle => .close handle
  | release handle => .release handle
  | cancelLock handle => .cancelLock handle
  | tryLock handle mode => .tryLock handle mode
  | lock handle mode => .lock handle mode
  | closeSession => .closeSession
  | attachSession session => .attachSession session

/-- The command that the client sends. -/
def command : Call α → Wire.Command
  | keepAlive => .keepAlive
  | openHandle name _ => .open name
  | close handle => .close handle
  | release handle => .release handle
  | cancelLock handle => .cancelLock handle
  | tryLock handle mode => Conversation.lockCommand handle mode true
  | lock handle mode => Conversation.lockCommand handle mode false
  | closeSession => .closeSession
  | attachSession session => .attachSession session

/-- What the client does with a reply that is not an error. -/
def read : Call α → Wire.Response → Conversation α
  | openHandle _ _, r => .result .handle (Wire.decodeU64 "handle" r.body)
  | cancelLock _, r => .done (r.body.head?.any (· != 0))
  | tryLock _ _, r =>
    match LockStatus.ofStatus? r.status with
    | some .granted => some <$> Conversation.generation r
    | some .busy => .done none
    | _ => .fail (.strayStatus r.status r.id)
  | lock _ _, r => .granted r
  | closeSession, _ => .adopt 0
  | attachSession session, _ => .adopt session
  | keepAlive, _ => .done ()
  | close _, _ => .done ()
  | release _, _ => .done ()

/-- The client waits for the reply to the request with this ticket. -/
def waiting (c : Call α) (ticket : Nat) : Conversation α :=
  (Conversation.await ticket).bind fun r => (Conversation.ofExcept (Conversation.accepted r)).bind
    c.read

theorem conversation_eq_call (c : Call α) :
    c.conversation = (Conversation.call c.command).bind c.read := by
  cases c with
  | openHandle name fits =>
    show Conversation.openHandle name = _
    unfold Conversation.openHandle
    rw [if_neg (Nat.not_lt.2 fits)]
    rfl
  | closeSession => exact Conversation.bind_assoc _ _ _
  | attachSession session => exact Conversation.bind_assoc _ _ _
  | _ => rfl

/-- A call sends its command and waits for the reply. -/
theorem conversation_eq (c : Call α) :
    c.conversation = (Conversation.send c.command.code c.command.body).bind c.waiting := by
  rw [conversation_eq_call]
  show (((Conversation.send c.command.code c.command.body).bind Conversation.await).bind
    fun r => Conversation.ofExcept (Conversation.accepted r)).bind c.read = _
  rw [Conversation.bind_assoc, Conversation.bind_assoc]
  rfl

theorem fits_command (c : Call α) : c.command.Fits := by
  cases c with
  | openHandle name fits => exact fits
  | _ => trivial

/-! ## Operations -/

/-- What a renewal returns; nothing if it crashes. -/
def renewed : Except Failure Nat → Option (Except Fault Unit)
  | .ok _ => some (.ok ())
  | .error (.refused fault) => some (.error fault)
  | .error (.crashed _) => none

/-- What a request for a lock returns at once; nothing if it waits. -/
def settled (granted : Nat → α) (denied : Option α) :
    LockOutcome × Turn ReplyTo → Option (Except Fault α)
  | (.granted generation, _) => some (.ok (granted generation))
  | (.denied, _) => denied.map .ok
  | (.queued, _) => none
  | (.refused _, t) => (t.answers.findSome? fun answer => answer.2.fault?).map .error

/-- What the coordinator returns if it is asked for the same at once, and its state afterwards. -/
def direct (session now : Nat) (dest : ReplyTo) (s : Coordinator.State ReplyTo) :
    Call α → Option (Except Fault α) × Coordinator.State ReplyTo
  | keepAlive => let (r, s) := s.renew session now; (renewed r, s)
  | openHandle name _ => let (r, s) := s.openHandle session name; (some (r.map UInt64.ofNat), s)
  | close handle => let (r, t) := s.closeHandle session handle.toNat; (some r, t.state)
  | release handle => let (r, t) := s.release session handle.toNat; (some r, t.state)
  | cancelLock handle => let (any, t) := s.cancel session handle.toNat; (some (.ok any), t.state)
  | tryLock handle mode =>
    let r := s.acquire session handle.toNat mode true dest
    (settled (some ∘ UInt64.ofNat) (some none) r, r.2.state)
  | lock handle mode =>
    let r := s.acquire session handle.toNat mode false dest
    (settled UInt64.ofNat none r, r.2.state)
  | closeSession => let (r, t) := s.closeSession session; (some r, t.state)
  | attachSession id => let (r, s) := s.renew id.toNat now; (renewed r, s)

variable {session now : Nat} {dest : ReplyTo} {s : Coordinator.State ReplyTo}

theorem after_lock (s : Coordinator.State ReplyTo) (session now : Nat) (payload : Bytes)
    (dest : ReplyTo) : s.after (steps dest (some session) now (.lock payload)) =
      (s.dispatch session payload dest).2.state := rfl

theorem told_lock (s : Coordinator.State ReplyTo) (session now : Nat) (payload : Bytes)
    (dest : ReplyTo) : s.told (steps dest (some session) now (.lock payload)) =
      (s.dispatch session payload dest).2.answers := List.append_nil _

theorem after_lockCommand (s : Coordinator.State ReplyTo) (session now : Nat) (handle : UInt64)
    (mode : Mode) (tryOnly : Bool) (dest : ReplyTo) :
    s.after (steps dest (some session) now (Conversation.lockCommand handle mode tryOnly)) =
      (s.acquire session handle.toNat mode tryOnly dest).2.state := by
  unfold Conversation.lockCommand
  rw [after_lock, State.dispatch_encode]

/-- The operations behind the command do the same, if the lease has been renewed just now. -/
theorem state_direct (c : Call α) (hrenewed : (s.renew session now).2 = s) :
    s.after (steps dest (some session) now c.command) = (c.direct session now dest s).2 := by
  cases c with
  | keepAlive => exact hrenewed.symm
  | tryLock handle mode => exact after_lockCommand s session now handle mode true dest
  | lock handle mode => exact after_lockCommand s session now handle mode false dest
  | _ => rfl

end Call

/-! ## Results -/

/-- The client is told of a fault of the server: its number on the wire, its code and its
wording. -/
def Error.Tells (e : Error) (fault : Fault) : Prop :=
  ∃ r, e = .remote r ∧ r.status = fault.status ∧ r.faultCode? = some fault.code ∧
    r.message = fault.message

theorem isError_error (id : UInt32) (fault : Fault) :
    (Wire.Response.error id fault.code.toStatus fault.message).isError = true :=
  FaultCode.isError_toStatus fault.code

theorem Error.tells_error (id : UInt32) (fault : Fault) :
    (Error.remote (.error id fault.code.toStatus fault.message)).Tells fault := by
  refine ⟨_, rfl, rfl, ?_, Wire.Response.message_error _ _ _⟩
  unfold Wire.Response.faultCode?
  rw [if_pos (isError_error id fault)]
  exact FaultCode.ofStatus?_toStatus fault.code

/-- A call returns what the operation returns: the same value, or an error that tells of the
fault. -/
inductive Agrees {α : Type} : Except Fault α → Except Error α → Prop
  | ok (a : α) : Agrees (.ok a) (.ok a)
  | error {fault : Fault} {e : Error} (tells : e.Tells fault) : Agrees (.error fault) (.error e)

namespace Call

variable {α : Type} {c : Call α} {r : Wire.Response} {session now handle : Nat} {mode : Mode}
  {tryOnly : Bool} {dest : ReplyTo} {s : Coordinator.State ReplyTo}

/-- From this reply the client reads this result. -/
def Reads (c : Call α) (r : Wire.Response) (result : Except Error α) : Prop :=
  ∀ {ω : Type} (t : Conversation.Transport ω) (expire : Bool) (w : ω),
    (((Conversation.ofExcept (Conversation.accepted r)).bind c.read).advance t expire w).1 =
      .finished result

theorem reads_of_isError (h : r.isError = true) : c.Reads r (.error (.remote r)) := by
  intro ω t expire w
  unfold Conversation.accepted
  rw [if_pos h]
  rfl

theorem reads_of_read (h : r.isError = false) {result : Except Error α}
    (hread : ∀ {ω : Type} (t : Conversation.Transport ω) (expire : Bool) (w : ω),
      ((c.read r).advance t expire w).1 = .finished result) : c.Reads r result := by
  intro ω t expire w
  unfold Conversation.accepted
  rw [h, if_neg Bool.false_ne_true]
  exact hread t expire w

/-- The client reads the fault that the server reports. -/
theorem reads_error (c : Call α) (id : UInt32) (fault : Fault) :
    ∃ result, c.Reads (.error id fault.code.toStatus fault.message) result ∧
      Agrees (.error fault) result :=
  ⟨_, reads_of_isError (isError_error id fault), .error (Error.tells_error id fault)⟩

/-! ### Responses of the service -/

/-- The client reads from the response what the operation returned, if it can read the value. -/
theorem reads_verdict (c : Call α) (dest : ReplyTo) {encode : α → Bytes}
    (hread : ∀ a, c.Reads ⟨dest.id, Wire.Response.statusOk, encode a⟩ (.ok a))
    (result : Except Fault α) :
    ∃ result', c.Reads (verdict dest (result.map encode)).2 result' ∧ Agrees result result' := by
  cases result with
  | ok a => exact ⟨_, hread a, .ok a⟩
  | error fault => exact c.reads_error dest.id fault

theorem reads_openHandle (name : String) (fits : name.utf8ByteSize ≤ Wire.maxTextLength)
    (id : UInt32) (handle : UInt64) :
    (openHandle name fits).Reads ⟨id, Wire.Response.statusOk, encodeU64 handle⟩ (.ok handle) :=
  reads_of_read rfl fun t expire w => by
    show ((Conversation.result .handle (Wire.decodeU64 "handle" (encodeU64 handle))).advance
      t expire w).1 = _
    rw [Wire.decodeU64_encodeU64]
    rfl

theorem reads_cancelLock (handle : UInt64) (id : UInt32) (any : Bool) :
    (cancelLock handle).Reads ⟨id, Wire.Response.statusOk, [if any then 1 else 0]⟩ (.ok any) :=
  reads_of_read rfl fun t expire w => by cases any <;> rfl

/-! ### Answers of the coordinator -/

theorem reads_lock_granted (handle : UInt64) (mode : Mode) (id : UInt32) (generation : Nat) :
    (lock handle mode).Reads ((Answer.granted generation).reply.response id)
      (.ok (.ofNat generation)) := by
  intro ω t expire w
  show (((Conversation.ofExcept (Conversation.accepted _)).bind Conversation.granted).advance
    t expire w).1 = _
  rw [Conversation.answer_granted rfl rfl]
  rfl

theorem reads_tryLock_granted (handle : UInt64) (mode : Mode) (id : UInt32) (generation : Nat) :
    (tryLock handle mode).Reads ((Answer.granted generation).reply.response id)
      (.ok (some (.ofNat generation))) :=
  reads_of_read rfl fun t expire w => by
    show ((some <$> Conversation.generation _).advance t expire w).1 = _
    rw [Conversation.generation_of_body rfl]
    rfl

/-- The client reads from the answer what the request returned at once, if it can read that it was
granted, or denied. -/
theorem reads_acquire (c : Call α) {granted : Nat → α} {denied : Option α}
    (hgranted : ∀ generation,
      c.Reads ((Answer.granted generation).reply.response dest.id) (.ok (granted generation)))
    (hdenied : ∀ a ∈ denied, c.Reads (Answer.busy.reply.response dest.id) (.ok a))
    {result : Except Fault α}
    (h : settled granted denied (s.acquire session handle mode tryOnly dest) = some result) :
    ∃ a result', (dest, a) ∈ (s.acquire session handle mode tryOnly dest).2.answers ∧
      c.Reads (a.reply.response dest.id) result' ∧ Agrees result result' := by
  have hr := s.requested_acquire session handle mode tryOnly dest
  generalize s.acquire session handle mode tryOnly dest = r at hr h ⊢
  cases hr with
  | refused checked =>
    cases h
    obtain ⟨result', hreads, hagrees⟩ := c.reads_error dest.id _
    exact ⟨_, result', List.mem_singleton.2 rfl, hreads, hagrees⟩
  | granted checked alone admitted =>
    cases h
    exact ⟨_, _, List.mem_singleton.2 rfl, hgranted _, .ok _⟩
  | denied checked blocked impatient =>
    obtain ⟨a, ha, rfl⟩ := Option.map_eq_some_iff.1 h
    exact ⟨_, _, List.mem_singleton.2 rfl, hdenied a ha, .ok a⟩
  | queued checked blocked patient => cases h

/-! ### All responses -/

/-- The server sends this response to the command of a call. -/
def Sends (world : Service.State) (dest : ReplyTo) (session now : Nat) (c : Wire.Command)
    (r : Wire.Response) : Prop :=
  (dest.endpoint, r) ∈ world.responses dest (some session) now c ∨
    ∃ a, (dest, a) ∈ world.coordinator.told (steps dest (some session) now c) ∧
      a.reply.response dest.id = r

theorem sends_verdict {world : Service.State} {c : Wire.Command} {result : Except Fault Bytes}
    (h : world.responses dest (some session) now c = [verdict dest result]) :
    Sends world dest session now c (verdict dest result).2 ∧ (verdict dest result).2.id = dest.id :=
    by
  have hverdict : verdict dest result = (dest.endpoint, (verdict dest result).2) ∧
      (verdict dest result).2.id = dest.id := by
    cases result <;> exact ⟨rfl, rfl⟩
  refine ⟨.inl ?_, hverdict.2⟩
  rw [h, ← hverdict.1]
  exact List.mem_singleton.2 rfl

/-- The server sends a response from which the client reads this result. -/
def Returns (world : Service.State) (dest : ReplyTo) (session now : Nat) (c : Call α)
    (result : Except Fault α) : Prop :=
  ∃ r result', r.id = dest.id ∧ Sends world dest session now c.command r ∧ c.Reads r result' ∧
    Agrees result result'

variable {world : Service.State} {result : Except Fault α}

theorem returns_of_verdict (encode : α → Bytes)
    (h : world.responses dest (some session) now c.command = [verdict dest (result.map encode)])
    (hread : ∀ a, c.Reads ⟨dest.id, Wire.Response.statusOk, encode a⟩ (.ok a)) :
    Returns world dest session now c result := by
  obtain ⟨hsends, hid⟩ := sends_verdict h
  obtain ⟨result', hreads, hagrees⟩ := c.reads_verdict dest hread result
  exact ⟨_, result', hid, hsends, hreads, hagrees⟩

theorem returns_of_acquire {handle : UInt64} {granted : Nat → α} {denied : Option α}
    (hc : c.command = Conversation.lockCommand handle mode tryOnly)
    (hgranted : ∀ generation,
      c.Reads ((Answer.granted generation).reply.response dest.id) (.ok (granted generation)))
    (hdenied : ∀ a ∈ denied, c.Reads (Answer.busy.reply.response dest.id) (.ok a))
    (h : settled granted denied
      (world.coordinator.acquire session handle.toNat mode tryOnly dest) = some result) :
    Returns world dest session now c result := by
  obtain ⟨a, result', ha, hreads, hagrees⟩ := c.reads_acquire hgranted hdenied h
  refine ⟨_, result', ?_, .inr ⟨a, ?_, rfl⟩, hreads, hagrees⟩
  · exact congrArg ReplyTo.id (address_posted (dest, a))
  · rw [hc]
    unfold Conversation.lockCommand
    rw [told_lock, State.dispatch_encode]
    exact ha

/-- Whatever the operation returns at once, the client reads from a response of the server. -/
theorem returns_direct (c : Call α) (world : Service.State)
    (hl : Leased world.coordinator session now)
    (hlimit : now + world.coordinator.sessions.lease < Time.limit)
    (h : (c.direct session now dest world.coordinator).1 = some result) :
    Returns world dest session now c result := by
  cases c with
  | keepAlive =>
    have hrenew := Sessions.renew_of_live hl hlimit
    have h : renewed (world.coordinator.sessions.renew session now).1 = some result := h
    rw [hrenew] at h
    cases h
    exact returns_of_verdict (fun _ => []) rfl fun a => reads_of_read rfl fun t expire w => rfl
  | openHandle name fits =>
    have h : some ((world.coordinator.openHandle session name).1.map UInt64.ofNat) =
      some result := h
    cases h
    refine returns_of_verdict encodeU64 (congrArg (fun r => [verdict dest r]) ?_)
      (reads_openHandle name fits dest.id)
    cases (world.coordinator.openHandle session name).1 <;> rfl
  | close handle =>
    cases h
    exact returns_of_verdict (fun _ => []) rfl fun a => reads_of_read rfl fun t expire w => rfl
  | release handle =>
    cases h
    exact returns_of_verdict (fun _ => []) rfl fun a => reads_of_read rfl fun t expire w => rfl
  | closeSession =>
    cases h
    exact returns_of_verdict (fun _ => []) rfl fun a => reads_of_read rfl fun t expire w => rfl
  | cancelLock handle =>
    cases h
    exact returns_of_verdict (fun any => [if any then 1 else 0]) rfl
      (reads_cancelLock handle dest.id)
  | tryLock handle mode =>
    refine returns_of_acquire rfl (reads_tryLock_granted handle mode dest.id) ?_ h
    rintro a ha
    cases ha
    exact reads_of_read rfl fun t expire w => rfl
  | lock handle mode =>
    refine returns_of_acquire rfl (reads_lock_granted handle mode dest.id) ?_ h
    rintro a ha
    cases ha
  | attachSession id =>
    have hread : ∀ a, (attachSession id).Reads ⟨dest.id, Wire.Response.statusOk, []⟩ (.ok a) :=
      fun a => reads_of_read rfl fun t expire w => rfl
    have h : renewed (world.coordinator.sessions.renew id.toNat now).1 = some result := h
    by_cases hid : world.coordinator.sessions.Live id.toNat now
    · rw [Sessions.renew_of_live hid hlimit] at h
      cases h
      refine returns_of_verdict (fun _ => []) ?_ hread
      exact congrArg (fun r => [verdict dest r]) (if_pos hid)
    · rw [Sessions.renew_of_not_live hid] at h
      cases h
      refine returns_of_verdict (fun _ => []) ?_ hread
      exact congrArg (fun r => [verdict dest r]) (if_neg hid)

end Call

end Client

end LeaseLock
