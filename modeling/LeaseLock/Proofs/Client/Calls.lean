import LeaseLock.Client.Calls
import LeaseLock.Coordinator.Reply

/-
  LeaseLock: how a call with a time limit goes on.
  `lockWithin` sends its request and then waits in one of four places: for the reply to the request
  (`awaiting`), for the reply to its withdrawal (`withdrawing`), again for the reply to the request
  (`undoing`), or for the reply to a release (`releasing`).  One rule for each place says where
  the call gets from there with a reply.
-/

namespace LeaseLock.Client.Conversation

variable {α ω : Type} {t : Transport ω} {w w' : ω} {handle : UInt64} {mode : Mode}
  {limit ticket : Nat} {r : Wire.Response}

/-! ## Places to wait -/

/-- The call waits for the reply to its request. -/
def awaiting (handle : UInt64) (limit ticket : Nat) : Conversation UInt64 :=
  (awaitWithin ticket limit).bind fun
    | some r => (ofExcept (accepted r)).bind granted
    | none => giveUp handle limit ticket

/-- The call lets go of what the reply to its request granted, and fails. -/
def undoing (handle : UInt64) (limit ticket : Nat) : Conversation UInt64 :=
  (await ticket).attempt.bind fun reply =>
    (undo handle reply).bind fun _ => fail (.tooLate handle limit)

/-- The call waits for the reply to the withdrawal of its request. -/
def withdrawing (handle : UInt64) (limit ticket withdrawal : Nat) : Conversation UInt64 :=
  (((await withdrawal).bind fun r => ofExcept (accepted r)).bind fun r =>
    done (r.body.head?.any (· != 0))).bind fun any =>
      if any then fail (.tooLate handle limit) else undoing handle limit ticket

/-- The call waits for the reply to its release. -/
def releasing (handle : UInt64) (limit release : Nat) : Conversation UInt64 :=
  ((((await release).bind fun r => ofExcept (accepted r)).bind fun _ => done ()).attempt.bind
    fun _ => done ()).bind fun _ => fail (.tooLate handle limit)

/-! ## Steps -/

section Steps

variable {expire : Bool}

/-- Once a request is sent, the rest goes on with its ticket. -/
theorem advance_send {command : UInt8} {body : Bytes} {f : Nat → Conversation α}
    (h : t.send w command body = (some ticket, w')) :
    advance t expire ((send command body).bind f) w = advance t expire (f ticket) w' := by
  show advance t expire (ask (.send command body) _) w = _
  rw [advance_ask_send, h]
  rfl

theorem advance_await_of_none {f : Wire.Response → Conversation α}
    (h : t.outcome? w ticket = none) :
    advance t expire ((await ticket).bind f) w = (.stalled ((await ticket).bind f), w) := by
  show advance t expire (ask (.await ticket) _) w = _
  rw [advance_ask_await, h]
  rfl

theorem advance_await_of_reply {f : Wire.Response → Conversation α}
    (h : t.outcome? w ticket = some (.replied r)) :
    advance t expire ((await ticket).bind f) w = advance t expire (f r) w := by
  show advance t expire (ask (.await ticket) _) w = _
  rw [advance_ask_await, h]
  rfl

theorem advance_awaitWithin_of_none {f : Option Wire.Response → Conversation α}
    (h : t.outcome? w ticket = none) :
    advance t false ((awaitWithin ticket limit).bind f) w =
      (.stalled ((awaitWithin ticket limit).bind f), w) := by
  show advance t false (ask (.awaitWithin ticket limit) _) w = _
  rw [advance_ask_awaitWithin, h]
  rfl

/-- The time is up. -/
theorem advance_awaitWithin_of_expired {f : Option Wire.Response → Conversation α}
    (h : t.outcome? w ticket = none) :
    advance t true ((awaitWithin ticket limit).bind f) w = advance t true (f none) w := by
  show advance t true (ask (.awaitWithin ticket limit) _) w = _
  rw [advance_ask_awaitWithin, h]
  rfl

theorem advance_awaitWithin_of_reply {f : Option Wire.Response → Conversation α}
    (h : t.outcome? w ticket = some (.replied r)) :
    advance t expire ((awaitWithin ticket limit).bind f) w = advance t expire (f (some r)) w := by
  show advance t expire (ask (.awaitWithin ticket limit) _) w = _
  rw [advance_ask_awaitWithin, h]
  rfl

/-- A wait whose outcome is looked at, whatever it is. -/
theorem advance_attempt_of_none {f : Except Error Wire.Response → Conversation α}
    (h : t.outcome? w ticket = none) :
    advance t expire ((await ticket).attempt.bind f) w =
      (.stalled ((await ticket).attempt.bind f), w) := by
  show advance t expire (ask (.await ticket) _) w = _
  rw [advance_ask_await, h]
  rfl

theorem advance_attempt_of_reply {f : Except Error Wire.Response → Conversation α}
    (h : t.outcome? w ticket = some (.replied r)) :
    advance t expire ((await ticket).attempt.bind f) w = advance t expire (f (.ok r)) w := by
  show advance t expire (ask (.await ticket) _) w = _
  rw [advance_ask_await, h]
  rfl

/-- The end of a call. -/
theorem advance_fail (e : Error) (w : ω) :
    advance t expire (fail e : Conversation α) w = (.finished (.error e), w) := rfl

end Steps

/-! ## The parts of the call -/

theorem lockWithin_eq : lockWithin handle mode limit =
    (send (lockCommand handle mode false).code (lockCommand handle mode false).body).bind
      (awaiting handle limit) := rfl

theorem giveUp_eq : (giveUp handle limit ticket : Conversation UInt64) =
    (send (Wire.Command.cancelLock handle).code (Wire.Command.cancelLock handle).body).bind
      (withdrawing handle limit ticket) := by
  refine congrArg (ask _) (funext fun (o : Option Nat) => ?_)
  cases o with
  | none => rfl
  | some withdrawal =>
    refine congrArg (Conversation.bind _) (funext fun any => ?_)
    cases any <;> rfl

theorem generation_of_body {generation : Nat}
    (hbody : r.body = (Wire.LockGrant.mk (UInt64.ofNat generation)).encode) :
    Conversation.generation r = done (UInt64.ofNat generation) := by
  have hdecode := Wire.LockGrant.decode_encode_append ⟨UInt64.ofNat generation⟩ []
  rw [List.append_nil] at hdecode
  show Conversation.bind (result .generation (Wire.LockGrant.decode r.body)) _ = _
  rw [hbody, hdecode]
  rfl

/-- A reply that grants the lock ends the call. -/
theorem answer_granted (hr : r.status = LockStatus.granted.toStatus) {generation : Nat}
    (hbody : r.body = (Wire.LockGrant.mk (UInt64.ofNat generation)).encode) :
    (ofExcept (accepted r)).bind granted = done (UInt64.ofNat generation) := by
  unfold accepted
  split
  · rename_i herror
    have herror : FaultCode.isError r.status = true := herror
    rw [hr] at herror
    exact absurd herror (by decide)
  · show granted r = _
    unfold granted
    rw [hr, LockStatus.ofStatus?_toStatus]
    exact generation_of_body hbody

/-- Any other reply does, too, but not for want of time. -/
theorem answer_refused (hr : LockStatus.ofStatus? r.status ≠ some .granted) :
    ∃ e, (ofExcept (accepted r)).bind granted = fail e ∧ e.fault? ≠ some .timeout := by
  unfold accepted
  split
  · exact ⟨_, rfl, nofun⟩
  · show ∃ e, granted r = fail e ∧ _
    unfold granted
    split
    · rename_i h
      exact absurd h hr
    · exact ⟨_, rfl, nofun⟩
    · exact ⟨_, rfl, nofun⟩

theorem undo_of_refused (hr : LockStatus.ofStatus? r.status ≠ some .granted) :
    ((undo handle (.ok r)).bind fun _ => fail (.tooLate handle limit) : Conversation UInt64) =
      fail (.tooLate handle limit) := by
  unfold undo
  dsimp only
  rw [if_neg hr]
  rfl

theorem releasing_eq (handle : UInt64) (limit release : Nat) :
    releasing handle limit release = (await release).attempt.bind fun _ =>
      fail (.tooLate handle limit) := by
  refine congrArg (ask _) (funext fun (o : Outcome) => ?_)
  cases o with
  | lost => rfl
  | replied r =>
    show Conversation.bind (Conversation.bind (attempt (Conversation.bind (Conversation.bind
      (done r) fun r => ofExcept (accepted r)) _)) _) _ = _
    show Conversation.bind (Conversation.bind (attempt (Conversation.bind
      (ofExcept (accepted r)) _)) _) _ = _
    cases accepted r <;> rfl

theorem withdrawing_eq (handle : UInt64) (limit ticket withdrawal : Nat) :
    withdrawing handle limit ticket withdrawal = (await withdrawal).bind fun r =>
      ((ofExcept (accepted r)).bind fun r => done (r.body.head?.any (· != 0))).bind fun any =>
        if any then fail (.tooLate handle limit) else undoing handle limit ticket := by
  unfold withdrawing
  rw [bind_assoc (await withdrawal), bind_assoc (await withdrawal)]

/-! ## Rules -/

section Rules

variable {expire : Bool} {withdrawal release : Nat}

theorem advance_awaiting_of_none (h : t.outcome? w ticket = none) :
    advance t false (awaiting handle limit ticket) w =
      (.stalled (awaiting handle limit ticket), w) := advance_awaitWithin_of_none h

theorem advance_awaiting_of_expired (h : t.outcome? w ticket = none) :
    advance t true (awaiting handle limit ticket) w =
      advance t true (giveUp handle limit ticket) w := advance_awaitWithin_of_expired h

/-- The call has got the lock. -/
theorem advance_awaiting_of_granted (h : t.outcome? w ticket = some (.replied r))
    (hr : r.status = LockStatus.granted.toStatus) {generation : Nat}
    (hbody : r.body = (Wire.LockGrant.mk (UInt64.ofNat generation)).encode) :
    advance t expire (awaiting handle limit ticket) w =
      (.finished (.ok (UInt64.ofNat generation)), w) := by
  have hreply : advance t expire (awaiting handle limit ticket) w =
      advance t expire ((ofExcept (accepted r)).bind granted) w := advance_awaitWithin_of_reply h
  rw [hreply, answer_granted hr hbody]
  rfl

/-- The call fails, but not for want of time. -/
theorem advance_awaiting_of_refused (h : t.outcome? w ticket = some (.replied r))
    (hr : LockStatus.ofStatus? r.status ≠ some .granted) :
    ∃ e, advance t expire (awaiting handle limit ticket) w = advance t expire (fail e) w ∧
      e.fault? ≠ some .timeout := by
  obtain ⟨e, heq, huntimed⟩ := answer_refused hr
  have hreply : advance t expire (awaiting handle limit ticket) w =
      advance t expire ((ofExcept (accepted r)).bind granted) w := advance_awaitWithin_of_reply h
  rw [heq] at hreply
  exact ⟨e, hreply, huntimed⟩

theorem advance_withdrawing_of_none (h : t.outcome? w withdrawal = none) :
    advance t expire (withdrawing handle limit ticket withdrawal) w =
      (.stalled (withdrawing handle limit ticket withdrawal), w) := by
  rw [withdrawing_eq]
  exact advance_await_of_none h

/-- Either something was withdrawn, and the call is over, or the request has been answered; or the
server has refused the withdrawal. -/
theorem advance_withdrawing_of_reply (h : t.outcome? w withdrawal = some (.replied r)) :
    advance t expire (withdrawing handle limit ticket withdrawal) w =
      advance t expire (if r.body.head?.any (· != 0) then fail (.tooLate handle limit)
        else undoing handle limit ticket) w ∨
    ∃ e, advance t expire (withdrawing handle limit ticket withdrawal) w =
      advance t expire (fail e) w ∧ e.fault? ≠ some .timeout := by
  rw [withdrawing_eq, advance_await_of_reply h]
  unfold accepted
  split
  · exact .inr ⟨_, rfl, nofun⟩
  · exact .inl rfl

theorem advance_undoing_of_none (h : t.outcome? w ticket = none) :
    advance t expire (undoing handle limit ticket) w =
      (.stalled (undoing handle limit ticket), w) := advance_attempt_of_none h

/-- Nothing has been granted that could be released. -/
theorem advance_undoing_of_refused (h : t.outcome? w ticket = some (.replied r))
    (hr : LockStatus.ofStatus? r.status ≠ some .granted) :
    advance t expire (undoing handle limit ticket) w =
      advance t expire (fail (.tooLate handle limit)) w := by
  have hreply : advance t expire (undoing handle limit ticket) w = advance t expire
      ((undo handle (.ok r)).bind fun _ => fail (.tooLate handle limit)) w :=
    advance_attempt_of_reply h
  rw [hreply, undo_of_refused hr]

/-- What was granted is released. -/
theorem advance_undoing_of_granted (h : t.outcome? w ticket = some (.replied r))
    (hr : LockStatus.ofStatus? r.status = some .granted)
    (hsend : t.send w (Wire.Command.release handle).code (Wire.Command.release handle).body =
      (some release, w')) :
    advance t expire (undoing handle limit ticket) w =
      advance t expire (releasing handle limit release) w' := by
  have hreply : advance t expire (undoing handle limit ticket) w = advance t expire
      ((undo handle (.ok r)).bind fun _ => fail (.tooLate handle limit)) w :=
    advance_attempt_of_reply h
  rw [hreply]
  unfold undo
  dsimp only
  rw [if_pos hr]
  show advance t expire (ask (.send (Wire.Command.release handle).code
    (Wire.Command.release handle).body) _) w = _
  rw [advance_ask_send, hsend]
  rfl

theorem advance_releasing_of_none (h : t.outcome? w release = none) :
    advance t expire (releasing handle limit release) w =
      (.stalled (releasing handle limit release), w) := by
  rw [releasing_eq]
  exact advance_attempt_of_none h

theorem advance_releasing_of_reply (h : t.outcome? w release = some (.replied r)) :
    advance t expire (releasing handle limit release) w =
      advance t expire (fail (.tooLate handle limit)) w := by
  rw [releasing_eq]
  exact advance_attempt_of_reply h

end Rules

end LeaseLock.Client.Conversation
