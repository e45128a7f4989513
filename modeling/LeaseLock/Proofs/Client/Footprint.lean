import LeaseLock.Proofs.Client.TimedLock
import LeaseLock.Proofs.Service.Refusal

/-
  LeaseLock: what the requests of a timed call do to everything else.
  Here anything may happen during the call, also that other calls of the client act on the handle.
  The call sends its request, a withdrawal, and a release only after a reply that grants its request
  (`Order.Stage`).  `Order.Tracks` says which tickets are the call's own and what is sent under
  them; it holds in the course of every run (`Order.Tracks.run`).  A session that held the lock, or
  waited for it, when the request was handled is never granted it, so the release does not come to
  pass; hence no request of the call takes a lock from anybody that was held before, or a place in a
  queue, with one exception (`lockWithin_spares`): a withdrawal names the handle only, and takes an
  earlier request of the same session for the one of the call.
-/

namespace LeaseLock

open Reactor Coordinator Service

namespace Client

/-! ## The call on its own -/

namespace Conversation

variable {ω : Type} {t : Transport ω} {w w' : ω} {handle : UInt64} {limit ticket withdrawal : Nat}
  {outcome : Outcome} {expire : Bool}

/-- Whatever becomes of the request, the call ends with it. -/
theorem ends_awaiting (h : t.outcome? w ticket = some outcome) :
    ∃ r, advance t expire (awaiting handle limit ticket) w = (.finished r, w) := by
  cases outcome with
  | lost =>
    refine ⟨.error (.unanswered true), ?_⟩
    show advance t expire (ask (.awaitWithin ticket limit) _) w = _
    rw [advance_ask_awaitWithin, h]
    rfl
  | replied r =>
    have hreply : advance t expire (awaiting handle limit ticket) w =
      advance t expire ((ofExcept (accepted r)).bind granted) w := advance_awaitWithin_of_reply h
    rw [hreply]
    unfold accepted
    split
    · exact ⟨_, rfl⟩
    · show ∃ r', advance t expire (granted r) w = (.finished r', w)
      unfold granted
      split
      · unfold generation
        cases Wire.LockGrant.decode r.body <;> exact ⟨_, rfl⟩
      · exact ⟨_, rfl⟩
      · exact ⟨_, rfl⟩

/-- Whatever becomes of the withdrawal, the call ends with it, or goes on with the request. -/
theorem goes_withdrawing (h : t.outcome? w withdrawal = some outcome) :
    (∃ r, advance t expire (withdrawing handle limit ticket withdrawal) w = (.finished r, w)) ∨
      advance t expire (withdrawing handle limit ticket withdrawal) w =
        advance t expire (undoing handle limit ticket) w := by
  cases outcome with
  | lost =>
    refine .inl ⟨.error (.unanswered false), ?_⟩
    rw [withdrawing_eq]
    show advance t expire (ask (.await withdrawal) _) w = _
    rw [advance_ask_await, h]
    rfl
  | replied r =>
    have hreply : advance t expire (withdrawing handle limit ticket withdrawal) w =
        advance t expire (if r.body.head?.any (· != 0) then fail (.tooLate handle limit)
          else undoing handle limit ticket) w ∨
      ∃ e, advance t expire (withdrawing handle limit ticket withdrawal) w =
        advance t expire (fail e) w ∧ e.fault? ≠ some .timeout := advance_withdrawing_of_reply h
    rcases hreply with heq | ⟨e, heq, -⟩
    · split at heq
      · exact .inl ⟨_, heq⟩
      · exact .inr heq
    · exact .inl ⟨_, heq⟩

/-- The call ends, unless its request has been granted. -/
theorem ends_undoing (h : t.outcome? w ticket = some outcome)
    (hnot : ∀ r, outcome = .replied r → LockStatus.ofStatus? r.status ≠ some .granted) :
    ∃ r, advance t expire (undoing handle limit ticket) w = (.finished r, w) := by
  cases outcome with
  | lost =>
    refine ⟨.error (.tooLate handle limit), ?_⟩
    show advance t expire (ask (.await ticket) _) w = _
    rw [advance_ask_await, h]
    rfl
  | replied r => exact ⟨_, advance_undoing_of_refused h (hnot r rfl)⟩

/-- Whatever becomes of the release, the call ends with it. -/
theorem ends_releasing {release : Nat} (h : t.outcome? w release = some outcome) :
    ∃ r, advance t expire (releasing handle limit release) w = (.finished r, w) := by
  refine ⟨.error (.tooLate handle limit), ?_⟩
  rw [releasing_eq]
  show advance t expire (ask (.await release) _) w = _
  rw [advance_ask_await, h]
  cases outcome <;> rfl

end Conversation

/-! ## Whatever else happens -/

namespace Exchange

variable {x : Exchange} {m : Move}

/-- The connection is bound to no session but this one. -/
def Bound (x : Exchange) (session : Nat) : Prop :=
  ∀ other, x.loop.world.sessionFor x.endpoint = some other → other = session

instance (x : Exchange) (session : Nat) : Decidable (x.Bound session) :=
  inferInstanceAs (Decidable (∀ other ∈ x.loop.world.sessionFor x.endpoint, other = session))

/-- What is laid down for a request stays there. -/
theorem outcome?_apply (hx : x.Tidy) (hm : x.Allows m) {ticket : Nat} {outcome : Outcome}
    (h : x.client.outcome? ticket = some outcome) :
    (x.apply m).client.outcome? ticket = some outcome := by
  cases m with
  | serve i => exact h
  | handle =>
    unfold apply
    dsimp only
    split <;> exact h
  | read =>
    unfold apply
    dsimp only
    split
    · exact h
    · unfold Connection.receive
      split
      · exact h
      · split
        · exact Connection.get?_settled_of_settled hx.wf h _ _
        · exact h
  | request command body =>
    show (x.submit command body).2.client.outcome? ticket = _
    rw [submit_of_free hx hm, Connection.start_of_free hm hx.writing]
    exact h

/-- A request that is on its way has been so, or gets a new ticket. -/
theorem mem_sent_apply (hx : x.Tidy) (hm : x.Allows m) {q : Nat × Wire.Request}
    (hq : q ∈ (x.apply m).sent) : q ∈ x.sent ∨ q.1 = x.client.nextTicket := by
  cases m with
  | serve i => exact .inl hq
  | handle =>
    unfold apply at hq
    dsimp only at hq
    split at hq
    · exact .inl hq
    · rename_i hs
      exact .inl (hs ▸ List.mem_cons_of_mem _ hq)
  | read => exact .inl (sent_read x ▸ hq)
  | request command body =>
    exact ((mem_sent_submit hx hm command body).1 hq).imp_right (congrArg Prod.fst)

theorem nextTicket_submit (hx : x.Tidy) (hf : x.client.Free) (command : UInt8) (body : Bytes) :
    (x.submit command body).2.client.nextTicket = x.client.nextTicket + 1 := by
  rw [submit_of_free hx hf, Connection.start_of_free hf hx.writing]

theorem nextTicket_le_apply (hx : x.Tidy) (hm : x.Allows m) :
    x.client.nextTicket ≤ (x.apply m).client.nextTicket := by
  cases m with
  | serve i => exact Nat.le_refl _
  | handle =>
    unfold apply
    dsimp only
    split <;> exact Nat.le_refl _
  | read =>
    unfold apply
    dsimp only
    split
    · exact Nat.le_refl _
    · unfold Connection.receive
      split
      · exact Nat.le_refl _
      · split
        · exact Nat.le_of_eq (Connection.nextTicket_settle _ _ _).symm
        · exact Nat.le_refl _
  | request command body =>
    exact Nat.le_of_lt (nextTicket_submit hx hm command body ▸ Nat.lt_succ_self _)

/-- The reply to a request that does not wait does not depend on the queue. -/
theorem Owed.vacate {ticket : Nat} {id : UInt32} {spot : Option (Nat × Waiter ReplyTo)}
    {P : Wire.Response → Prop} (ho : Owed x ticket id spot P)
    (hqueue : ∀ p ∈ x.coordinator.queue, p.2.reply ≠ ⟨x.endpoint, id⟩) :
    Owed x ticket id none P := by
  cases ho with
  | due waits handled queue frames =>
    exact .due waits handled (fun p hp hreply => absurd hreply (hqueue p hp)) frames
  | read outcome fits => exact .read outcome fits

/-- A reply that is certain stays certain. -/
theorem Owed.apply {ticket : Nat} {id : UInt32} {P : Wire.Response → Prop}
    (ho : Owed x ticket id none P) (hx : x.Tidy) (hm : x.Allows m) :
    Owed (x.apply m) ticket id none P := by
  cases m with
  | serve i =>
    obtain ⟨ops, own, hy⟩ := i.yields x.loop
    exact ho.served_of_none hx (served_serve hx hy hm)
  | handle =>
    cases hs : x.sent with
    | nil =>
      rw [apply_handle_of_nil hs]
      exact ho
    | cons q rest =>
      obtain ⟨ops, own, hserved, -⟩ := exists_served_handle hx hs
      exact ho.served_of_none hx hserved
  | read => exact ho.read_frame hx
  | request command body => exact ho.submit hx hm command body

end Exchange

namespace Calling

/-- A move of the call itself takes this ticket for a request. -/
def Takes (s : Calling) (ticket : Nat) : Move → Prop
  | .advance expire => s.exchange.client.nextTicket ≤ ticket ∧
      ticket < (s.advance expire).exchange.client.nextTicket
  | .other _ => False

/-- The call takes this ticket in the course of the moves. -/
def Took (s : Calling) (ticket : Nat) : List Move → Prop
  | [] => False
  | m :: rest => s.Takes ticket m ∨ (s.apply m).Took ticket rest

end Calling

namespace Order

open Conversation (awaiting withdrawing undoing releasing)

variable {o : Order} {s : Calling} {x x' : Exchange} {m : Calling.Move}
  {moves : List Calling.Move} {b : Coordinator.State ReplyTo}
  {b? : Option (Coordinator.State ReplyTo)} {mine : Nat → Prop}

/-- A move can happen, and the connection does not change its session. -/
def Tolerates (o : Order) (s : Calling) : Calling.Move → Prop
  | .other m => s.exchange.Bound o.session ∧ s.exchange.Allows m
  | .advance _ => s.exchange.client.Free

instance (o : Order) (s : Calling) (m : Calling.Move) : Decidable (o.Tolerates s m) :=
  match m with
  | .other _ => inferInstanceAs (Decidable (_ ∧ _))
  | .advance _ => inferInstanceAs (Decidable s.exchange.client.Free)

/-- All moves can happen, one after another. -/
def Tolerated (o : Order) (s : Calling) : List Calling.Move → Prop
  | [] => True
  | m :: rest => o.Tolerates s m ∧ o.Tolerated (s.apply m) rest

instance decidableTolerated (o : Order) :
    (s : Calling) → (moves : List Calling.Move) → Decidable (o.Tolerated s moves)
  | _, [] => isTrue trivial
  | s, m :: rest =>
    have := o.decidableTolerated (s.apply m) rest
    inferInstanceAs (Decidable (o.Tolerates s m ∧ _))

/-! ### How far the call is -/

/-- How far the call can be. -/
inductive Stage (o : Order) : Conversation.Progress UInt64 → Prop
  | awaiting : Stage o (.stalled (awaiting o.handle o.limit o.ticket))
  | withdrawing {ticket : Nat} : Stage o (.stalled (withdrawing o.handle o.limit o.ticket ticket))
  | undoing : Stage o (.stalled (undoing o.handle o.limit o.ticket))
  | releasing {ticket : Nat} : Stage o (.stalled (releasing o.handle o.limit ticket))
  | finished {r : Except Error UInt64} : Stage o (.finished r)

/-- The reply to the request grants it. -/
def Won (o : Order) (x : Exchange) : Prop :=
  ∃ r, x.client.outcome? o.ticket = some (.replied r) ∧
    LockStatus.ofStatus? r.status = some .granted

/-- What the call sends after its request: a withdrawal, or a release if the request has been
granted. -/
def Undoes (o : Order) (x : Exchange) (command : Wire.Command) : Prop :=
  command = .cancelLock o.handle ∨ command = .release o.handle ∧ o.Won x

/-- What the call does when it is carried on. -/
inductive Strides (o : Order) (x : Exchange) : Calling → Prop
  /-- It sends nothing. -/
  | rests {p : Conversation.Progress UInt64} (stage : o.Stage p) : Strides o x ⟨p, x⟩
  /-- It sends one more request. -/
  | sends {p : Conversation.Progress UInt64} {command : Wire.Command} (stage : o.Stage p)
      (undoes : o.Undoes x command) : Strides o x ⟨p, (x.submit command.code command.body).2⟩

theorem Strides.of_end {rest : Conversation UInt64} {expire : Bool}
    (h : ∃ r, Conversation.advance Exchange.transport expire rest x = (.finished r, x)) :
    o.Strides x (Calling.carry expire rest x) := by
  obtain ⟨r, h⟩ := h
  rw [Calling.carry_eq h]
  exact .rests .finished

theorem strides_undoing (hx : x.Tidy) (hf : x.client.Free) (expire : Bool) :
    o.Strides x (Calling.carry expire (undoing o.handle o.limit o.ticket) x) := by
  cases ho : x.client.outcome? o.ticket with
  | none =>
    rw [Calling.carry_eq (Conversation.advance_undoing_of_none ho)]
    exact .rests .undoing
  | some outcome =>
    by_cases hwon : o.Won x
    · obtain ⟨r, hr, hgranted⟩ := hwon
      rw [carry_undoing hx hf expire o.handle o.limit hr hgranted]
      exact .sends .releasing (.inr ⟨rfl, r, hr, hgranted⟩)
    · refine .of_end (Conversation.ends_undoing ho ?_)
      rintro r rfl hgranted
      exact hwon ⟨r, ho, hgranted⟩

/-- The call is carried on. -/
theorem strides_advance (hs : o.Stage s.progress) (hx : s.exchange.Tidy)
    (hf : s.exchange.client.Free) (expire : Bool) :
    o.Strides s.exchange (s.advance expire) := by
  obtain ⟨p, x⟩ := s
  cases hs with
  | awaiting =>
    cases ho : x.client.outcome? o.ticket with
    | some outcome => exact .of_end (Conversation.ends_awaiting ho)
    | none =>
      show o.Strides x (Calling.carry expire (awaiting o.handle o.limit o.ticket) x)
      cases expire with
      | false =>
        rw [Calling.carry_eq (Conversation.advance_awaiting_of_none ho)]
        exact .rests .awaiting
      | true =>
        rw [Calling.carry_congr (Conversation.advance_awaiting_of_expired ho), carry_giveUp hx hf]
        exact .sends .withdrawing (.inl rfl)
  | @withdrawing withdrawal =>
    show o.Strides x (Calling.carry expire (withdrawing o.handle o.limit o.ticket withdrawal) x)
    cases ho : x.client.outcome? withdrawal with
    | none =>
      rw [Calling.carry_eq (Conversation.advance_withdrawing_of_none ho)]
      exact .rests .withdrawing
    | some outcome =>
      rcases Conversation.goes_withdrawing (t := Exchange.transport) ho with hend | heq
      · exact .of_end hend
      · rw [Calling.carry_congr heq]
        exact strides_undoing hx hf expire
  | undoing => exact strides_undoing hx hf expire
  | @releasing release =>
    show o.Strides x (Calling.carry expire (releasing o.handle o.limit release) x)
    cases ho : x.client.outcome? release with
    | none =>
      rw [Calling.carry_eq (Conversation.advance_releasing_of_none ho)]
      exact .rests .releasing
    | some outcome => exact .of_end (Conversation.ends_releasing ho)
  | finished => exact .rests .finished

/-! ### The request is handled -/

/-- Whoever holds the lock or waits for it is refused. -/
theorem owed_of_involved (hx : x.Tidy) (hbound : x.Bound o.session)
    (hendpoint : x.endpoint = o.dest.endpoint) {rest : List (Nat × Wire.Request)}
    (hsent : x.sent = (o.ticket, o.request) :: rest)
    (hi : x.coordinator.Involved o.handle.toNat o.session) :
    (x.apply .handle).Owed o.ticket o.dest.id none Bid.refused.Fits := by
  have hdest : (⟨x.endpoint, o.request.id⟩ : ReplyTo) = o.dest :=
    congrArg (ReplyTo.mk · o.dest.id) hendpoint
  obtain ⟨ops, own, hw, hh, herrs⟩ := worked_lock x.endpoint o.decode_lock x.loop
  rw [hdest] at hh
  have hops : ∀ op ∈ ops, op.Harmless ∨ op = .dispatch o.session
      (Wire.LockRequest.mk o.handle o.mode.bits false).encode o.dest := by
    intro op hm
    refine (hh.licit op hm).imp_right fun hasked => ?_
    obtain ⟨session, hs, heq⟩ := Option.map_eq_some_iff.1 hasked
    rw [← heq, hbound session hs]
  have hs : x.Served ops own (x.apply .handle) :=
    Exchange.served_handle hx hsent hw.toCarries (hdest ▸ hh.addresses)
  have hnot := hx.not_queued (hsent ▸ List.mem_cons_self)
  rw [hdest] at hnot
  obtain ⟨hqueue, htold⟩ := Coordinator.State.refused_after hx.server.coherent o.readRequest_lock
    hops hi hnot
  have howed : (x.apply .handle).Owed o.ticket o.dest.id (some (o.handle.toNat, o.waiter))
      Bid.refused.Fits := by
    refine .of_handle hx hs hsent (Exchange.sent_handle hsent) (fun op hm p hp hreply => ?_)
      (fun a ha => ?_) fun p hp _ => ?_
    · rcases hops op hm with hharmless | rfl
      · cases hharmless.request?.symm.trans hp
      · rw [Operation.request?, readRequest_lock] at hp
        exact hp
    · obtain ⟨fault, rfl⟩ := htold a (hdest ▸ ha)
      exact Bid.fault_not_granted fault.code
    · obtain ⟨code, hcode⟩ := herrs p hp
      rw [Bid.Fits, hcode]
      exact Bid.fault_not_granted code
  refine howed.vacate fun p hp => ?_
  rw [hs.coordinator] at hp
  rw [hs.endpoint]
  exact hdest ▸ hqueue p hp

/-! ### Tickets of the call -/

/-- Whether the server has come to the request of the call, and in which state it was then. -/
inductive Since (o : Order) (x : Exchange) : Option (Coordinator.State ReplyTo) → Prop
  | before {first last : List (Nat × Wire.Request)}
      (sent : x.sent = first ++ (o.ticket, o.request) :: last)
      (older : ∀ q ∈ first, q.1 < o.ticket) : Since o x none
  | after {b : Coordinator.State ReplyTo} (handled : ∀ q ∈ x.sent, q.1 ≠ o.ticket)
      (refused : b.Involved o.handle.toNat o.session →
        x.Owed o.ticket o.dest.id none Bid.refused.Fits) : Since o x (some b)

/-- The call has taken the tickets `mine`, and its request was handled in the state `b?`. -/
structure Tracks (o : Order) (s : Calling) (mine : Nat → Prop)
    (b? : Option (Coordinator.State ReplyTo)) : Prop where
  tidy : s.exchange.Tidy
  endpoint : s.exchange.endpoint = o.dest.endpoint
  stage : o.Stage s.progress
  first : mine o.ticket
  taken : ∀ ticket, mine ticket → o.ticket ≤ ticket ∧ ticket < s.exchange.client.nextTicket
  sends : ∀ q ∈ s.exchange.sent, mine q.1 → q = (o.ticket, o.request) ∨
    ∃ command, q.2 = command.request q.2.id ∧ o.Undoes s.exchange command
  since : o.Since s.exchange b?

theorem Undoes.apply {m : Exchange.Move} {command : Wire.Command} (hu : o.Undoes x command)
    (hx : x.Tidy) (hm : x.Allows m) : o.Undoes (x.apply m) command :=
  hu.imp_right fun ⟨heq, r, hr, hgranted⟩ =>
    ⟨heq, r, Exchange.outcome?_apply hx hm hr, hgranted⟩

namespace Since

theorem submit (hs : o.Since x b?) (hx : x.Tidy) (hf : x.client.Free)
    (hlt : o.ticket < x.client.nextTicket) (command : UInt8) (body : Bytes) :
    o.Since (x.submit command body).2 b? := by
  cases hs with
  | @before first last sent older =>
    have hsent : (x.submit command body).2.sent = first ++ (o.ticket, o.request) ::
        (last ++ [(x.client.nextTicket, ⟨x.client.nextId, command, body⟩)]) := by
      rw [Exchange.submit_of_free hx hf]
      show x.sent ++ [_] = _
      rw [sent, List.append_assoc]
      rfl
    exact .before hsent older
  | after handled refused =>
    refine .after (fun q hq => ?_) fun hi => (refused hi).submit hx hf command body
    rcases (Exchange.mem_sent_submit hx hf command body).1 hq with hold | rfl
    · exact handled q hold
    · exact (Nat.ne_of_lt hlt).symm

/-- The server handles the next request. -/
theorem handle (hs : o.Since s.exchange b?) (hx : s.exchange.Tidy)
    (hbound : s.exchange.Bound o.session) (hendpoint : s.exchange.endpoint = o.dest.endpoint) :
    o.Since (s.exchange.apply .handle)
      (b?.or (if o.Meets s (.other .handle) then some s.exchange.coordinator else none)) := by
  cases hs with
  | @before first last sent older =>
    cases first with
    | nil =>
      have hmeets : o.Meets s (.other .handle) := by
        show s.exchange.sent.head?.map (·.1) = some o.ticket
        rw [sent]
        rfl
      rw [if_pos hmeets]
      refine .after (fun q hq heq => ?_) fun hi => owed_of_involved hx hbound hendpoint sent hi
      -- tickets are not taken twice
      rw [Exchange.sent_handle sent] at hq
      have hnodup := hx.nodup
      rw [Exchange.underway, sent] at hnodup
      refine (List.nodup_cons.1 hnodup).1 (List.mem_append_left _ (List.mem_map.2 ⟨q, hq, ?_⟩))
      have hfirst := hx.sent (o.ticket, o.request) (sent ▸ List.mem_cons_self)
      have hother := hx.sent q (sent ▸ List.mem_cons_of_mem _ hq)
      rw [heq] at hother
      exact UInt32.toNat_inj.1 (hx.wf.single _ _ _ hother hfirst)
    | cons q rest =>
      have hmeets : ¬ o.Meets s (.other .handle) := by
        show s.exchange.sent.head?.map (·.1) ≠ some o.ticket
        rw [sent]
        exact fun h => Nat.ne_of_lt (older q List.mem_cons_self) (Option.some.inj h)
      rw [if_neg hmeets]
      exact .before (Exchange.sent_handle sent) fun q hq => older q (List.mem_cons_of_mem _ hq)
  | after handled refused =>
    refine .after (fun q hq => ?_) fun hi => (refused hi).apply hx trivial
    unfold Exchange.apply at hq
    dsimp only at hq
    split at hq
    · exact handled q hq
    · rename_i hs
      exact handled q (hs ▸ List.mem_cons_of_mem _ hq)

end Since

namespace Tracks

/-- Something happens that is not done by the call. -/
theorem other (ht : o.Tracks s mine b?) {m : Exchange.Move} (hp : o.Tolerates s (.other m)) :
    o.Tracks (s.apply (.other m)) mine
      (b?.or (if o.Meets s (.other m) then some s.exchange.coordinator else none)) := by
  obtain ⟨hbound, hallows⟩ := hp
  refine ⟨ht.tidy.apply hallows, ?_, ht.stage, ht.first, fun ticket hm => ?_, fun q hq hm => ?_, ?_⟩
  · refine Eq.trans ?_ ht.endpoint
    cases m with
    | serve i => rfl
    | handle =>
      show (s.exchange.apply .handle).endpoint = _
      unfold Exchange.apply
      dsimp only
      split <;> rfl
    | read => exact Exchange.endpoint_read _
    | request command body =>
      show (s.exchange.submit command body).2.endpoint = _
      rw [Exchange.submit_of_free ht.tidy hallows]
  · obtain ⟨hle, hlt⟩ := ht.taken ticket hm
    exact ⟨hle, Nat.lt_of_lt_of_le hlt (Exchange.nextTicket_le_apply ht.tidy hallows)⟩
  · rcases Exchange.mem_sent_apply ht.tidy hallows hq with hold | hnew
    · exact (ht.sends q hold hm).imp_right fun ⟨command, heq, hu⟩ =>
        ⟨command, heq, hu.apply ht.tidy hallows⟩
    · exact absurd (ht.taken _ hm).2 (hnew ▸ Nat.lt_irrefl _)
  · have hlt := (ht.taken _ ht.first).2
    cases m with
    | handle => exact ht.since.handle ht.tidy hbound ht.endpoint
    | request command body =>
      rw [if_neg (show ¬ o.Meets s (.other (.request command body)) from id), Option.or_none]
      exact ht.since.submit ht.tidy hallows hlt command body
    | serve i =>
      rw [if_neg (show ¬ o.Meets s (.other (.serve i)) from id), Option.or_none]
      cases ht.since with
      | before sent older => exact .before sent older
      | after handled refused =>
        exact .after handled fun hi => (refused hi).apply ht.tidy hallows
    | read =>
      rw [if_neg (show ¬ o.Meets s (.other .read) from id), Option.or_none]
      cases ht.since with
      | before sent older => exact .before ((Exchange.sent_read _).trans sent) older
      | after handled refused =>
        refine .after (fun q hq => handled q (Exchange.sent_read _ ▸ hq)) fun hi => ?_
        exact (refused hi).apply ht.tidy hallows

/-- The call is carried on. -/
theorem advance (ht : o.Tracks s mine b?) (hf : s.exchange.client.Free) (expire : Bool) :
    o.Tracks (s.advance expire) (fun ticket => mine ticket ∨ s.Takes ticket (.advance expire))
      b? := by
  have hstrides := strides_advance ht.stage ht.tidy hf expire
  show o.Tracks (s.advance expire) (fun ticket => mine ticket ∨
    s.exchange.client.nextTicket ≤ ticket ∧
      ticket < (s.advance expire).exchange.client.nextTicket) b?
  generalize s.advance expire = s' at hstrides ⊢
  cases hstrides with
  | rests stage =>
    have hnone : ∀ ticket, ¬ (s.exchange.client.nextTicket ≤ ticket ∧
        ticket < s.exchange.client.nextTicket) := fun ticket h => by omega
    exact ⟨ht.tidy, ht.endpoint, stage, .inl ht.first,
      fun ticket hm => ht.taken ticket (hm.resolve_right (hnone ticket)),
      fun q hq hm => ht.sends q hq (hm.resolve_right (hnone q.1)), ht.since⟩
  | @sends p command stage undoes =>
    have hnext := Exchange.nextTicket_submit ht.tidy hf command.code command.body
    refine ⟨ht.tidy.submit hf _ _, ?_, stage, .inl ht.first, fun ticket hm => ?_, fun q hq hm => ?_,
      ht.since.submit ht.tidy hf (ht.taken _ ht.first).2 _ _⟩
    · show (s.exchange.submit command.code command.body).2.endpoint = _
      rw [Exchange.submit_of_free ht.tidy hf]
      exact ht.endpoint
    · dsimp only at hm ⊢
      have hfirst := (ht.taken _ ht.first).2
      rcases hm with hm | hm
      · have htaken := ht.taken ticket hm
        omega
      · omega
    · have hkeeps : ∀ c, o.Undoes s.exchange c →
          o.Undoes (s.exchange.submit command.code command.body).2 c :=
        fun c hu => Undoes.apply (m := .request command.code command.body) hu ht.tidy hf
      rcases (Exchange.mem_sent_submit ht.tidy hf _ _).1 hq with hold | rfl
      · have hwaits := ht.tidy.wf.waiting_lt _ _ (ht.tidy.sent q hold)
        refine (ht.sends q hold (hm.resolve_right fun h => by omega)).imp_right ?_
        exact fun ⟨c, heq, hu⟩ => ⟨c, heq, hkeeps c hu⟩
      · exact .inr ⟨command, rfl, hkeeps command undoes⟩

theorem step (ht : o.Tracks s mine b?) (hp : o.Tolerates s m) :
    o.Tracks (s.apply m) (fun ticket => mine ticket ∨ s.Takes ticket m)
      (b?.or (if o.Meets s m then some s.exchange.coordinator else none)) := by
  cases m with
  | other m =>
    have hsame : (fun ticket => mine ticket ∨ s.Takes ticket (.other m)) = mine :=
      funext fun ticket => propext (or_iff_left nofun)
    rw [hsame]
    exact ht.other hp
  | advance expire =>
    rw [if_neg (show ¬ o.Meets s (.advance expire) from id), Option.or_none]
    exact ht.advance hp expire

/-- Whatever happens, the call's own tickets are known. -/
theorem run (ht : o.Tracks s mine b?) (hp : o.Tolerated s moves) :
    o.Tracks (s.run moves) (fun ticket => mine ticket ∨ s.Took ticket moves)
      (b?.or (o.met? s moves)) := by
  induction moves generalizing s mine b? with
  | nil =>
    have hsame : (fun ticket => mine ticket ∨ s.Took ticket []) = mine :=
      funext fun ticket => propext (or_iff_left nofun)
    rw [hsame]
    exact Option.or_none.symm ▸ ht
  | cons m rest ih =>
    have hrest := ih (ht.step hp.1) hp.2
    have hmine : (fun ticket => (mine ticket ∨ s.Takes ticket m) ∨ (s.apply m).Took ticket rest) =
        fun ticket => mine ticket ∨ s.Took ticket (m :: rest) :=
      funext fun ticket => propext or_assoc
    have hmet : (b?.or (if o.Meets s m then some s.exchange.coordinator else none)).or
        (o.met? (s.apply m) rest) = b?.or (o.met? s (m :: rest)) := by
      rw [Option.or_assoc, met?]
      split <;> rfl
    rw [← hmine, ← hmet]
    exact hrest

end Tracks

/-! ## What a request of the call leaves to everybody -/

/-- A request of the call leads from `c` to `c'`, and takes nothing from anybody that was there in
the state `b`, when the call's own request was handled. -/
structure Spared (o : Order) (r : Wire.Request) (b c c' : Coordinator.State ReplyTo) : Prop where
  /-- A lock is still held. -/
  locks : ∀ handle session mode, b.Locked handle session mode → c.Locked handle session mode →
    c'.Locked handle session mode
  /-- A request still waits or gets the lock now, unless it is an earlier one of the same session
  for the handle, and is withdrawn. -/
  requests : ∀ handle, ∀ w ∈ b.line handle, w ∈ c.line handle →
    w ∈ c'.line handle ∨ c'.Locked handle w.session w.mode ∨
      handle = o.handle.toNat ∧ w.session = o.session ∧
        r = (Wire.Command.cancelLock o.handle).request r.id
  /-- Whoever still waits stands as before, and nobody but the call joins a queue. -/
  order : ∀ handle, ∃ joined, (c'.line handle).Sublist (c.line handle ++ joined) ∧
    ∀ w ∈ joined, w = o.waiter

section Spared

variable {c : Coordinator.State ReplyTo} {r : Wire.Request} {ops : List (Operation ReplyTo)}

/-- Harmless operations, and one that acts for the session on the handle only. -/
theorem spared_of_licit (op : Operation ReplyTo) (hc : Coherent [] (fun _ _ => False) c)
    (hops : ∀ op' ∈ ops, op'.Harmless ∨ op' = op)
    (hidle : ∀ session handle, ¬ (session = o.session ∧ handle = o.handle.toNat) →
      ∀ s : Coordinator.State ReplyTo, ¬ s.ActsOn op session handle)
    (hlocks : b.Involved o.handle.toNat o.session → op.KeepsLocks o.handle.toNat o.session)
    (hrequests : b.Involved o.handle.toNat o.session →
      op.KeepsRequests o.handle.toNat o.session ∨
        r = (Wire.Command.cancelLock o.handle).request r.id)
    (hjoins : ∀ handle w, op.request? = some (handle, w) → w = o.waiter) :
    o.Spared r b c (c.after ops) := by
  -- elsewhere, nobody acts
  have helsewhere : ∀ session handle, ¬ (session = o.session ∧ handle = o.handle.toNat) →
      ∀ op' ∈ ops, op'.KeepsLocks handle session ∧ op'.KeepsRequests handle session := by
    intro session handle hne op' hm
    have hnot : ∀ s : Coordinator.State ReplyTo, ¬ s.ActsOn op' session handle := by
      rcases hops op' hm with hharmless | rfl
      · exact fun s => hharmless.not_actsOn s session handle
      · exact hidle session handle hne
    exact ⟨Operation.keepsLocks_of_idle hnot, Operation.keepsRequests_of_idle hnot⟩
  have hkeeps : b.Involved o.handle.toNat o.session → ∀ op' ∈ ops,
      op'.KeepsLocks o.handle.toNat o.session := by
    intro hi op' hm
    rcases hops op' hm with hharmless | rfl
    · exact Operation.keepsLocks_of_idle fun s => hharmless.not_actsOn s _ _
    · exact hlocks hi
  refine ⟨fun handle session mode hb hl => ?_, fun handle w hb hw => ?_, fun handle => ?_⟩
  · by_cases hne : session = o.session ∧ handle = o.handle.toNat
    · obtain ⟨rfl, rfl⟩ := hne
      exact Coordinator.State.locked_after hc (hkeeps (.inl ⟨mode, hb⟩)) hl
    · exact Coordinator.State.locked_after hc (fun op' hm => (helsewhere _ _ hne op' hm).1) hl
  · by_cases hne : w.session = o.session ∧ handle = o.handle.toNat
    · obtain ⟨hsession, rfl⟩ := hne
      have hi : b.Involved o.handle.toNat o.session := .inr ⟨w, hb, hsession⟩
      rcases hrequests hi with hkeepsRequests | hcancel
      · refine (Coordinator.State.waits_or_locked_after hc (hsession ▸ hkeeps hi)
          (fun op' hm => ?_) hw).imp_right .inl
        rw [hsession]
        rcases hops op' hm with hharmless | rfl
        · exact Operation.keepsRequests_of_idle fun s => hharmless.not_actsOn s _ _
        · exact hkeepsRequests
      · exact .inr (.inr ⟨rfl, hsession, hcancel⟩)
    · exact (Coordinator.State.waits_or_locked_after hc
        (fun op' hm => (helsewhere _ _ hne op' hm).1)
        (fun op' hm => (helsewhere _ _ hne op' hm).2) hw).imp_right .inl
  · obtain ⟨joined, hline, hjoined⟩ := Coordinator.State.line_after hc handle
    refine ⟨joined, hline, fun w hw => ?_⟩
    obtain ⟨op', hm, hrequest⟩ := hjoined w hw
    rcases hops op' hm with hharmless | rfl
    · cases hharmless.request?.symm.trans hrequest
    · exact hjoins handle w hrequest

end Spared

/-- What comes of a request over a connection that is bound to nobody else. -/
theorem licit_of_handle (hx : x.Tidy) (hbound : x.Bound o.session) {q : Nat × Wire.Request}
    {rest : List (Nat × Wire.Request)} (hsent : x.sent = q :: rest) {command : Wire.Command}
    (hc : Wire.Command.decode q.2.command q.2.body = .ok (some command)) :
    ∃ ops, (x.apply .handle).coordinator = x.coordinator.after ops ∧ ∀ op ∈ ops,
      op.Harmless ∨ operation? ⟨x.endpoint, q.2.id⟩ o.session command = some op := by
  obtain ⟨ops, own, hs, hh⟩ := Exchange.exists_served_handle hx hsent
  refine ⟨ops, hs.coordinator, fun op hm => (hh.licit op hm).imp_right fun hasked => ?_⟩
  obtain ⟨session, hsession, hasks⟩ := Option.bind_eq_some_iff.1 hasked
  rw [← asks_encode hc, ← hbound session hsession]
  exact hasks

theorem spared_lock (hx : x.Tidy) (hbound : x.Bound o.session)
    (hendpoint : x.endpoint = o.dest.endpoint) {rest : List (Nat × Wire.Request)}
    (hsent : x.sent = (o.ticket, o.request) :: rest) :
    o.Spared o.request x.coordinator x.coordinator (x.apply .handle).coordinator := by
  obtain ⟨ops, heq, hlicit⟩ := licit_of_handle hx hbound hsent o.decode_lock
  have hdest : (⟨x.endpoint, o.request.id⟩ : ReplyTo) = o.dest :=
    congrArg (ReplyTo.mk · o.dest.id) hendpoint
  rw [heq]
  refine spared_of_licit (.dispatch o.session
    (Wire.LockRequest.mk o.handle o.mode.bits false).encode o.dest)
    hx.server.coherent (fun op hm => (hlicit op hm).imp_right fun h => ?_)
    (fun session handle hne s => ?_)
    (fun _ => Operation.keepsLocks_dispatch o.readRequest_lock o.dest)
    (fun _ => .inl (Operation.keepsRequests_dispatch o.readRequest_lock o.dest))
    fun handle w hw => ?_
  · rw [hdest] at h
    exact (Option.some.inj h).symm
  · rintro (⟨hsession, request, mode, hread, hhandle⟩ | ⟨now, owner, heq, -⟩)
    · rw [readRequest_lock] at hread
      cases hread
      exact hne ⟨hsession, hhandle⟩
    · cases heq
  · rw [Operation.request?, readRequest_lock] at hw
    cases hw
    rfl

theorem spared_cancel (hx : x.Tidy) (hbound : x.Bound o.session) {q : Nat × Wire.Request}
    {rest : List (Nat × Wire.Request)} (hsent : x.sent = q :: rest)
    (hq : q.2 = (Wire.Command.cancelLock o.handle).request q.2.id) :
    o.Spared q.2 b x.coordinator (x.apply .handle).coordinator := by
  have hdecode : Wire.Command.decode q.2.command q.2.body =
      .ok (some (.cancelLock o.handle)) := by
    rw [hq]
    exact decode_cancelLock o.handle _
  obtain ⟨ops, heq, hlicit⟩ := licit_of_handle hx hbound hsent hdecode
  rw [heq]
  refine spared_of_licit (.cancel o.session o.handle.toNat) hx.server.coherent
    (fun op hm => (hlicit op hm).imp_right fun h => (Option.some.inj h).symm)
    (fun session handle hne s => ?_) (fun _ => Operation.keepsLocks_cancel _ _)
    (fun _ => .inr hq) nofun
  rintro (htouches | ⟨now, owner, heq, -⟩)
  · exact hne htouches
  · cases heq

/-- A release is sent for a request that was granted. -/
theorem spared_release (hx : x.Tidy) (hbound : x.Bound o.session) {q : Nat × Wire.Request}
    {rest : List (Nat × Wire.Request)} (hsent : x.sent = q :: rest)
    (hq : q.2 = (Wire.Command.release o.handle).request q.2.id)
    (hfree : ¬ b.Involved o.handle.toNat o.session) :
    o.Spared q.2 b x.coordinator (x.apply .handle).coordinator := by
  have hdecode : Wire.Command.decode q.2.command q.2.body = .ok (some (.release o.handle)) := by
    rw [hq]
    exact decode_release o.handle _
  obtain ⟨ops, heq, hlicit⟩ := licit_of_handle hx hbound hsent hdecode
  rw [heq]
  refine spared_of_licit (.release o.session o.handle.toNat) hx.server.coherent
    (fun op hm => (hlicit op hm).imp_right fun h => (Option.some.inj h).symm)
    (fun session handle hne s => ?_) (fun hi => absurd hi hfree) (fun hi => absurd hi hfree) nofun
  rintro (htouches | ⟨now, owner, heq, -⟩)
  · exact hne htouches
  · cases heq

/-- The server comes to a request of the call. -/
theorem Tracks.spared (ht : o.Tracks s mine b?) (hbound : s.exchange.Bound o.session)
    {q : Nat × Wire.Request} {rest : List (Nat × Wire.Request)}
    (hsent : s.exchange.sent = q :: rest) (hown : mine q.1) :
    ∃ b, b?.or (if o.Meets s (.other .handle) then some s.exchange.coordinator else none) = some b ∧
      o.Spared q.2 b s.exchange.coordinator (s.exchange.apply .handle).coordinator := by
  have hq : q ∈ s.exchange.sent := hsent ▸ List.mem_cons_self
  cases ht.since with
  | @before first last sent older =>
    cases first with
    | nil =>
      have hmeets : o.Meets s (.other .handle) := by
        show s.exchange.sent.head?.map (·.1) = some o.ticket
        rw [sent]
        rfl
      obtain rfl : (o.ticket, o.request) = q := (List.cons.inj (sent.symm.trans hsent)).1
      exact ⟨_, if_pos hmeets, spared_lock ht.tidy hbound ht.endpoint hsent⟩
    | cons p first =>
      -- the tickets of the call are not older than its request
      obtain rfl : p = q := (List.cons.inj (sent.symm.trans hsent)).1
      have holder := older p List.mem_cons_self
      have hle := (ht.taken p.1 hown).1
      omega
  | @after b handled refused =>
    refine ⟨b, rfl, ?_⟩
    rcases ht.sends q hq hown with rfl | ⟨command, heq, rfl | ⟨rfl, r, hr, hgranted⟩⟩
    · exact absurd rfl (handled _ hq)
    · exact spared_cancel ht.tidy hbound hsent heq
    · refine spared_release ht.tidy hbound hsent heq fun hi => ?_
      obtain ⟨r', hr', hfits⟩ := (refused hi).outcome ht.tidy hr
      obtain rfl : r = r' := Outcome.replied.inj hr'
      exact hfits hgranted

/-- The call has just been made. -/
theorem tracks_start (hx : x.Tidy) (hf : x.client.Free) (session : Nat) (handle : UInt64)
    (mode : Mode) (limit : Nat) : (x.order session handle mode limit).Tracks
      (.start x handle mode limit) (· = x.client.nextTicket) none := by
  have hb : (x.order session handle mode limit).Before (.start x handle mode limit) x.sent []
      none := .start hx hf session handle mode limit
  have hstart : Calling.start x handle mode limit =
      ⟨.stalled (awaiting handle limit x.client.nextTicket),
        (x.submit (Conversation.lockCommand handle mode false).code
          (Conversation.lockCommand handle mode false).body).2⟩ := by
    refine Calling.carry_eq ?_
    rw [Conversation.lockWithin_eq, Conversation.advance_send (send_of_free hx hf _)]
    exact Conversation.advance_awaiting_of_none (outcome_of_submit hx hf _)
  have holder : ∀ q ∈ x.sent, q.1 < x.client.nextTicket :=
    fun q hq => hx.wf.waiting_lt _ _ (hx.sent q hq)
  refine ⟨hb.tidy, hb.endpoint, ?_, rfl, ?_, fun q hq hown => ?_, .before hb.sent holder⟩
  · rw [hstart]
    exact .awaiting
  · rintro ticket rfl
    refine ⟨Nat.le_refl _, ?_⟩
    rw [hstart]
    exact Nat.lt_of_lt_of_eq (Nat.lt_succ_self _) (Exchange.nextTicket_submit hx hf _ _).symm
  · rw [hb.sent] at hq
    rcases List.mem_append.1 hq with hold | hnew
    · exact absurd hown (Nat.ne_of_lt (holder q hold))
    · exact .inl (List.mem_singleton.1 hnew)

theorem met?_append (o : Order) (s : Calling) (moves : List Calling.Move) (m : Calling.Move) :
    o.met? s (moves ++ [m]) = (o.met? s moves).or
      (if o.Meets (s.run moves) m then some (s.run moves).exchange.coordinator else none) := by
  induction moves generalizing s with
  | nil => rfl
  | cons m' rest ih =>
    rw [List.cons_append, met?, met?, ih]
    split <;> rfl

theorem tolerated_append (o : Order) (s : Calling) (moves : List Calling.Move)
    (m : Calling.Move) :
    o.Tolerated s (moves ++ [m]) ↔ o.Tolerated s moves ∧ o.Tolerates (s.run moves) m := by
  induction moves generalizing s with
  | nil => exact and_comm
  | cons m' rest ih =>
    rw [List.cons_append, Tolerated, Tolerated, ih]
    exact and_assoc.symm

end Order

/-- A call for a lock with a time limit, while anything else may happen, also to the handle.  When
the server comes to a request of the call, be it the request for the lock, its withdrawal or the
release, nobody loses a lock that was held before the request for the lock was handled, or a place
in a queue; but the withdrawal ends an earlier request of the same session that still waits for the
handle. -/
theorem lockWithin_spares {x : Exchange} (hx : Exchange.Reached x) (hf : x.client.Free)
    {session : Nat} {handle : UInt64} {mode : Mode} {limit : Nat} {moves : List Calling.Move}
    (hp : (x.order session handle mode limit).Tolerated (.start x handle mode limit)
      (moves ++ [.other .handle])) {q : Nat × Wire.Request} {rest : List (Nat × Wire.Request)}
    (hsent : ((Calling.start x handle mode limit).run moves).exchange.sent = q :: rest)
    (hown : q.1 = x.client.nextTicket ∨
      (Calling.start x handle mode limit).Took q.1 moves) :
    let o := x.order session handle mode limit
    let s := (Calling.start x handle mode limit).run moves
    ∃ b, o.met? (.start x handle mode limit) (moves ++ [.other .handle]) = some b ∧
      o.Spared q.2 b s.exchange.coordinator (s.exchange.apply .handle).coordinator := by
  intro o s
  obtain ⟨hmoves, hlast⟩ := (o.tolerated_append _ _ _).1 hp
  have ht := (Order.tracks_start hx.tidy hf session handle mode limit).run hmoves
  rw [Option.none_or] at ht
  rw [o.met?_append]
  exact ht.spared hlast.1 hsent hown

/-! ## A withdrawal that ends another request -/

/-- The session of the second connection already waits for the lock. -/
def queued : Exchange :=
  let command := Conversation.lockCommand 1 .exclusive false
  (contended.apply (.request command.code command.body)).apply .handle

/-- The time is up before the reply has come, and the request is refused. -/
def hasty : List Calling.Move := [.advance true, .other .handle]

theorem reached_queued : Exchange.Reached queued := by
  unfold queued
  refine .apply (.apply reached_contended ?_) trivial
  decide +kernel

theorem lockWithin_spares_hasty :
    let o := queued.order 2 1 .exclusive 5
    let s := (Calling.start queued 1 .exclusive 5).run hasty
    ∃ b, o.met? (.start queued 1 .exclusive 5) (hasty ++ [.other .handle]) = some b ∧
      o.Spared ((Wire.Command.cancelLock 1).request 5) b s.exchange.coordinator
        (s.exchange.apply .handle).coordinator := by
  have htook : (Calling.start queued 1 .exclusive 5).Took 4 hasty :=
    .inl ⟨by decide +kernel, by decide +kernel⟩
  have hp : (queued.order 2 1 .exclusive 5).Tolerated (.start queued 1 .exclusive 5)
      (hasty ++ [.other .handle]) := by decide +kernel
  exact lockWithin_spares reached_queued (by decide +kernel) hp rfl (.inr htook)

/-- The session has waited since before the call, and waits until the withdrawal is handled; then it
has nothing of the handle any more, although the call has come to its end for want of time. -/
theorem hasty_withdraws_earlier :
    let o := queued.order 2 1 .exclusive 5
    let s := (Calling.start queued 1 .exclusive 5).run hasty
    let w : Waiter ReplyTo := ⟨2, .exclusive, ⟨2, 3⟩⟩
    (∃ b, o.met? (.start queued 1 .exclusive 5) hasty = some b ∧ b.line 1 = [w]) ∧
      w.reply ≠ o.dest ∧ s.exchange.coordinator.line 1 = [w] ∧
      ¬ (s.exchange.apply .handle).coordinator.Involved 1 2 ∧
      (s.run [.other .handle, .other .read, .other .read, .other .read, .advance false]).progress =
        .finished (.error (.tooLate 1 5)) := by
  exact ⟨⟨_, rfl, rfl⟩, by decide +kernel, rfl, by decide +kernel, rfl⟩

end Client

end LeaseLock
