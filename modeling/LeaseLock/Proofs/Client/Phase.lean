import LeaseLock.Proofs.Client.Call

/-
  LeaseLock: a timed call once its request has been handled.
  `Bidding o b x bid` says how the request of the call stands at the server, and that its reply
  agrees with that.  `Phase` says how far the call can be while the request stands so, and which
  request of its own is on its way.
-/

namespace LeaseLock

open Reactor Coordinator Service

/-! ## Replies and how a request stands -/

namespace Coordinator.Bid

/-- The reply to a request agrees with how the request stands. -/
def Fits : Bid → Wire.Response → Prop
  | waiting, _ => False
  | holding generation, r => r.status = LockStatus.granted.toStatus ∧
      r.body = (Wire.LockGrant.mk (UInt64.ofNat generation)).encode
  | refused, r => LockStatus.ofStatus? r.status ≠ some .granted
  | spent, _ => True

/-- The reply to a withdrawal agrees with how the request stands. -/
def Confirms (bid : Bid) (r : Wire.Response) : Prop :=
  if r.body.head?.any (· != 0) then bid = refused ∨ bid = spent
  else bid ≠ waiting ∧ bid ≠ spent

/-- The reply to a withdrawal says whether there was something to withdraw. -/
theorem confirms_iff {bid : Bid} {id status : UInt32} {any : Bool} :
    bid.Confirms ⟨id, status, [if any then 1 else 0]⟩ ↔
      if any then bid = refused ∨ bid = spent else bid ≠ waiting ∧ bid ≠ spent := by
  cases any <;> exact .rfl

theorem fault_not_granted (code : FaultCode) :
    LockStatus.ofStatus? code.toStatus ≠ some .granted := by
  cases code <;> exact nofun

theorem Tells.fits {bid : Bid} {a : Answer} (h : bid.Tells a) (id : UInt32) :
    bid.Fits (a.reply.response id) := by
  cases bid with
  | waiting => cases h
  | holding generation =>
    obtain rfl : a = .granted generation := h
    exact ⟨rfl, rfl⟩
  | refused =>
    cases a with
    | granted generation => exact absurd rfl (h generation)
    | busy => exact nofun
    | cancelled => exact nofun
    | refused fault => exact fault_not_granted fault.code
    | malformed fault => exact fault_not_granted fault.code
  | spent => trivial

theorem Becomes.fits {bid bid' : Bid} (h : bid.Becomes bid') {r : Wire.Response}
    (hr : bid.Fits r) : bid'.Fits r := by
  rcases h with rfl | ⟨rfl, -⟩
  · exact hr
  · cases hr

theorem Confirms.ne_waiting {bid : Bid} {r : Wire.Response} (h : bid.Confirms r) :
    bid ≠ .waiting := by
  rintro rfl
  unfold Confirms at h
  split at h
  · rcases h with h | h <;> cases h
  · exact h.1 rfl

theorem Becomes.confirms {bid bid' : Bid} (h : bid.Becomes bid') {r : Wire.Response}
    (hr : bid.Confirms r) : bid'.Confirms r := by
  rw [h.eq hr.ne_waiting]
  exact hr

theorem Becomes.ne_spent {bid bid' : Bid} (h : bid.Becomes bid') (hbid : bid ≠ .spent) :
    bid' ≠ .spent := by
  rcases h with rfl | ⟨-, g, rfl⟩
  · exact hbid
  · exact nofun

end Coordinator.Bid

namespace Client.Order

open Conversation (awaiting withdrawing undoing releasing)

variable {o : Order} {b : Coordinator.State ReplyTo} {x x' : Exchange} {bid bid' : Bid}
  {ops : List (Operation ReplyTo)} {resp : List (Nat × Wire.Response)}

/-! ## The request -/

/-- How the request of the call stands, if it was handled in the state `b`. -/
structure Bidding (o : Order) (b : Coordinator.State ReplyTo) (x : Exchange) (bid : Bid) :
    Prop where
  endpoint : x.endpoint = o.dest.endpoint
  stands : Stands b x.coordinator o.handle.toNat o.waiter bid
  reply : x.Owed o.ticket o.dest.id (some (o.handle.toNat, o.waiter)) bid.Fits

/-- The server works, and the request stands otherwise. -/
theorem Bidding.served (hb : o.Bidding b x bid) (hx : x.Tidy) (hs : x.Served ops resp x')
    (hstands : Stands b (x.coordinator.after ops) o.handle.toNat o.waiter bid')
    (hfits : ∀ r, bid.Fits r → bid'.Fits r)
    (htells : (∀ op ∈ ops, op.reply? ≠ some o.dest) →
      (∀ p ∈ x.coordinator.queue, p.2.reply = o.dest → p = (o.handle.toNat, o.waiter)) →
      ∀ a, (o.dest, a) ∈ x.coordinator.told ops → bid'.Tells a) : o.Bidding b x' bid' where
  endpoint := hs.endpoint.trans hb.endpoint
  stands := hs.coordinator ▸ hstands
  reply := by
    have hdest : (⟨x.endpoint, o.dest.id⟩ : ReplyTo) = o.dest :=
      congrArg (ReplyTo.mk · o.dest.id) hb.endpoint
    refine hb.reply.served hx hs hfits fun hops hqueue a ha => ?_
    rw [hdest] at hops hqueue ha
    exact (htells hops (fun p hp hreply => (Option.some.inj (hqueue p hp hreply)).symm) a ha).fits _

/-- The server works, and the session does not act on the handle. -/
theorem Bidding.idle (hb : o.Bidding b x bid) (hx : x.Tidy) (hs : x.Served ops resp x')
    (hidle : x.coordinator.Idle o.session o.handle.toNat ops)
    (hnew : ∀ op ∈ ops, ∀ v, op.request? = some (o.handle.toNat, v) → v.reply ≠ o.dest) :
    ∃ bid', bid.Becomes bid' ∧ o.Bidding b x' bid' := by
  obtain ⟨bid', hbecomes, hstands⟩ := hb.stands.after hx.server.coherent hidle hnew
  refine ⟨bid', hbecomes, hb.served hx hs hstands (fun _ hr => hbecomes.fits hr) ?_⟩
  exact fun hops hqueue a ha =>
    hb.stands.tells hx.server.coherent hidle hqueue hops hbecomes hstands ha

theorem Bidding.submit (hb : o.Bidding b x bid) (hx : x.Tidy) (hf : x.client.Free)
    (command : UInt8) (body : Bytes) : o.Bidding b (x.submit command body).2 bid := by
  have howed := hb.reply.submit hx hf command body
  rw [Exchange.submit_of_free hx hf] at howed ⊢
  exact ⟨hb.endpoint, hb.stands, howed⟩

/-! ## How far the call is -/

/-- What the call has sent and the server has not handled; everything else that is on its way leaves
the handle alone. -/
structure Sends (o : Order) (x : Exchange) (own : Option (Nat × Wire.Request)) : Prop where
  spare : ∀ q ∈ x.sent, own = some q ∨ o.Spare q.2
  own : ∀ q, own = some q → q ∈ x.sent

/-- How far the call can be while its request stands like this, and what it has sent. -/
inductive Phase (o : Order) (x : Exchange) (bid : Bid) :
    Option (Nat × Wire.Request) → Conversation.Progress UInt64 → Prop
  /-- It waits for the reply. -/
  | waiting (unspent : bid ≠ .spent) :
      Phase o x bid none (.stalled (awaiting o.handle o.limit o.ticket))
  /-- The time is up, and the withdrawal is on its way. -/
  | cancelling {ticket : Nat} {id : UInt32} (unspent : bid ≠ .spent) :
      Phase o x bid (some (ticket, (Wire.Command.cancelLock o.handle).request id))
        (.stalled (withdrawing o.handle o.limit o.ticket ticket))
  /-- The withdrawal has been handled. -/
  | cancelled {ticket : Nat} {id : UInt32} (reply : x.Owed ticket id none bid.Confirms) :
      Phase o x bid none (.stalled (withdrawing o.handle o.limit o.ticket ticket))
  /-- Nothing was withdrawn: the request had been answered. -/
  | undoing (answered : bid ≠ .waiting) (unspent : bid ≠ .spent) :
      Phase o x bid none (.stalled (undoing o.handle o.limit o.ticket))
  /-- It had been granted, and the release is on its way. -/
  | releasing {ticket generation : Nat} {id : UInt32} (held : bid = .holding generation) :
      Phase o x bid (some (ticket, (Wire.Command.release o.handle).request id))
        (.stalled (releasing o.handle o.limit ticket))
  /-- The release has been handled. -/
  | released {ticket : Nat} {id : UInt32} (reply : x.Owed ticket id none fun _ => bid = .spent) :
      Phase o x bid none (.stalled (releasing o.handle o.limit ticket))
  /-- The call has got the lock. -/
  | done {generation : Nat} (held : bid = .holding generation) :
      Phase o x bid none (.finished (.ok (UInt64.ofNat generation)))
  /-- The call has come to its end without it. -/
  | late (ended : bid = .refused ∨ bid = .spent) :
      Phase o x bid none (.finished (.error (.tooLate o.handle o.limit)))
  /-- The call has failed. -/
  | failed {e : Error} (untimed : e.fault? ≠ some .timeout) :
      Phase o x bid none (.finished (.error e))

/-- What happens without the call does not change how far it is. -/
theorem Phase.mono {own : Option (Nat × Wire.Request)} {p : Conversation.Progress UInt64}
    (hp : o.Phase x bid own p) (hbid : bid.Becomes bid')
    (howed : ∀ ticket id P, x.Owed ticket id none P → x'.Owed ticket id none P) :
    o.Phase x' bid' own p := by
  cases hp with
  | waiting unspent => exact .waiting (hbid.ne_spent unspent)
  | cancelling unspent => exact .cancelling (hbid.ne_spent unspent)
  | cancelled reply => exact .cancelled ((howed _ _ _ reply).mono fun _ hr => hbid.confirms hr)
  | undoing answered unspent =>
    rw [hbid.eq answered]
    exact .undoing answered unspent
  | releasing held => exact .releasing ((hbid.eq (held ▸ nofun)).trans held)
  | released reply =>
    refine .released ((howed _ _ _ reply).mono fun _ hspent => ?_)
    exact (hbid.eq (hspent ▸ nofun)).trans hspent
  | done held => exact .done ((hbid.eq (held ▸ nofun)).trans held)
  | late ended =>
    have hne : bid ≠ .waiting := by rcases ended with rfl | rfl <;> exact nofun
    rw [hbid.eq hne]
    exact .late ended
  | failed untimed => exact .failed untimed

/-- The request of the call has been handled in the state `b`. -/
structure After (o : Order) (b : Coordinator.State ReplyTo) (s : Calling) (bid : Bid)
    (own : Option (Nat × Wire.Request)) : Prop where
  tidy : s.exchange.Tidy
  bidding : o.Bidding b s.exchange bid
  sends : o.Sends s.exchange own
  phase : o.Phase s.exchange bid own s.progress

variable {s : Calling} {own : Option (Nat × Wire.Request)}

namespace After

/-! ### What others do -/

/-- The server works, and the session does not act on the handle. -/
theorem idle (ha : o.After b s bid own) (hs : s.exchange.Served ops resp x') (hx' : x'.Tidy)
    (hidle : s.exchange.coordinator.Idle o.session o.handle.toNat ops)
    (hnew : ∀ op ∈ ops, ∀ v, op.request? = some (o.handle.toNat, v) → v.reply ≠ o.dest)
    (hsends : o.Sends x' own) : ∃ bid', o.After b { s with exchange := x' } bid' own := by
  obtain ⟨bid', hbecomes, hb⟩ := ha.bidding.idle ha.tidy hs hidle hnew
  exact ⟨bid', hx', hb, hsends, ha.phase.mono hbecomes fun _ _ _ ho => ho.served_of_none ha.tidy hs⟩

theorem serve (ha : o.After b s bid own) {i : Server.Input}
    (hp : o.Permits s (.other (.serve i))) :
    ∃ bid', o.After b (s.apply (.other (.serve i))) bid' own := by
  obtain ⟨hlive, hallows, hspares⟩ := hp
  obtain ⟨ops, resp, hy⟩ := i.yields s.exchange.loop
  refine ha.idle (Exchange.served_serve ha.tidy hy hallows) (ha.tidy.serve hallows)
    (hy.idle _ _ hlive.2 (hspares (ha.bidding.reply.handled ha.tidy))) (fun op hm v hv hreply => ?_)
    ⟨ha.sends.spare, ha.sends.own⟩
  -- a request over this connection is none that the server has been told of
  have hsender := hy.senders v.reply (List.mem_append_right _
    (List.mem_filterMap.2 ⟨op, hm, Operation.reply?_of_request? hv⟩))
  obtain ⟨payload, -, heq, -⟩ := hsender
  rw [hreply, ← ha.bidding.endpoint] at heq
  exact hallows payload heq

theorem read (ha : o.After b s bid own) :
    o.After b (s.apply (.other .read)) bid own where
  tidy := ha.tidy.read
  bidding := by
    refine ⟨(Exchange.endpoint_read _).trans ha.bidding.endpoint, ?_,
      ha.bidding.reply.read_frame ha.tidy⟩
    show Stands b (s.exchange.apply .read).coordinator _ _ _
    rw [Exchange.coordinator_read]
    exact ha.bidding.stands
  sends := by
    refine ⟨fun q hq => ha.sends.spare q (Exchange.sent_read _ ▸ hq), fun q hq => ?_⟩
    show q ∈ (s.exchange.apply .read).sent
    rw [Exchange.sent_read]
    exact ha.sends.own q hq
  phase := ha.phase.mono (.refl bid) fun _ _ _ ho => ho.read_frame ha.tidy

/-- Another call sends a request. -/
theorem request (ha : o.After b s bid own) {command : UInt8} {body : Bytes}
    (hp : o.Permits s (.other (.request command body))) :
    o.After b (s.apply (.other (.request command body))) bid own := by
  obtain ⟨-, hfree, hspare⟩ := hp
  have hx := ha.tidy
  refine ⟨hx.submit hfree command body, ha.bidding.submit hx hfree command body,
    ⟨fun q hq => ?_, fun q hq => ?_⟩,
    ha.phase.mono (.refl bid) fun _ _ _ ho => ho.submit hx hfree command body⟩
  · rcases (Exchange.mem_sent_submit hx hfree command body).1 hq with hold | rfl
    · exact ha.sends.spare q hold
    · exact .inr hspare
  · exact (Exchange.mem_sent_submit hx hfree command body).2 (.inl (ha.sends.own q hq))

/-- The server handles a request of another call. -/
theorem handle_spare (ha : o.After b s bid own) (hlive : s.exchange.Live o.session)
    {q : Nat × Wire.Request}
    {rest : List (Nat × Wire.Request)} (hsent : s.exchange.sent = q :: rest) (hown : own ≠ some q) :
    ∃ bid', o.After b (s.apply (.other .handle)) bid' own := by
  obtain ⟨ops, resp, hs, hh⟩ := Exchange.exists_served_handle ha.tidy hsent
  have hspare := (ha.sends.spare q (hsent ▸ List.mem_cons_self)).resolve_left hown
  have hasked : s.exchange.loop.world.asked? s.exchange.endpoint q.2.encode =
      asks o.dest.endpoint o.session q.2.encode := by
    unfold Service.State.asked?
    rw [hlive.1, ha.bidding.endpoint]
    rfl
  rw [hasked] at hh
  refine ha.idle hs ha.tidy.handle (Server.idle_of_handles hh (fun op hop =>
    Server.not_actsOn_of_asks hop (hspare op hop)) _) (fun op hm v hv _ => ?_) ⟨fun r hr => ?_,
      fun r hr => ?_⟩
  · rcases hh.licit op hm with hharmless | hop
    · cases hharmless.request?.symm.trans hv
    · exact hspare op hop (Server.touches_of_request? hop hv)
  · rw [Exchange.sent_handle hsent] at hr
    exact ha.sends.spare r (hsent ▸ List.mem_cons_of_mem _ hr)
  · rw [Exchange.sent_handle hsent]
    have hmem := ha.sends.own r hr
    rw [hsent] at hmem
    rcases List.mem_cons.1 hmem with rfl | hrest
    · exact absurd hr hown
    · exact hrest

end After

/-! ### Requests of the call -/

/-- Once the request of its own is handled, nothing but requests of other calls is on its way. -/
theorem Sends.handle (h : o.Sends x own) (hx : x.Tidy) {q : Nat × Wire.Request}
    {rest : List (Nat × Wire.Request)} (hsent : x.sent = q :: rest) (hown : own = some q) :
    o.Sends (x.apply .handle) none := by
  refine ⟨fun r hr => ?_, nofun⟩
  rw [Exchange.sent_handle hsent] at hr
  rcases h.spare r (hsent ▸ List.mem_cons_of_mem _ hr) with heq | hspare
  · obtain rfl := Option.some.inj (hown.symm.trans heq)
    have hnodup := hx.nodup
    rw [Exchange.underway, hsent] at hnodup
    have hfirst := (List.nodup_cons.1 hnodup).1
    exact absurd (List.mem_append_left _ (List.mem_map.2 ⟨q, hr, rfl⟩)) hfirst
  · exact .inr hspare

theorem decode_cancelLock (handle : UInt64) (id : UInt32) :
    Wire.Command.decode ((Wire.Command.cancelLock handle).request id).command
      ((Wire.Command.cancelLock handle).request id).body = .ok (some (.cancelLock handle)) := by
  have htake := Wire.takeU64_encodeU64 "handle" handle []
  rw [List.append_nil] at htake
  show (Wire.decodeU64 "handle" (encodeU64 handle)).map _ = _
  rw [Wire.decodeU64, htake]
  rfl

theorem decode_release (handle : UInt64) (id : UInt32) :
    Wire.Command.decode ((Wire.Command.release handle).request id).command
      ((Wire.Command.release handle).request id).body = .ok (some (.release handle)) := by
  have htake := Wire.takeU64_encodeU64 "handle" handle []
  rw [List.append_nil] at htake
  show (Wire.decodeU64 "handle" (encodeU64 handle)).map _ = _
  rw [Wire.decodeU64, htake]
  rfl

theorem idle_of_harmless {s : Coordinator.State ReplyTo} (hops : ∀ op ∈ ops, op.Harmless)
    (session handle : Nat) : s.Idle session handle ops :=
  Server.idle_of_forall fun op hm s => (hops op hm).not_actsOn s session handle

/-- A renewal changes nothing for a request, and the like does not either. -/
theorem stands_after_harmless {s : Coordinator.State ReplyTo} {handle : Nat} {w : Waiter ReplyTo}
    (hb : Stands b s handle w bid) (hs : Coherent [] (fun _ _ => False) s)
    (hops : ∀ op ∈ ops, op.Harmless) :
    ∃ bid', bid.Becomes bid' ∧ Stands b (s.after ops) handle w bid' :=
  hb.after hs (idle_of_harmless hops _ _) fun op hm v hv _ => by
    cases ((hops op hm).request?).symm.trans hv

/-- After a renewal, everything comes from the operation behind it. -/
theorem after_renew (s : Coordinator.State ReplyTo) (session now : Nat) (op : Operation ReplyTo) :
    s.after [.renew session now, op] =
      ((s.after [.renew session now]).perform op).2.state := rfl

theorem told_renew (s : Coordinator.State ReplyTo) (session now : Nat) (op : Operation ReplyTo) :
    s.told [.renew session now, op] =
      ((s.after [.renew session now]).perform op).2.answers := List.append_nil _

theorem perform_dispatch (s : Coordinator.State ReplyTo) (session : Nat) (payload : Bytes)
    (dest : ReplyTo) : (s.perform (.dispatch session payload dest)).2 =
      (s.dispatch session payload dest).2 := rfl

theorem perform_cancel (s : Coordinator.State ReplyTo) (session handle : Nat) :
    (s.perform (.cancel session handle)).2 = (s.cancel session handle).2 := rfl

theorem perform_release (s : Coordinator.State ReplyTo) (session handle : Nat) :
    (s.perform (.release session handle)).2 = (s.release session handle).2 := rfl

theorem reply?_of_renewed {op : Operation ReplyTo} {session now : Nat} (hop : op.reply? = none) :
    ∀ op' ∈ [Operation.renew session now, op], op'.reply? = none := by
  intro op' hm
  rcases List.mem_cons.1 hm with rfl | hm
  · rfl
  · rw [List.mem_singleton.1 hm]
    exact hop

section Own

variable {q : Nat × Wire.Request} {rest : List (Nat × Wire.Request)} {id : UInt32}

/-- The request is dropped, or the server crashes over it. -/
theorem Bidding.unheard (hb : o.Bidding b x bid) (hx : x.Tidy) (hsent : x.sent = q :: rest)
    {P : Bid → Wire.Response → Prop} (hops : ∀ op ∈ ops, op.Harmless)
    (hw : Work x.loop ops [] (x.loop.dispatch Server.wiring (.data x.endpoint q.2.encode))) :
    ∃ bid', bid.Becomes bid' ∧ o.Bidding b (x.apply .handle) bid' ∧
      (x.apply .handle).Owed q.1 q.2.id none (P bid') := by
  have hreply : ∀ op ∈ ops, op.reply? = none := fun op hm => (hops op hm).reply?
  have hs : x.Served ops [] (x.apply .handle) := by
    refine Exchange.served_handle hx hsent hw.toCarries ?_
    rw [List.filterMap_eq_nil_iff.2 hreply]
    exact List.nil_sublist _
  obtain ⟨bid', hbecomes, hb'⟩ := hb.idle hx hs (idle_of_harmless hops _ _) fun op hm v hv _ => by
    cases ((hops op hm).request?).symm.trans hv
  exact ⟨bid', hbecomes, hb', .of_command hx hs hsent (Exchange.sent_handle hsent) hreply nofun⟩

/-- A request that was refused does not wait, so nobody tells its sender anything. -/
theorem Bidding.untold (hb : o.Bidding b x .refused) (hx : x.Tidy)
    (hops : ∀ op ∈ ops, op.reply? ≠ some o.dest)
    (hqueue : ∀ p ∈ x.coordinator.queue, p.2.reply = o.dest → p = (o.handle.toNat, o.waiter))
    (a : Answer) : (o.dest, a) ∉ x.coordinator.told ops := by
  intro ha
  rcases Coordinator.State.sender_of_told hx.server.coherent ha with ⟨p, hp, heq⟩ | ⟨op, hm, heq⟩
  · obtain rfl := hqueue p hp heq
    exact hb.stands.gone nofun _ (Coordinator.State.mem_queue_iff_line.1 hp) rfl
  · exact hops op hm heq

/-- The lease of the session has been renewed, and the withdrawal is carried out. -/
theorem Bidding.withdrawn (hb : o.Bidding b x bid) (hx : x.Tidy)
    {resp : List (Nat × Wire.Response)}
    (hs : x.Served [.renew o.session x.loop.clock, .cancel o.session o.handle.toNat] resp x')
    (hunspent : bid ≠ .spent) :
    ∃ bid', o.Bidding b x' bid' ∧ (if ((x.coordinator.after
      [.renew o.session x.loop.clock]).cancel o.session o.handle.toNat).1
        then bid' = .refused ∨ bid' = .spent else bid' ≠ .waiting ∧ bid' ≠ .spent) := by
  obtain ⟨bid₁, hbecomes, hstands⟩ := stands_after_harmless hb.stands hx.server.coherent
    (Operation.harmless_renew o.session x.loop.clock)
  have hcoherent := hx.server.coherent.after [.renew o.session x.loop.clock]
  have hstate : x.coordinator.after [.renew o.session x.loop.clock,
      .cancel o.session o.handle.toNat] = ((x.coordinator.after
        [.renew o.session x.loop.clock]).cancel o.session o.handle.toNat).2.state := by
    rw [after_renew, perform_cancel]
  have htold : x.coordinator.told [.renew o.session x.loop.clock,
      .cancel o.session o.handle.toNat] = ((x.coordinator.after
        [.renew o.session x.loop.clock]).cancel o.session o.handle.toNat).2.answers := by
    rw [told_renew, perform_cancel]
  rcases hstands.cancel hcoherent with ⟨heq, hwaits⟩ | ⟨htrue, bid', hbid', hstands'⟩
  · -- there was nothing to withdraw
    have heq : (x.coordinator.after [.renew o.session x.loop.clock]).cancel o.session
        o.handle.toNat = (false, .start (x.coordinator.after [.renew o.session x.loop.clock])) :=
      heq
    rw [heq] at hstate htold ⊢
    refine ⟨bid₁, hb.served hx hs (hstate ▸ hstands) (fun _ hr => hbecomes.fits hr)
      fun _ _ a ha => ?_, hwaits, hbecomes.ne_spent hunspent⟩
    rw [htold] at ha
    cases ha
  · have htrue : ((x.coordinator.after [.renew o.session x.loop.clock]).cancel o.session
        o.handle.toNat).1 = true := htrue
    rw [htrue]
    rcases hbid' with rfl | ⟨rfl, rfl⟩
    · exact ⟨.spent, hb.served hx hs (hstate ▸ hstands') (fun _ _ => trivial)
        fun _ _ _ _ => trivial, .inr rfl⟩
    · have hrefused : bid = .refused := by
        rcases hbecomes with heq | ⟨-, g, heq⟩
        · exact heq.symm
        · cases heq
      subst hrefused
      exact ⟨.refused, hb.served hx hs (hstate ▸ hstands') (fun _ hr => hr)
        fun hops hqueue a ha => absurd ha (hb.untold hx hops hqueue a), .inl rfl⟩

/-- The server handles the withdrawal. -/
theorem Bidding.cancel (hb : o.Bidding b x bid) (hx : x.Tidy) (hlive : x.Live o.session)
    (hsent : x.sent = q :: rest) (hq : q.2 = (Wire.Command.cancelLock o.handle).request id)
    (hunspent : bid ≠ .spent) :
    ∃ bid', o.Bidding b (x.apply .handle) bid' ∧
      (x.apply .handle).Owed q.1 q.2.id none bid'.Confirms := by
  have hdoes : ∀ m : Server.Loop, ∃ own r,
      Does (executeFor ⟨x.endpoint, q.2.id⟩ o.session (.cancelLock o.handle)) m
        [.cancel o.session o.handle.toNat] own r ∧
      own = [(x.endpoint, ⟨q.2.id, Wire.Response.statusOk,
        [if (m.world.coordinator.cancel o.session o.handle.toNat).1 then 1 else 0]⟩)] :=
    fun m => ⟨_, _, does_executeFor_cancel _ o.session o.handle m, rfl⟩
  rcases worked_bound (fun s own => own = [(x.endpoint, ⟨q.2.id, Wire.Response.statusOk,
      [if (s.cancel o.session o.handle.toNat).1 then 1 else 0]⟩)])
    (hq ▸ decode_cancelLock o.handle id) rfl hlive.1 hlive.2 hdoes with
    ⟨ops, hops, hw⟩ | ⟨own, rfl, hw⟩
  · obtain ⟨bid', -, hb', hreply⟩ := hb.unheard (P := Bid.Confirms) hx hsent hops hw
    exact ⟨bid', hb', hreply⟩
  · have hs := Exchange.served_handle hx hsent hw.toCarries (.refl _)
    obtain ⟨bid', hb', hconfirms⟩ := hb.withdrawn hx hs hunspent
    refine ⟨bid', hb', .of_command hx hs hsent (Exchange.sent_handle hsent)
      (reply?_of_renewed rfl) fun p hp => ?_⟩
    obtain rfl := List.mem_singleton.1 hp
    exact Bid.confirms_iff.2 hconfirms

/-- The server handles the release of what the request got. -/
theorem Bidding.release {generation : Nat} (hb : o.Bidding b x (.holding generation))
    (hx : x.Tidy) (hlive : x.Live o.session) (hsent : x.sent = q :: rest)
    (hq : q.2 = (Wire.Command.release o.handle).request id) :
    ∃ bid', o.Bidding b (x.apply .handle) bid' ∧
      (x.apply .handle).Owed q.1 q.2.id none fun _ => bid' = .spent := by
  have hdoes : ∀ m : Server.Loop, ∃ own r,
      Does (executeFor ⟨x.endpoint, q.2.id⟩ o.session (.release o.handle)) m
        [.release o.session o.handle.toNat] own r ∧ own.map address = [⟨x.endpoint, q.2.id⟩] := by
    intro m
    obtain ⟨response, ha, hdoes⟩ :=
      does_executeFor_release ⟨x.endpoint, q.2.id⟩ o.session o.handle m
    exact ⟨_, _, hdoes, congrArg (fun dest => [dest]) ha⟩
  rcases worked_bound (fun _ own => own.map address = [⟨x.endpoint, q.2.id⟩])
    (hq ▸ decode_release o.handle id) rfl hlive.1 hlive.2 hdoes with
    ⟨ops, hops, hw⟩ | ⟨own, hown, hw⟩
  · obtain ⟨bid', -, hb', hreply⟩ :=
      hb.unheard (P := fun bid' _ => bid' = .spent) hx hsent hops hw
    exact ⟨bid', hb', hreply⟩
  · have hs := Exchange.served_handle hx hsent hw.toCarries (by
      rw [hown]
      exact .refl _)
    obtain ⟨bid₁, hbecomes, hstands⟩ := stands_after_harmless hb.stands hx.server.coherent
      (Operation.harmless_renew o.session x.loop.clock)
    obtain rfl := hbecomes.eq nofun
    have hreleased := hstands.release (hx.server.coherent.after _)
    refine ⟨.spent, hb.served hx hs ?_ (fun _ _ => trivial) fun _ _ _ _ => trivial,
      .of_command hx hs hsent (Exchange.sent_handle hsent) (reply?_of_renewed rfl) fun _ _ => rfl⟩
    rw [after_renew, perform_release]
    exact hreleased

theorem decode_lock (o : Order) :
    Wire.Command.decode o.request.command o.request.body =
      .ok (some (Conversation.lockCommand o.handle o.mode false)) := rfl

theorem readRequest_lock (o : Order) :
    Coordinator.State.readRequest (Wire.LockRequest.mk o.handle o.mode.bits false).encode =
      .ok (⟨o.handle, o.mode.bits, false⟩, o.mode) := by
  have hdecode := Wire.LockRequest.decode_encode_append ⟨o.handle, o.mode.bits, false⟩ []
  rw [List.append_nil] at hdecode
  unfold Coordinator.State.readRequest
  rw [hdecode]
  show (Mode.ofBits o.mode.bits).bind _ = _
  rw [Mode.ofBits_bits]
  rfl

/-- The server handles the request. -/
theorem bidding_of_handle (hx : x.Tidy) (hlive : x.Live o.session)
    (hendpoint : x.endpoint = o.dest.endpoint) (hsent : x.sent = (o.ticket, o.request) :: rest) :
    ∃ bid, bid ≠ .spent ∧ o.Bidding x.coordinator (x.apply .handle) bid := by
  have hdest : (⟨x.endpoint, o.request.id⟩ : ReplyTo) = o.dest :=
    congrArg (ReplyTo.mk · o.dest.id) hendpoint
  have hdoes : ∀ m : Server.Loop, ∃ own r,
      Does (executeFor ⟨x.endpoint, o.request.id⟩ o.session
        (Conversation.lockCommand o.handle o.mode false)) m
        [.dispatch o.session (Wire.LockRequest.mk o.handle o.mode.bits false).encode o.dest]
        own r ∧ own = [] := by
    intro m
    rw [hdest]
    exact ⟨_, _, does_executeFor_lock _ o.session _ m, rfl⟩
  have hgone : x.coordinator.Gone o.handle.toNat o.waiter.reply := by
    intro v hv hreply
    refine hx.not_queued (hsent ▸ List.mem_cons_self) _
      (Coordinator.State.mem_queue_iff_line.2 hv) ?_
    exact hreply.trans hdest.symm
  have hstart := Stands.start hgone
  rcases worked_bound (fun _ own => own = []) o.decode_lock rfl hlive.1 hlive.2 hdoes with
    ⟨ops, hops, hw⟩ | ⟨own, rfl, hw⟩
  · -- the request has not been taken up
    have hreply : ∀ op ∈ ops, op.reply? = none := fun op hm => (hops op hm).reply?
    have hs := Exchange.served_handle hx hsent hw.toCarries (by
      rw [List.filterMap_eq_nil_iff.2 hreply]
      exact List.nil_sublist _)
    obtain ⟨bid, hbecomes, hstands⟩ := stands_after_harmless hstart hx.server.coherent hops
    obtain rfl := hbecomes.eq nofun
    have howed : (x.apply .handle).Owed o.ticket o.dest.id none Bid.refused.Fits :=
      .of_command hx hs hsent (Exchange.sent_handle hsent) hreply nofun
    exact ⟨.refused, nofun, hs.endpoint.trans hendpoint, hs.coordinator ▸ hstands, howed.of_none⟩
  · have hs := Exchange.served_handle hx hsent hw.toCarries (by
      rw [hdest]
      exact .refl _)
    obtain ⟨bid₁, hbecomes, hstands₁⟩ := stands_after_harmless hstart hx.server.coherent
      (Operation.harmless_renew o.session x.loop.clock)
    obtain rfl := hbecomes.eq nofun
    obtain ⟨bid, hunspent, hstands, htells⟩ := hstands₁.dispatch o.readRequest_lock rfl
    refine ⟨bid, hunspent, hs.endpoint.trans hendpoint, ?_,
      .of_handle hx hs hsent (Exchange.sent_handle hsent) (fun op hm p hp _ => ?_)
        (fun a ha => ?_) nofun⟩
    · rw [hs.coordinator, after_renew, perform_dispatch]
      exact hstands
    · rcases List.mem_cons.1 hm with rfl | hm
      · cases hp
      · rw [List.mem_singleton.1 hm, Operation.request?, readRequest_lock] at hp
        exact hp
    · rw [told_renew, perform_dispatch] at ha
      exact (htells _ ha).fits _

end Own

namespace After

/-- The server handles the next request. -/
theorem handle (ha : o.After b s bid own) (hlive : s.exchange.Live o.session) :
    ∃ bid' own', o.After b (s.apply (.other .handle)) bid' own' := by
  cases hsent : s.exchange.sent with
  | nil =>
    have hsame : s.apply (.other .handle) = s := by
      show { s with exchange := s.exchange.apply .handle } = s
      unfold Exchange.apply
      rw [hsent]
    rw [hsame]
    exact ⟨bid, own, ha⟩
  | cons q rest =>
    by_cases hown : own = some q
    · obtain ⟨p, x⟩ := s
      obtain ⟨hx, hb, hsends, hphase⟩ := ha
      have hbare := hsends.handle hx hsent hown
      subst hown
      cases hphase with
      | cancelling unspent =>
        obtain ⟨bid', hb', hreply⟩ := hb.cancel hx hlive hsent rfl unspent
        exact ⟨bid', none, hx.handle, hb', hbare, .cancelled hreply⟩
      | releasing held =>
        subst held
        obtain ⟨bid', hb', hreply⟩ := hb.release hx hlive hsent rfl
        exact ⟨bid', none, hx.handle, hb', hbare, .released hreply⟩
    · obtain ⟨bid', ha'⟩ := ha.handle_spare hlive hsent hown
      exact ⟨bid', own, ha'⟩

end After

/-! ### What the call does -/

/-- The call sends a request. -/
theorem Sends.submit (h : o.Sends x none) (hx : x.Tidy) (hf : x.client.Free)
    (command : Wire.Command) : o.Sends (x.submit command.code command.body).2
      (some (x.client.nextTicket, command.request x.client.nextId)) := by
  refine ⟨fun q hq => ?_, fun q hq => ?_⟩
  · rcases (Exchange.mem_sent_submit hx hf _ _).1 hq with hold | rfl
    · exact .inr ((h.spare q hold).resolve_left nofun)
    · exact .inl rfl
  · exact (Exchange.mem_sent_submit hx hf _ _).2 (.inr (Option.some.inj hq).symm)

open Conversation

theorem send_of_free (hx : x.Tidy) (hf : x.client.Free) (command : Wire.Command) :
    Exchange.transport.send x command.code command.body =
      (some x.client.nextTicket, (x.submit command.code command.body).2) := by
  show x.submit command.code command.body = _
  rw [Exchange.submit_of_free hx hf]

/-- There is no reply yet. -/
theorem outcome_of_submit (hx : x.Tidy) (hf : x.client.Free) (command : Wire.Command) :
    Exchange.transport.outcome? (x.submit command.code command.body).2 x.client.nextTicket = none :=
  (hx.submit hf _ _).outcome_of_sent ((Exchange.mem_sent_submit hx hf _ _).2 (.inr rfl))

/-- The call withdraws its request, and waits for the reply. -/
theorem carry_giveUp (hx : x.Tidy) (hf : x.client.Free) (expire : Bool) (handle : UInt64)
    (limit ticket : Nat) : Calling.carry expire (giveUp handle limit ticket) x =
      ⟨.stalled (withdrawing handle limit ticket x.client.nextTicket),
        (x.submit (Wire.Command.cancelLock handle).code
          (Wire.Command.cancelLock handle).body).2⟩ := by
  refine Calling.carry_eq ?_
  rw [giveUp_eq, advance_send (send_of_free hx hf (.cancelLock handle))]
  exact advance_withdrawing_of_none (outcome_of_submit hx hf (.cancelLock handle))

/-- The call releases what its request got, and waits for the reply. -/
theorem carry_undoing (hx : x.Tidy) (hf : x.client.Free) (expire : Bool) (handle : UInt64)
    (limit : Nat) {ticket : Nat} {r : Wire.Response}
    (h : x.client.outcome? ticket = some (.replied r))
    (hr : LockStatus.ofStatus? r.status = some .granted) :
    Calling.carry expire (undoing handle limit ticket) x =
      ⟨.stalled (releasing handle limit x.client.nextTicket),
        (x.submit (Wire.Command.release handle).code (Wire.Command.release handle).body).2⟩ := by
  refine Calling.carry_eq ?_
  rw [advance_undoing_of_granted h hr (send_of_free hx hf (.release handle))]
  exact advance_releasing_of_none (outcome_of_submit hx hf (.release handle))

namespace After

variable {p : Progress UInt64} {expire : Bool}

/-- The call still waits. -/
theorem still {rest : Conversation UInt64} (ha : o.After b ⟨.stalled rest, x⟩ bid own)
    (h : Conversation.advance Exchange.transport expire rest x = (.stalled rest, x)) :
    ∃ own', o.After b (Calling.carry expire rest x) bid own' := by
  rw [Calling.carry_eq h]
  exact ⟨own, ha⟩

/-- The call ends. -/
theorem finish {rest : Conversation UInt64} {e : Error} (ha : o.After b ⟨p, x⟩ bid none)
    (h : Conversation.advance Exchange.transport expire rest x =
      Conversation.advance Exchange.transport expire (fail e) x)
    (hphase : o.Phase x bid none (.finished (.error e))) :
    ∃ own, o.After b (Calling.carry expire rest x) bid own := by
  rw [Calling.carry_eq (h.trans (advance_fail e x))]
  exact ⟨none, ha.tidy, ha.bidding, ha.sends, hphase⟩

/-- The time is up, or the reply to the request has come. -/
theorem awaiting (ha : o.After b ⟨.stalled (awaiting o.handle o.limit o.ticket), x⟩ bid none)
    (hf : x.client.Free) (hunspent : bid ≠ .spent) (expire : Bool) :
    ∃ own, o.After b (Calling.carry expire (awaiting o.handle o.limit o.ticket) x) bid own := by
  cases ho : x.client.outcome? o.ticket with
  | none =>
    cases expire with
    | false => exact ha.still (advance_awaiting_of_none ho)
    | true =>
      rw [Calling.carry_congr (advance_awaiting_of_expired ho), carry_giveUp ha.tidy hf]
      exact ⟨_, ha.tidy.submit hf _ _, ha.bidding.submit ha.tidy hf _ _,
        ha.sends.submit ha.tidy hf (.cancelLock o.handle), .cancelling hunspent⟩
  | some outcome =>
    obtain ⟨r, rfl, hfits⟩ := ha.bidding.reply.outcome ha.tidy ho
    cases bid with
    | waiting => cases hfits
    | spent => exact absurd rfl hunspent
    | refused =>
      obtain ⟨e, hadvance, huntimed⟩ :=
        advance_awaiting_of_refused (t := Exchange.transport) ho hfits
      exact ha.finish hadvance (.failed huntimed)
    | holding generation =>
      rw [Calling.carry_eq (advance_awaiting_of_granted ho hfits.1 hfits.2)]
      exact ⟨none, ha.tidy, ha.bidding, ha.sends, .done rfl⟩

/-- Nothing was withdrawn: what the request got is let go of. -/
theorem undoing (ha : o.After b ⟨p, x⟩ bid none) (hf : x.client.Free)
    (hanswered : bid ≠ .waiting) (hunspent : bid ≠ .spent) (expire : Bool) :
    ∃ own, o.After b (Calling.carry expire (undoing o.handle o.limit o.ticket) x) bid own := by
  cases ho : x.client.outcome? o.ticket with
  | none =>
    rw [Calling.carry_eq (advance_undoing_of_none ho)]
    exact ⟨none, ha.tidy, ha.bidding, ha.sends, .undoing hanswered hunspent⟩
  | some outcome =>
    obtain ⟨r, rfl, hfits⟩ := ha.bidding.reply.outcome ha.tidy ho
    cases bid with
    | waiting => exact absurd rfl hanswered
    | spent => exact absurd rfl hunspent
    | refused => exact ha.finish (advance_undoing_of_refused ho hfits) (.late (.inl rfl))
    | holding generation =>
      have hgranted : LockStatus.ofStatus? r.status = some .granted := by
        rw [hfits.1, LockStatus.ofStatus?_toStatus]
      rw [carry_undoing ha.tidy hf expire o.handle o.limit ho hgranted]
      exact ⟨_, ha.tidy.submit hf _ _, ha.bidding.submit ha.tidy hf _ _,
        ha.sends.submit ha.tidy hf (.release o.handle), .releasing rfl⟩

/-- The reply to the withdrawal has come. -/
theorem withdrawing (ha : o.After b ⟨p, x⟩ bid none) (hf : x.client.Free)
    {withdrawal : Nat} {r : Wire.Response}
    (ho : x.client.outcome? withdrawal = some (.replied r)) (hr : bid.Confirms r)
    (expire : Bool) : ∃ own, o.After b
      (Calling.carry expire (withdrawing o.handle o.limit o.ticket withdrawal) x) bid own := by
  rcases advance_withdrawing_of_reply (t := Exchange.transport) ho with
    hadvance | ⟨e, hadvance, huntimed⟩
  · unfold Bid.Confirms at hr
    split at hr
    · rename_i hany
      rw [if_pos hany] at hadvance
      exact ha.finish hadvance (.late hr)
    · rename_i hany
      rw [if_neg hany] at hadvance
      rw [Calling.carry_congr hadvance]
      exact ha.undoing hf hr.1 hr.2 expire
  · exact ha.finish hadvance (.failed huntimed)

/-- The call is carried on. -/
theorem advance (ha : o.After b s bid own) (hf : s.exchange.client.Free)
    (expire : Bool) : ∃ own', o.After b (s.apply (.advance expire)) bid own' := by
  obtain ⟨p, x⟩ := s
  have hphase := ha.phase
  cases hphase with
  | waiting unspent => exact ha.awaiting hf unspent expire
  | cancelling unspent =>
    exact ha.still (advance_withdrawing_of_none (ha.tidy.outcome_of_sent (ha.sends.own _ rfl)))
  | @cancelled withdrawal id reply =>
    cases ho : x.client.outcome? withdrawal with
    | none => exact ha.still (advance_withdrawing_of_none ho)
    | some outcome =>
      obtain ⟨r, rfl, hr⟩ := reply.outcome ha.tidy ho
      exact ha.withdrawing hf ho hr expire
  | undoing answered unspent => exact ha.undoing hf answered unspent expire
  | releasing held =>
    exact ha.still (advance_releasing_of_none (ha.tidy.outcome_of_sent (ha.sends.own _ rfl)))
  | @released release id reply =>
    cases ho : x.client.outcome? release with
    | none => exact ha.still (advance_releasing_of_none ho)
    | some outcome =>
      obtain ⟨r, rfl, hspent⟩ := reply.outcome ha.tidy ho
      exact ha.finish (advance_releasing_of_reply ho) (.late (.inr hspent))
  | done held => exact ⟨none, ha⟩
  | late ended => exact ⟨none, ha⟩
  | failed untimed => exact ⟨none, ha⟩

/-- The call stays in one of its phases whatever happens. -/
theorem step (ha : o.After b s bid own) {m : Calling.Move}
    (hp : o.Permits s m) : ∃ bid' own', o.After b (s.apply m) bid' own' := by
  cases m with
  | advance expire =>
    obtain ⟨own', ha'⟩ := ha.advance hp expire
    exact ⟨bid, own', ha'⟩
  | other m =>
    cases m with
    | serve i =>
      obtain ⟨bid', ha'⟩ := ha.serve hp
      exact ⟨bid', own, ha'⟩
    | handle => exact ha.handle hp.1
    | read => exact ⟨bid, own, ha.read⟩
    | request command body => exact ⟨bid, own, ha.request hp⟩

end After

end Client.Order

end LeaseLock
