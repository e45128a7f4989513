import LeaseLock.Proofs.Client.Exchange

/-
  LeaseLock: the reply to one request.
  `Owed x ticket id spot P` says that the server has handled the request with this ticket and id,
  and that its reply, whenever it comes, satisfies `P`; until it comes, the request can only wait in
  the queue at the place `spot`.  A request that has just been handled gets into this state
  (`Owed.of_handle`), and nothing that happens brings it out again: work of the server
  (`Owed.served`), frames that are read (`Owed.read`) and other requests (`Owed.submit`).
-/

namespace LeaseLock.Client.Exchange

open Reactor Coordinator Service

variable {x x' : Exchange} {ops : List (Operation ReplyTo)} {own : List (Nat × Wire.Response)}
  {ticket : Nat} {id : UInt32} {spot : Option (Nat × Waiter ReplyTo)}
  {P P' : Wire.Response → Prop}

/-- The server has handled the request with this ticket and id, and its reply satisfies `P`. -/
inductive Owed (x : Exchange) (ticket : Nat) (id : UInt32) (spot : Option (Nat × Waiter ReplyTo))
    (P : Wire.Response → Prop) : Prop
  /-- The reply has not been read. -/
  | due (waits : x.client.waiting.get? id.toNat = some ticket)
      (handled : ∀ q ∈ x.sent, q.1 ≠ ticket)
      (queue : ∀ p ∈ x.coordinator.queue, p.2.reply = ⟨x.endpoint, id⟩ → spot = some p)
      (frames : ∀ f ∈ x.inbox, ∀ r, Wire.Response.decode f = .ok r → r.id = id → P r)
  /-- The reply has been read. -/
  | read {r : Wire.Response} (outcome : x.client.outcome? ticket = some (.replied r)) (fits : P r)

namespace Owed

/-- What is laid down for a request is its reply. -/
theorem outcome (ho : Owed x ticket id spot P) (hx : x.Tidy) {o : Outcome}
    (h : x.client.outcome? ticket = some o) : ∃ r, o = .replied r ∧ P r := by
  cases ho with
  | due waits handled queue frames => cases (hx.wf.unsettled _ _ waits).symm.trans h
  | read outcome fits => exact ⟨_, Option.some.inj (h.symm.trans outcome), fits⟩

theorem mono (ho : Owed x ticket id spot P) (hP : ∀ r, P r → P' r) : Owed x ticket id spot P' := by
  cases ho with
  | due waits handled queue frames =>
    exact .due waits handled queue fun f hf r hd hid => hP r (frames f hf r hd hid)
  | read outcome fits => exact .read outcome (hP _ fits)

theorem handled (ho : Owed x ticket id spot P) (hx : x.Tidy) : ∀ q ∈ x.sent, q.1 ≠ ticket := by
  cases ho with
  | due waits handled queue frames => exact handled
  | read outcome fits =>
    rintro q hq rfl
    cases (hx.wf.unsettled _ _ (hx.sent q hq)).symm.trans outcome

/-- A request that does not wait may be said to wait anywhere. -/
theorem of_none (ho : Owed x ticket id none P) : Owed x ticket id spot P := by
  cases ho with
  | due waits handled queue frames =>
    exact .due waits handled (fun p hp hreply => by cases queue p hp hreply) frames
  | read outcome fits => exact .read outcome fits

/-! ## What happens meanwhile -/

/-- The server works for others. -/
theorem served (ho : Owed x ticket id spot P) (hx : x.Tidy) (hs : Served x ops own x')
    (hP : ∀ r, P r → P' r)
    (htold : (∀ op ∈ ops, op.reply? ≠ some ⟨x.endpoint, id⟩) →
      (∀ p ∈ x.coordinator.queue, p.2.reply = ⟨x.endpoint, id⟩ → spot = some p) →
      ∀ a, (⟨x.endpoint, id⟩, a) ∈ x.coordinator.told ops → P' (a.reply.response id)) :
    Owed x' ticket id spot P' := by
  cases ho with
  | due waits handled queue frames =>
    -- nobody else has this id
    have hapart : (⟨x.endpoint, id⟩ : ReplyTo) ∉
        own.map address ++ ops.filterMap Operation.reply? := by
      intro hm
      obtain ⟨q, hq, hid⟩ := hs.senders _ hm rfl
      have hwaits := hx.sent q hq
      rw [hid] at hwaits
      exact handled q hq (Option.some.inj (hwaits.symm.trans waits))
    have hops : ∀ op ∈ ops, op.reply? ≠ some ⟨x.endpoint, id⟩ := fun op hm heq =>
      hapart (List.mem_append_right _ (List.mem_filterMap.2 ⟨op, hm, heq⟩))
    refine .due (hs.client ▸ waits) (fun q hq => handled q (hs.sent.subset hq))
      (fun p hp hreply => ?_) fun f hf r hd hid => ?_
    · rw [hs.coordinator] at hp
      rw [hs.endpoint] at hreply
      rcases Coordinator.State.mem_queue_after hx.server.coherent hp with hold | ⟨op, hm, hp⟩
      · exact queue p hold hreply
      · exact absurd ((Operation.reply?_of_request? hp).trans (congrArg some hreply)) (hops op hm)
    · rcases hs.inbox f hf with hold | ⟨p, hp, hendpoint, rfl⟩
      · exact hP r (frames f hold r hd hid)
      · obtain rfl : p.2 = r := Except.ok.inj ((Wire.Response.decode_encode p.2).symm.trans hd)
        rcases List.mem_append.1 hp with htells | hown
        · obtain ⟨⟨⟨endpoint, i⟩, a⟩, ha, rfl⟩ := List.mem_map.1 htells
          obtain rfl : endpoint = x.endpoint := hendpoint
          obtain rfl : i = id := (congrArg ReplyTo.id (address_posted _)).symm.trans hid
          exact htold hops queue a ha
        · refine absurd (List.mem_append_left _ (List.mem_map.2 ⟨p, hown, ?_⟩)) hapart
          exact congrArg₂ ReplyTo.mk hendpoint hid
  | read outcome fits => exact .read (hs.client ▸ outcome) (hP _ fits)

/-- A request that does not wait gets no other reply by work for others. -/
theorem served_of_none (ho : Owed x ticket id none P) (hx : x.Tidy) (hs : Served x ops own x') :
    Owed x' ticket id none P := by
  refine ho.served hx hs (fun _ h => h) fun hops hqueue a ha => ?_
  rcases Coordinator.State.sender_of_told hx.server.coherent ha with ⟨p, hp, heq⟩ | ⟨op, hm, heq⟩
  · cases hqueue p hp heq
  · exact absurd heq (hops op hm)

/-- The client reads a frame. -/
theorem read_frame (ho : Owed x ticket id spot P) (hx : x.Tidy) :
    Owed (x.apply .read) ticket id spot P := by
  cases hi : x.inbox with
  | nil =>
    rw [apply_read_of_nil hi]
    exact ho
  | cons f rest =>
    rw [apply_read hi]
    cases hd : Wire.Response.decode f with
    | error fault =>
      rw [Connection.receive_of_error hd]
      cases ho with
      | due waits handled queue frames =>
        exact .due waits handled queue fun g hg =>
          frames g (hi ▸ List.mem_cons_of_mem _ hg)
      | read outcome fits => exact .read outcome fits
    | ok r =>
      rw [Connection.receive_of_decode hx.reading hd]
      cases ho with
      | due waits handled queue frames =>
        by_cases hid : id = r.id
        · refine .read (r := r) ?_ (frames f (hi ▸ List.mem_cons_self) r hd hid.symm)
          exact (Connection.get?_settled_settle hx.wf waits _).trans (if_pos hid)
        · refine .due ?_ handled queue fun g hg =>
            frames g (hi ▸ List.mem_cons_of_mem _ hg)
          show (x.client.settle r.id (.replied r)).waiting.get? id.toNat = _
          rw [Connection.get?_waiting_settle, if_neg fun h => hid (UInt32.toNat_inj.1 h), waits]
      | read outcome fits =>
        exact .read (Connection.get?_settled_of_settled hx.wf outcome _ _) fits

/-- The client sends a request. -/
theorem submit (ho : Owed x ticket id spot P) (hx : x.Tidy) (hf : x.client.Free)
    (command : UInt8) (body : Bytes) : Owed (x.submit command body).2 ticket id spot P := by
  have hstart := Connection.start_of_free hf hx.writing command body
  rw [submit_of_free hx hf]
  cases ho with
  | due waits handled queue frames =>
    refine .due (get?_waiting_start_of_some hx hf command body waits) (fun q hq => ?_) queue frames
    rcases List.mem_append.1 hq with hold | hlast
    · exact handled q hold
    · obtain rfl := List.mem_singleton.1 hlast
      exact (Nat.ne_of_lt (hx.wf.waiting_lt _ _ waits)).symm
  | read outcome fits =>
    refine .read ?_ fits
    show (x.client.start command body).2.settled.get? ticket = _
    rw [hstart]
    exact outcome

/-! ## How it begins -/

/-- A request has just been handled. -/
theorem of_handle (hx : x.Tidy) (hs : Served x ops own x') {q : Nat × Wire.Request}
    {rest : List (Nat × Wire.Request)} (hsent : x.sent = q :: rest) (hrest : x'.sent = rest)
    (hspot : ∀ op ∈ ops, ∀ p, op.request? = some p → p.2.reply = ⟨x.endpoint, q.2.id⟩ →
      spot = some p)
    (htold : ∀ a, (⟨x.endpoint, q.2.id⟩, a) ∈ x.coordinator.told ops → P (a.reply.response q.2.id))
    (hown : ∀ p ∈ own, p.2.id = q.2.id → P p.2) : Owed x' q.1 q.2.id spot P := by
  have hnodup := hx.nodup
  rw [underway, hsent, List.map_cons, List.cons_append, List.nodup_cons] at hnodup
  obtain ⟨hfresh, -⟩ := hnodup
  have hq := hx.sent q (hsent ▸ List.mem_cons_self)
  refine .due (hs.client ▸ hq) (fun q' hq' heq => ?_) (fun p hp hreply => ?_)
    fun f hf r hd hid => ?_
  · rw [hrest] at hq'
    have hwaits := hx.sent q' (hsent ▸ List.mem_cons_of_mem _ hq')
    rw [heq] at hwaits
    have hid := UInt32.toNat_inj.1 (hx.wf.single _ _ _ hwaits hq)
    exact hfresh (List.mem_append_left _ (List.mem_map.2 ⟨q', hq', hid⟩))
  · rw [hs.coordinator] at hp
    rw [hs.endpoint] at hreply
    rcases Coordinator.State.mem_queue_after hx.server.coherent hp with hold | ⟨op, hm, hp⟩
    · refine absurd (List.mem_append_right _ (List.mem_append_left _ (mem_idsAt.2 ?_))) hfresh
      exact List.mem_map.2 ⟨p, hold, hreply⟩
    · exact hspot op hm p hp hreply
  · rcases hs.inbox f hf with hold | ⟨p, hp, hendpoint, rfl⟩
    · refine absurd (List.mem_append_right _ (List.mem_append_right _ ?_)) hfresh
      exact List.mem_filterMap.2 ⟨f, hold, (idOf_of_decode hd).trans (congrArg some hid)⟩
    · obtain rfl : p.2 = r := Except.ok.inj ((Wire.Response.decode_encode p.2).symm.trans hd)
      rcases List.mem_append.1 hp with htells | hm
      · obtain ⟨⟨⟨endpoint, i⟩, a⟩, ha, rfl⟩ := List.mem_map.1 htells
        obtain rfl : endpoint = x.endpoint := hendpoint
        obtain rfl : i = q.2.id := (congrArg ReplyTo.id (address_posted _)).symm.trans hid
        exact htold a ha
      · exact hown p hm hid

/-- A request has just been handled that does not ask for a lock. -/
theorem of_command (hx : x.Tidy) (hs : Served x ops own x') {q : Nat × Wire.Request}
    {rest : List (Nat × Wire.Request)} (hsent : x.sent = q :: rest) (hrest : x'.sent = rest)
    (hops : ∀ op ∈ ops, op.reply? = none) (hown : ∀ p ∈ own, P p.2) :
    Owed x' q.1 q.2.id none P := by
  refine of_handle hx hs hsent hrest (fun op hm p hp _ => ?_) (fun a ha => ?_)
    fun p hm _ => hown p hm
  · cases (hops op hm).symm.trans (Operation.reply?_of_request? hp)
  · rcases Coordinator.State.sender_of_told hx.server.coherent ha with ⟨p, hp, heq⟩ | ⟨op, hm, hr⟩
    · exact absurd heq (hx.not_queued (hsent ▸ List.mem_cons_self) p hp)
    · cases (hops op hm).symm.trans hr

end Owed

end LeaseLock.Client.Exchange
