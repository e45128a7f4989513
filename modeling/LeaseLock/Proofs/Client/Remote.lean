import LeaseLock.Proofs.Client.Direct
import LeaseLock.Proofs.Client.Due
import LeaseLock.Proofs.Client.Footprint

/-
  LeaseLock: calls over a connection are calls of the coordinator.
  A call sends its request and waits (`Call.advance_conversation`).  When the server comes to the
  request, the coordinator does what it would do if it were asked directly after the renewal of the
  lease, and a response is on its way from which the client reads the same result; once it has read
  what has come, it has that result (`Exchange.Comes`).  A request for a lock that is put into a
  queue waits there, and when it leaves the queue the call gets the generation of the grant, or an
  error (`Call.Concludes`).  `Call.remote_as_direct` puts this together.
-/

namespace LeaseLock.Client

open Reactor Coordinator Service

namespace Exchange

variable {α : Type} {x y : Exchange} {P : Exchange → Prop} {ticket : Nat} {r : Wire.Response}

/-! ## Reading what has come -/

/-- The client has read all that has come. -/
def drained (x : Exchange) : Exchange := x.inbox.foldl (fun x _ => x.apply .read) x

theorem drained_of_cons {f : Bytes} {rest : List Bytes} (hi : x.inbox = f :: rest) :
    x.drained = (x.apply .read).drained := by
  have hrest : (x.apply .read).inbox = rest := by rw [apply_read hi]
  unfold drained
  rw [hrest, hi]
  rfl

theorem drained_of_nil (hi : x.inbox = []) : x.drained = x := by
  unfold drained
  rw [hi]
  rfl

/-- A reply that is due has been read then. -/
theorem Due.drained (h : Due x ticket r) (hx : x.Tidy) :
    x.drained.client.outcome? ticket = some (.replied r) := by
  generalize hi : x.inbox = frames
  induction frames generalizing x with
  | nil =>
    rw [drained_of_nil hi]
    exact (h.outcome hx).resolve_right fun hwaits => hwaits.2 hi
  | cons f rest ih =>
    rw [drained_of_cons hi]
    exact ih (h.read_frame hx) hx.read (by rw [apply_read hi])

/-- What waits for a reply has this result, or waits on; once all that has come has been read, it
has the result. -/
def Comes (x : Exchange) (rest : Conversation α) (result : Except Error α) : Prop :=
  (∀ expire, (rest.advance transport expire x.drained).1 = .finished result) ∧
    ((∀ expire, (rest.advance transport expire x).1 = .finished result) ∨
      ∀ expire, rest.advance transport expire x = (.stalled rest, x))

theorem Due.comes (h : Due x ticket r) (hx : x.Tidy) {c : Call α} {result : Except Error α}
    (hreads : c.Reads r result) : x.Comes (c.waiting ticket) result := by
  have hfinished : ∀ y : Exchange, y.client.outcome? ticket = some (.replied r) →
      ∀ expire, ((c.waiting ticket).advance transport expire y).1 = .finished result := by
    intro y houtcome expire
    unfold Call.waiting
    rw [Conversation.advance_await_of_reply (t := transport) houtcome]
    exact hreads transport expire y
  refine ⟨hfinished _ (h.drained hx), ?_⟩
  rcases h.outcome hx with houtcome | ⟨hnone, -⟩
  · exact .inl (hfinished x houtcome)
  · exact .inr fun expire => Conversation.advance_await_of_none hnone

/-! ## The request on its way -/

/-- The ticket is that of this request, as long as the request is on its way. -/
structure Bears (x : Exchange) (ticket : Nat) (r : Wire.Request) : Prop where
  used : ticket < x.client.nextTicket
  request : ∀ q ∈ x.sent, q.1 = ticket → q.2 = r

theorem Bears.apply {request : Wire.Request} (h : Bears x ticket request) (hx : x.Tidy)
    {m : Move} (hm : x.Allows m) : Bears (x.apply m) ticket request where
  used := Nat.lt_of_lt_of_le h.used (nextTicket_le_apply hx hm)
  request := fun q hq heq => by
    rcases mem_sent_apply hx hm hq with hold | hnew
    · exact h.request q hold heq
    · exact absurd (heq.symm.trans hnew) (Nat.ne_of_lt h.used)

theorem Bears.through {request : Wire.Request} (h : Bears x ticket request) (hx : Reached x)
    (hl : Through P x y) : Bears y ticket request := by
  induction hl with
  | refl holds => exact h
  | apply before allowed holds ih => exact ih.apply (before.reached hx).tidy allowed

end Exchange

namespace Call

variable {α : Type} {c : Call α} {x y : Exchange} {session ticket handle : Nat} {mode : Mode}
  {dest : ReplyTo} {value : Nat → α}

/-- A call sends its request and waits. -/
theorem advance_conversation (c : Call α) (hx : x.Tidy) (hf : x.client.Free) (expire : Bool) :
    c.conversation.advance Exchange.transport expire x =
      (.stalled (c.waiting x.client.nextTicket), (x.submit c.command.code c.command.body).2) := by
  rw [c.conversation_eq, Conversation.advance_send (Order.send_of_free hx hf c.command)]
  exact Conversation.advance_await_of_none (Order.outcome_of_submit hx hf c.command)

/-! ## Locks that a call waits for -/

/-- The lock that a call waits for: the handle, the mode, and what the call returns for the
generation of the grant. -/
inductive Awaits : {α : Type} → Call α → Nat → Mode → (Nat → α) → Prop
  | lock (handle : UInt64) (mode : Mode) : Awaits (.lock handle mode) handle.toNat mode .ofNat

/-- A call whose request for a lock has left its queue returns this. -/
inductive Concludes (s : Coordinator.State ReplyTo) (handle session : Nat) (mode : Mode)
    (value : Nat → α) : Except Error α → Prop
  /-- The lock has been granted: the call returns the generation. -/
  | granted {generation : Nat} (lock : s.Granted handle session mode generation) :
      Concludes s handle session mode value (.ok (value generation))
  /-- The request has been withdrawn. -/
  | withdrawn (bare : ∀ mode, ¬ s.Locked handle session mode) :
      Concludes s handle session mode value (.error .withdrawn)
  /-- The session has ended. -/
  | expired (bare : ∀ mode, ¬ s.Locked handle session mode) {e : Error}
      (tells : e.Tells (.sessionExpired session)) :
      Concludes s handle session mode value (.error e)

theorem Awaits.concludes (h : c.Awaits handle mode value) {s : Coordinator.State ReplyTo}
    {a : Answer} (hp : Parted s handle ⟨session, mode, dest⟩ a) :
    ∃ result, Concludes s handle session mode value result ∧
      c.Reads (a.reply.response dest.id) result := by
  cases h with
  | lock handle mode =>
    cases hp with
    | granted lock => exact ⟨_, .granted lock, reads_lock_granted handle mode dest.id _⟩
    | cancelled bare =>
      exact ⟨_, .withdrawn bare, reads_of_read rfl fun t expire w => rfl⟩
    | expired bare =>
      exact ⟨_, .expired bare (Error.tells_error dest.id _), reads_of_isError rfl⟩

/-- The only request that returns nothing at once is one for a lock that is put into a queue. -/
theorem queued_direct (c : Call α) {s : Coordinator.State ReplyTo} {now : Nat}
    (hl : Leased s session now) (hlimit : now + s.sessions.lease < Time.limit)
    (h : (c.direct session now dest s).1 = none) :
    ∃ handle mode value, c.Awaits handle mode value ∧
      (handle, ⟨session, mode, dest⟩) ∈ (c.direct session now dest s).2.queue := by
  cases c with
  | keepAlive =>
    have h : renewed (s.sessions.renew session now).1 = none := h
    rw [Sessions.renew_of_live hl hlimit] at h
    cases h
  | attachSession id =>
    have h : renewed (s.sessions.renew id.toNat now).1 = none := h
    by_cases hid : s.sessions.Live id.toNat now
    · rw [Sessions.renew_of_live hid hlimit] at h
      cases h
    · rw [Sessions.renew_of_not_live hid] at h
      cases h
  | tryLock handle mode =>
    have hr := s.requested_acquire session handle.toNat mode true dest
    have h : settled (some ∘ UInt64.ofNat) (some none)
      (s.acquire session handle.toNat mode true dest) = none := h
    generalize s.acquire session handle.toNat mode true dest = r at hr h
    cases hr with
    | refused checked => cases h
    | granted checked alone admitted => cases h
    | denied checked blocked impatient => cases h
    | queued checked blocked patient => cases patient
  | lock handle mode =>
    refine ⟨_, _, _, .lock handle mode, ?_⟩
    have hr := s.requested_acquire session handle.toNat mode false dest
    have h : settled UInt64.ofNat none (s.acquire session handle.toNat mode false dest) = none := h
    show _ ∈ (s.acquire session handle.toNat mode false dest).2.state.queue
    generalize s.acquire session handle.toNat mode false dest = r at hr h ⊢
    cases hr with
    | refused checked => cases h
    | granted checked alone admitted => cases h
    | denied checked blocked impatient => cases impatient
    | @queued found checked blocked patient =>
      refine Coordinator.State.mem_queue.2 ⟨_, Table.get?_insert_self _ _ _, ?_⟩
      exact List.mem_append_right _ (List.mem_singleton.2 rfl)
  | _ => cases h

/-! ## The request is handled -/

/-- How a call goes on whose request the server comes to in the state `x`. -/
structure Remote (c : Call α) (session ticket : Nat) (dest : ReplyTo) (x : Exchange) : Prop where
  /-- The coordinator does what it would do if it were asked directly, after the renewal of the
  lease. -/
  state : (x.apply .handle).coordinator =
    (c.direct session x.loop.clock dest (x.coordinator.renew session x.loop.clock).2).2
  /-- What it would return, the call returns. -/
  answered : ∀ r,
    (c.direct session x.loop.clock dest (x.coordinator.renew session x.loop.clock).2).1 = some r →
      ∃ result, Agrees r result ∧
        ∀ y, (x.apply .handle).Later y → y.Comes (c.waiting ticket) result
  /-- If it would put a request for a lock into a queue, the call waits as long as the request is
  there; and when it has left its queue, the call returns how. -/
  queued :
    (c.direct session x.loop.clock dest (x.coordinator.renew session x.loop.clock).2).1 = none →
      ∃ handle mode value, c.Awaits handle mode value ∧
        ∀ y, Exchange.Through (fun z => (handle, ⟨session, mode, dest⟩) ∈ z.coordinator.queue)
          (x.apply .handle) y →
          (∀ expire, (c.waiting ticket).advance Exchange.transport expire y =
            (.stalled (c.waiting ticket), y)) ∧
          ∀ m, y.Allows m → (y.apply m).Open →
            (handle, ⟨session, mode, dest⟩) ∉ (y.apply m).coordinator.queue →
            ∃ result, Concludes (y.apply m).coordinator handle session mode value result ∧
              ∀ z, (y.apply m).Later z → z.Comes (c.waiting ticket) result

/-- What follows when the server comes to the request of a call. -/
theorem remote_of_sent (c : Call α) (hx : Exchange.Reached x) {id : UInt32}
    {rest : List (Nat × Wire.Request)} (hs : x.sent = (ticket, c.command.request id) :: rest)
    (hl : x.Live session) (ht : Timely x.loop) : c.Remote session ticket ⟨x.endpoint, id⟩ x := by
  have hlimit : x.loop.clock + x.coordinator.sessions.lease < Time.limit := ht
  have hpos := (hx.regular ht).leases.lease_pos hl.2
  have hlive : Leased (x.coordinator.renew session x.loop.clock).2 session x.loop.clock :=
    Sessions.live_renew hl.2 hlimit hpos
  have hlimit' : x.loop.clock +
      (x.coordinator.renew session x.loop.clock).2.sessions.lease < Time.limit :=
    lt_of_eq_of_lt (congrArg (x.loop.clock + ·)
      (Coordinator.State.lease_after x.coordinator [.renew session x.loop.clock])) hlimit
  have hrenewed : ((x.coordinator.renew session x.loop.clock).2.renew session x.loop.clock).2 =
      (x.coordinator.renew session x.loop.clock).2 :=
    congrArg (fun r => { x.coordinator with sessions := r.2 })
      (Sessions.renew_renew hl.2 hlimit hpos)
  have h := Exchange.handled hx hl ht hs (Wire.Command.decode_body c.fits_command)
  have hstate : (x.apply .handle).coordinator = (c.direct session x.loop.clock ⟨x.endpoint, id⟩
      (x.coordinator.renew session x.loop.clock).2).2 :=
    h.coordinator.trans (c.state_direct hrenewed)
  have hx' : Exchange.Reached (x.apply .handle) := .apply hx trivial
  have hwaits : (x.apply .handle).client.waiting.get? id.toNat = some ticket := by
    rw [Exchange.apply_handle hs]
    exact hx.tidy.sent _ (hs ▸ List.mem_cons_self)
  refine ⟨hstate, fun r hr => ?_, fun hr => ?_⟩
  · obtain ⟨response, result, hid, hsends, hreads, hagrees⟩ :=
      c.returns_direct (x.loop.world.renewed session x.loop.clock) hlive hlimit' hr
    have harrives : response.encode ∈ (x.apply .handle).inbox := by
      rcases hsends with hresponse | ⟨a, ha, rfl⟩
      · exact h.responses response hresponse
      · exact h.answers a ha
    have hdue : Exchange.Due (x.apply .handle) ticket response :=
      .coming (hid ▸ hwaits) harrives
    exact ⟨result, hagrees, fun y hy => (hdue.through hx' hy).comes (hy.reached hx').tidy hreads⟩
  · obtain ⟨handle, mode, value, hawaits, hplace⟩ := c.queued_direct hlive hlimit' hr
    rw [← hstate] at hplace
    have hqueued : Exchange.Queued (x.apply .handle) ticket handle
        ⟨session, mode, ⟨x.endpoint, id⟩⟩ := ⟨(x.loop_apply .handle).1.symm, hwaits, hplace⟩
    refine ⟨handle, mode, value, hawaits, fun y hy => ⟨fun expire => ?_, ?_⟩⟩
    · exact Conversation.advance_await_of_none
        ((hqueued.through hx' hy).outcome (hy.reached hx').tidy)
    · intro m hm hopen hleft
      have hy' := hy.reached hx'
      obtain ⟨a, hparted, hdue⟩ := (hqueued.through hx' hy).parted hy' hm hopen hleft
      obtain ⟨result, hconcludes, hreads⟩ := hawaits.concludes hparted
      have hreached : Exchange.Reached (y.apply m) := .apply hy' hm
      exact ⟨result, hconcludes, fun z hz =>
        (hdue.through hreached hz).comes (hz.reached hreached).tidy hreads⟩

/-- A call over a connection of a session that has its lease is the call of the coordinator.  It
sends its request and waits.  When the server comes to the request while the session has its lease,
and the clock can name the end of a new one, the coordinator does what it does if the lease is
renewed and it is asked directly; and the call returns what that returns, a fault as an error with
its code and its wording.  A request for a lock that is put into a queue returns, once it has left
the queue and if the connection still stands, the generation of the grant, or an error if it has
been withdrawn or the session has ended. -/
theorem remote_as_direct (c : Call α) (hx : Exchange.Reached x) (hf : x.client.Free) :
    (∀ expire, c.conversation.advance Exchange.transport expire x =
      (.stalled (c.waiting x.client.nextTicket), (x.submit c.command.code c.command.body).2)) ∧
    ∀ y session, (x.submit c.command.code c.command.body).2.Later y →
      y.sent.head?.map (·.1) = some x.client.nextTicket → y.Live session → Timely y.loop →
        c.Remote session x.client.nextTicket ⟨y.endpoint, x.client.nextId⟩ y := by
  refine ⟨c.advance_conversation hx.tidy hf, fun y session hy hhead hl ht => ?_⟩
  have hsubmitted : Exchange.Reached (x.submit c.command.code c.command.body).2 :=
    .apply (m := .request c.command.code c.command.body) hx hf
  have hbears : (x.submit c.command.code c.command.body).2.Bears x.client.nextTicket
      (c.command.request x.client.nextId) := by
    refine ⟨?_, fun q hq heq => ?_⟩
    · rw [Exchange.nextTicket_submit hx.tidy hf]
      exact Nat.lt_succ_self _
    · rcases (Exchange.mem_sent_submit hx.tidy hf _ _).1 hq with hold | rfl
      · exact absurd heq (Nat.ne_of_lt (hx.tidy.wf.waiting_lt _ _ (hx.tidy.sent q hold)))
      · rfl
  have hb := hbears.through hsubmitted hy
  cases hs : y.sent with
  | nil =>
    rw [hs] at hhead
    cases hhead
  | cons q rest =>
    rw [hs] at hhead
    obtain ⟨t, request⟩ := q
    obtain rfl : t = x.client.nextTicket := Option.some.inj hhead
    obtain rfl := hb.request _ (hs ▸ List.mem_cons_self) rfl
    exact c.remote_of_sent (hy.reached hsubmitted) hs hl ht

/-- The second session asks for a lock that the first one holds: the request is put into a queue. -/
theorem remote_as_direct_contended :
    let c := Call.lock 1 .exclusive
    let y := (contended.submit c.command.code c.command.body).2
    (c.direct 2 y.loop.clock ⟨2, 3⟩ (y.coordinator.renew 2 y.loop.clock).2).1 = none ∧
      c.Remote 2 contended.client.nextTicket ⟨2, 3⟩ y :=
  ⟨rfl, ((Call.lock 1 .exclusive).remote_as_direct reached_contended (by decide +kernel)).2 _ 2
    (.refl trivial) (by decide +kernel) (by decide +kernel) (by decide +kernel)⟩

end Call

end LeaseLock.Client
