import LeaseLock.Proofs.Client.Phase

/-
  LeaseLock: a call for a lock with a time limit leaves nothing behind.
  Until the server comes to the request of the call, the call can only wait for the reply, or give
  up and wait for the reply to the withdrawal, which is behind the request (`Order.Before`).  Then
  the request is handled, and the call is in one of the phases of `Order.After`.  So each run ends
  either way (`Order.Before.run`), and a call that has run out of time, or has got the lock, is in
  the second (`lockWithin_settles`).
-/

namespace LeaseLock.Client

open Reactor Coordinator Service

namespace Order

open Conversation (awaiting withdrawing lockWithin)

variable {o : Order} {s : Calling} {x : Exchange} {own : Option (Nat × Wire.Request)}
  {first last : List (Nat × Wire.Request)} {b : Coordinator.State ReplyTo} {bid : Bid}
  {m : Calling.Move} {moves : List Calling.Move}

/-! ## Before the request is handled -/

/-- How far the call can be before its request is handled, and what it has sent since. -/
inductive Early (o : Order) : Option (Nat × Wire.Request) → Conversation.Progress UInt64 → Prop
  /-- It waits for the reply. -/
  | waiting : Early o none (.stalled (awaiting o.handle o.limit o.ticket))
  /-- The time is up, and the withdrawal is on its way. -/
  | cancelling {ticket : Nat} {id : UInt32} :
      Early o (some (ticket, (Wire.Command.cancelLock o.handle).request id))
        (.stalled (withdrawing o.handle o.limit o.ticket ticket))

/-- The request is handled. -/
theorem Early.phase {p : Conversation.Progress UInt64} (he : o.Early own p)
    (hunspent : bid ≠ .spent) : o.Phase x bid own p := by
  cases he with
  | waiting => exact .waiting hunspent
  | cancelling => exact .cancelling hunspent

/-- The request of the call is on its way: `first` was sent before it, `last` after it. -/
structure Before (o : Order) (s : Calling) (first last : List (Nat × Wire.Request))
    (own : Option (Nat × Wire.Request)) : Prop where
  tidy : s.exchange.Tidy
  endpoint : s.exchange.endpoint = o.dest.endpoint
  sent : s.exchange.sent = first ++ (o.ticket, o.request) :: last
  older : ∀ q ∈ first, q.1 ≠ o.ticket
  early : o.Early own s.progress
  spare : ∀ q ∈ last, own = some q ∨ o.Spare q.2
  own : ∀ q, own = some q → q ∈ last

namespace Before

theorem mem_sent (hb : o.Before s first last own) : (o.ticket, o.request) ∈ s.exchange.sent :=
  hb.sent ▸ List.mem_append_right _ List.mem_cons_self

/-- The call has just been made. -/
theorem start (hx : x.Tidy) (hf : x.client.Free) (session : Nat) (handle : UInt64) (mode : Mode)
    (limit : Nat) : (x.order session handle mode limit).Before
      (.start x handle mode limit) x.sent [] none := by
  have hstart : Calling.start x handle mode limit =
      ⟨.stalled (awaiting handle limit x.client.nextTicket),
        (x.submit (Conversation.lockCommand handle mode false).code
          (Conversation.lockCommand handle mode false).body).2⟩ := by
    refine Calling.carry_eq ?_
    rw [Conversation.lockWithin_eq, Conversation.advance_send (send_of_free hx hf _)]
    exact Conversation.advance_awaiting_of_none (outcome_of_submit hx hf _)
  rw [hstart]
  refine ⟨hx.submit hf _ _, ?_, ?_, fun q hq => ?_, .waiting, nofun, nofun⟩
  · rw [Exchange.submit_of_free hx hf]
    rfl
  · rw [Exchange.submit_of_free hx hf]
    rfl
  · exact Nat.ne_of_lt (hx.wf.waiting_lt _ _ (hx.sent q hq))

/-! ### What others do -/

theorem serve (hb : o.Before s first last own) {i : Server.Input}
    (hp : o.Permits s (.other (.serve i))) :
    o.Before (s.apply (.other (.serve i))) first last own :=
  ⟨hb.tidy.serve hp.2.1, hb.endpoint, hb.sent, hb.older, hb.early, hb.spare, hb.own⟩

theorem read (hb : o.Before s first last own) :
    o.Before (s.apply (.other .read)) first last own :=
  ⟨hb.tidy.read, (Exchange.endpoint_read _).trans hb.endpoint,
    (Exchange.sent_read _).trans hb.sent, hb.older, hb.early, hb.spare, hb.own⟩

/-- A request is sent after that of the call. -/
theorem submit (hb : o.Before s first last own) (hf : s.exchange.client.Free) {command : UInt8}
    {body : Bytes} {p : Conversation.Progress UInt64} {own' : Option (Nat × Wire.Request)}
    {q : Nat × Wire.Request}
    (hq : q = (s.exchange.client.nextTicket, ⟨s.exchange.client.nextId, command, body⟩))
    (hearly : o.Early own' p) (hspare : ∀ r ∈ last ++ [q], own' = some r ∨ o.Spare r.2)
    (hown : ∀ r, own' = some r → r ∈ last ++ [q]) :
    o.Before ⟨p, (s.exchange.submit command body).2⟩ first (last ++ [q]) own' := by
  refine ⟨hb.tidy.submit hf command body, ?_, ?_, hb.older, hearly, hspare, hown⟩
  · rw [Exchange.submit_of_free hb.tidy hf]
    exact hb.endpoint
  · rw [Exchange.submit_of_free hb.tidy hf, ← hq]
    show s.exchange.sent ++ [q] = _
    rw [hb.sent, List.append_assoc]
    rfl

/-- Another call sends a request. -/
theorem request (hb : o.Before s first last own) {command : UInt8} {body : Bytes}
    (hp : o.Permits s (.other (.request command body))) :
    ∃ last', o.Before (s.apply (.other (.request command body))) first last' own := by
  obtain ⟨-, hfree, hspare⟩ := hp
  refine ⟨_, hb.submit hfree rfl hb.early (fun q hq => ?_)
    fun q hq => List.mem_append_left _ (hb.own q hq)⟩
  rcases List.mem_append.1 hq with hold | hlast
  · exact hb.spare q hold
  · obtain rfl := List.mem_singleton.1 hlast
    exact .inr hspare

/-- The server handles a request that was sent before. -/
theorem handle_older {q : Nat × Wire.Request} (hb : o.Before s (q :: first) last own) :
    o.Before (s.apply (.other .handle)) first last own := by
  refine ⟨hb.tidy.handle, ?_, Exchange.sent_handle hb.sent, fun q hq => ?_, hb.early, hb.spare,
    hb.own⟩
  · show (s.exchange.apply .handle).endpoint = _
    rw [Exchange.apply_handle hb.sent]
    exact hb.endpoint
  · exact hb.older q (List.mem_cons_of_mem _ hq)

/-- The server handles the request of the call. -/
theorem handle (hb : o.Before s [] last own) (hlive : s.exchange.Live o.session) :
    ∃ bid, o.After s.exchange.coordinator (s.apply (.other .handle)) bid own := by
  obtain ⟨bid, hunspent, hbidding⟩ := bidding_of_handle hb.tidy hlive hb.endpoint hb.sent
  have hsent := Exchange.sent_handle hb.sent
  exact ⟨bid, hb.tidy.handle, hbidding,
    ⟨fun q hq => hb.spare q (hsent ▸ hq), fun q hq => hsent ▸ hb.own q hq⟩,
    hb.early.phase hunspent⟩

/-! ### What the call does -/

/-- The call still waits. -/
theorem still {rest : Conversation UInt64} {expire : Bool}
    (hb : o.Before ⟨.stalled rest, x⟩ first last own)
    (h : Conversation.advance Exchange.transport expire rest x = (.stalled rest, x)) :
    ∃ last' own', o.Before (Calling.carry expire rest x) first last' own' := by
  rw [Calling.carry_eq h]
  exact ⟨last, own, hb⟩

/-- The call gives up. -/
theorem giveUp {p : Conversation.Progress UInt64} (hb : o.Before ⟨p, x⟩ first last none)
    (hf : x.client.Free) (expire : Bool) : ∃ last' own', o.Before
      (Calling.carry expire (Conversation.giveUp o.handle o.limit o.ticket) x) first last'
      own' := by
  rw [carry_giveUp hb.tidy hf]
  refine ⟨_, some (x.client.nextTicket, (Wire.Command.cancelLock o.handle).request
    x.client.nextId), hb.submit hf rfl .cancelling (fun q hq => ?_) fun q hq => ?_⟩
  · rcases List.mem_append.1 hq with hold | hlast
    · exact .inr ((hb.spare q hold).resolve_left nofun)
    · exact .inl (congrArg some (List.mem_singleton.1 hlast).symm)
  · exact List.mem_append_right _ (List.mem_singleton.2 (Option.some.inj hq).symm)

/-- There is no reply yet: the call waits on, or gives up. -/
theorem advance (hb : o.Before s first last own) (hf : s.exchange.client.Free) (expire : Bool) :
    ∃ last' own', o.Before (s.apply (.advance expire)) first last' own' := by
  have hnone := hb.tidy.outcome_of_sent hb.mem_sent
  obtain ⟨p, x⟩ := s
  have hearly := hb.early
  cases hearly with
  | waiting =>
    cases expire with
    | false => exact hb.still (Conversation.advance_awaiting_of_none hnone)
    | true =>
      obtain ⟨last', own', hb'⟩ := hb.giveUp hf true
      refine ⟨last', own', ?_⟩
      show o.Before (Calling.carry true _ x) first last' own'
      rw [Calling.carry_congr (Conversation.advance_awaiting_of_expired hnone)]
      exact hb'
  | cancelling =>
    -- the withdrawal is behind the request
    have hsent := hb.sent ▸ List.mem_append_right _ (List.mem_cons_of_mem _ (hb.own _ rfl))
    exact hb.still (Conversation.advance_withdrawing_of_none (hb.tidy.outcome_of_sent hsent))

/-! ### Runs -/

/-- Either the server comes to the request of the call, or it does not. -/
theorem step (hb : o.Before s first last own) (hp : o.Permits s m) :
    (o.Meets s m ∧ ∃ bid, o.After s.exchange.coordinator (s.apply m) bid own) ∨
      ¬ o.Meets s m ∧ ∃ first last own, o.Before (s.apply m) first last own := by
  cases m with
  | advance expire =>
    obtain ⟨last', own', hb'⟩ := hb.advance hp expire
    exact .inr ⟨id, first, last', own', hb'⟩
  | other m =>
    cases m with
    | serve i => exact .inr ⟨id, first, last, own, hb.serve hp⟩
    | read => exact .inr ⟨id, first, last, own, hb.read⟩
    | request command body =>
      obtain ⟨last', hb'⟩ := hb.request hp
      exact .inr ⟨id, first, last', own, hb'⟩
    | handle =>
      cases first with
      | nil =>
        refine .inl ⟨?_, hb.handle hp.1⟩
        show s.exchange.sent.head?.map (·.1) = _
        rw [hb.sent]
        rfl
      | cons q rest =>
        refine .inr ⟨?_, rest, last, own, hb.handle_older⟩
        show s.exchange.sent.head?.map (·.1) ≠ _
        rw [hb.sent]
        exact fun h => hb.older q List.mem_cons_self (Option.some.inj h)

end Before

theorem After.run (ha : o.After b s bid own) (hp : o.Undisturbed s moves) :
    ∃ bid' own', o.After b (s.run moves) bid' own' := by
  induction moves generalizing s bid own with
  | nil => exact ⟨bid, own, ha⟩
  | cons m rest ih =>
    obtain ⟨bid', own', ha'⟩ := ha.step hp.1
    exact ih ha' hp.2

/-- Either the request of the call has been handled in the course of the moves, or it is still on
its way. -/
theorem Before.run (hb : o.Before s first last own) (hp : o.Undisturbed s moves) :
    (∃ b bid own, o.met? s moves = some b ∧ o.After b (s.run moves) bid own) ∨
      ∃ first last own, o.Before (s.run moves) first last own := by
  induction moves generalizing s first last own with
  | nil => exact .inr ⟨first, last, own, hb⟩
  | cons m rest ih =>
    unfold met?
    rcases hb.step hp.1 with ⟨hmeets, bid, ha⟩ | ⟨hmeets, first', last', own', hb'⟩
    · obtain ⟨bid', own', ha'⟩ := ha.run hp.2
      rw [if_pos hmeets]
      exact .inl ⟨_, bid', own', rfl, ha'⟩
    · rw [if_neg hmeets]
      exact ih hb' hp.2

/-! ## The end of the call -/

/-- The call has come to nothing: what the session has of the handle is what it had when the server
came to the request. -/
structure Undone (o : Order) (b s : Coordinator.State ReplyTo) : Prop where
  /-- The request does not wait. -/
  gone : s.Gone o.handle.toNat o.dest
  /-- A lock that the session held is not lost. -/
  keeps : ∀ mode, b.Locked o.handle.toNat o.session mode → s.Locked o.handle.toNat o.session mode
  /-- None is got, unless by an earlier request of the session that was still waiting. -/
  same : b.Out o.handle.toNat o.session → s.Out o.handle.toNat o.session ∧
    ∀ mode, s.Locked o.handle.toNat o.session mode ↔ b.Locked o.handle.toNat o.session mode

/-- The call has got the lock, which the session did not hold when the server came to the
request. -/
structure Done (o : Order) (b s : Coordinator.State ReplyTo) (generation : Nat) : Prop where
  new : ∀ mode, ¬ b.Locked o.handle.toNat o.session mode
  granted : s.Granted o.handle.toNat o.session o.mode generation

theorem undone_of_stands {s : Coordinator.State ReplyTo}
    (hs : Stands b s o.handle.toNat o.waiter bid) (hbid : bid = .refused ∨ bid = .spent) :
    o.Undone b s := by
  cases hs with
  | waiting line single new => rcases hbid with h | h <;> cases h
  | holding lock gone new => rcases hbid with h | h <;> cases h
  | refused gone keeps same =>
    exact ⟨gone, keeps, fun hout =>
      ⟨(same hout).1, fun mode => ⟨(same hout).2 mode, keeps mode⟩⟩⟩
  | spent gone out bare new =>
    exact ⟨gone, fun mode hl => absurd hl (new mode), fun _ =>
      ⟨out, fun mode => ⟨fun hl => absurd hl (bare mode), fun hl => absurd hl (new mode)⟩⟩⟩

theorem done_of_stands {s : Coordinator.State ReplyTo} {generation : Nat}
    (hs : Stands b s o.handle.toNat o.waiter (.holding generation)) :
    o.Done b s generation := by
  cases hs with
  | holding lock gone new => exact ⟨new, lock⟩

end Order

/-- A call for a lock with a time limit, over a connection of a session that keeps its lease.  The
call is carried on now and then, while the server works for others and the client makes calls that
do not touch the handle.  If the time is up in the end, the call has come to nothing; if it has got
a generation, the session holds the lock in the mode that was asked for, and of this generation. -/
theorem lockWithin_settles {x : Exchange} (hx : Exchange.Reached x) (hf : x.client.Free)
    {session : Nat} {handle : UInt64} {mode : Mode} {limit : Nat} {moves : List Calling.Move}
    (hp : (x.order session handle mode limit).Undisturbed (.start x handle mode limit) moves) :
    let o := x.order session handle mode limit
    let s := (Calling.start x handle mode limit).run moves
    (∀ e, s.progress = .finished (.error e) → e.fault? = some .timeout →
      ∃ b, o.met? (.start x handle mode limit) moves = some b ∧
        o.Undone b s.exchange.coordinator) ∧
    ∀ g, s.progress = .finished (.ok g) →
      ∃ b generation, o.met? (.start x handle mode limit) moves = some b ∧
        o.Done b s.exchange.coordinator generation ∧ g = UInt64.ofNat generation := by
  intro o s
  have hb : o.Before (.start x handle mode limit) x.sent [] none :=
    .start hx.tidy hf session handle mode limit
  rcases hb.run hp with ⟨b, bid, own, hmet, ha⟩ | ⟨first, last, own, hb'⟩
  · have hphase : o.Phase s.exchange bid own s.progress := ha.phase
    have hstands : Stands b s.exchange.coordinator o.handle.toNat o.waiter bid :=
      ha.bidding.stands
    constructor
    · intro e hend hfault
      rw [hend] at hphase
      cases hphase with
      | late ended => exact ⟨b, hmet, Order.undone_of_stands hstands ended⟩
      | failed untimed => exact absurd hfault untimed
    · intro g hend
      rw [hend] at hphase
      cases hphase with
      | done held =>
        rw [held] at hstands
        exact ⟨b, _, hmet, Order.done_of_stands hstands, rfl⟩
  · -- a call whose request is on its way has not ended
    have hearly : o.Early own s.progress := hb'.early
    constructor
    · intro e hend
      rw [hend] at hearly
      cases hearly
    · intro g hend
      rw [hend] at hearly
      cases hearly

/-! ## A grant that comes too late -/

/-- A request over another connection. -/
def rival (id : UInt32) (command : Wire.Command) : Server.Input :=
  .event (.data 1 (command.request id).encode)

/-- A server where the first session holds the lock of the first handle. -/
def busy : Server.Loop :=
  [.accept, rival 1 .openSession, rival 2 (.open "a"),
    rival 3 (Conversation.lockCommand 1 .exclusive false)].foldl Server.Input.apply
      (Server.start .default).loop

/-- A connection to it of a second session that has opened the handle as well. -/
def contended : Exchange :=
  let request (command : Wire.Command) := Exchange.Move.request command.code command.body
  [request .openSession, .handle, .read, request (.open "a"), .handle, .read].foldl
    Exchange.apply (.dial busy)

/-- The request waits, the time is up, and before the withdrawal is handled the first session
releases the lock: the second gets it too late, and has to release it. -/
def overtaken : List Calling.Move :=
  [.other .handle, .advance true, .other (.serve (rival 4 (.release 1))), .other .handle,
    .other .read, .other .read, .advance false, .other .handle, .other .read, .advance false]

theorem reached_contended : Exchange.Reached contended := by
  unfold contended
  simp only [List.foldl_cons, List.foldl_nil]
  refine .apply (.apply (.apply (.apply (.apply (.apply (.dial ⟨.default, _, rfl⟩) ?_) trivial)
    trivial) ?_) trivial) trivial
  · decide +kernel
  · decide +kernel

theorem lockWithin_settles_overtaken :
    let o := contended.order 2 1 .exclusive 5
    let s := (Calling.start contended 1 .exclusive 5).run overtaken
    s.progress = .finished (.error (.tooLate 1 5)) ∧
      ∃ b, o.met? (.start contended 1 .exclusive 5) overtaken = some b ∧
        o.Undone b s.exchange.coordinator :=
  ⟨rfl, (lockWithin_settles reached_contended (by decide +kernel) (by decide +kernel)).1 _ rfl rfl⟩

end LeaseLock.Client
