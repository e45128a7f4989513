import LeaseLock.Coordinator.Reply
import LeaseLock.Proofs.Coordinator.Request
import Mathlib.Data.List.Perm.Basic

/-
  LeaseLock: every lock request is answered once.
  A traffic is a run of calls together with the replies that they send.  Each request has the
  number of its call for an address.  A call changes the state at once and its replies reach their
  requests one by one afterwards, in any order; further calls may come in between, so that this
  covers calls that are made while a reply is being received, and calls that overlap.

  What is received, what is on its way and what waits in a queue is together a permutation of the
  requests made (`Ledger.balance`); every reply follows from what one call did (`Ledger.due`).
  `answered_once` draws the conclusion for all runs.
-/

namespace LeaseLock.Coordinator

/-! ## Calls and replies -/

/-- A call of the coordinator that has been carried out. -/
structure Call where
  /-- The operation; the address of a lock request is the number of the call. -/
  op : Operation Unit
  /-- The state in which it found the coordinator. -/
  found : State Nat
  /-- The result that it returns. -/
  result : Result
  /-- What it did. -/
  turn : Turn Nat

/-- The call of number `n`, made in this state. -/
def Call.make (s : State Nat) (op : Operation Unit) (n : Nat) : Call :=
  let (result, turn) := s.perform (op.mapReply fun _ => n)
  ⟨op, s, result, turn⟩

/-- A reply to a lock request. -/
structure Notice where
  /-- The call that sends it. -/
  call : Nat
  /-- The call that made the request. -/
  request : Nat
  /-- What the sender of the request is sent. -/
  reply : Reply
deriving DecidableEq

/-- The replies that the call of number `n` sends. -/
def Call.notices (c : Call) (n : Nat) : List Notice :=
  c.turn.answers.map fun p => ⟨n, p.1, p.2.reply⟩

/-- A run of calls. -/
structure Traffic where
  /-- The coordinator. -/
  state : State Nat
  /-- The calls so far; the number of a call is its position. -/
  calls : List Call
  /-- The replies that are on their way. -/
  underWay : List Notice
  /-- The replies that have been received. -/
  received : List Notice

namespace Traffic

/-- A step of a run. -/
inductive Move where
  /-- A call. -/
  | call (op : Operation Unit)
  /-- The reply at this position of those on their way is received. -/
  | receive (i : Nat)

/-- A run at its start. -/
def start (lease : Nat) : Traffic := ⟨.empty lease, [], [], []⟩

/-- Carry out a step. -/
def next (t : Traffic) : Move → Traffic
  | .call op =>
    let c := Call.make t.state op t.calls.length
    { t with
      state := c.turn.state
      calls := t.calls ++ [c]
      underWay := t.underWay ++ c.notices t.calls.length }
  | .receive i =>
    match t.underWay[i]? with
    | none => t
    | some d => { t with underWay := t.underWay.eraseIdx i, received := t.received ++ [d] }

/-- Carry out steps in order. -/
def run (t : Traffic) (moves : List Move) : Traffic := moves.foldl next t

/-! ## What becomes of a request -/

/-- Whether the call of number `n` is a lock request. -/
def isRequest (t : Traffic) (n : Nat) : Bool := t.calls[n]?.any fun c => c.op.asker?.isSome

/-- The numbers of the lock requests. -/
def requests (t : Traffic) : List Nat := (List.range t.calls.length).filter t.isRequest

/-- The replies to a request that have been received. -/
def repliesTo (t : Traffic) (n : Nat) : List Notice := t.received.filter (·.request == n)

/-- The replies to a request that are on their way. -/
def underWayTo (t : Traffic) (n : Nat) : List Notice := t.underWay.filter (·.request == n)

/-- The places of a request in the queues. -/
def places (t : Traffic) (n : Nat) : List (Nat × Waiter Nat) :=
  t.state.queue.filter (·.2.reply == n)

end Traffic

/-- The reply that a lock request is sent if this is how it stands when its call returns. -/
def LockOutcome.Told : LockOutcome → Reply → Prop
  | .granted generation, r => r = .respond .granted (Wire.LockGrant.mk (.ofNat generation)).encode
  | .denied, r => r = .respond .busy []
  | .refused code, r => ∃ message, r = .error code message
  | .queued, _ => False

/-- A call has taken the request of number `n`, made by a session, out of a queue, and this is what
it replies. -/
structure Call.Takes (c : Call) (n session : Nat) (r : Reply) : Prop where
  /-- The request waited before the call, and whoever is told of a grant has been given the lock
  by this call. -/
  before : ∃ handle mode, (handle, ⟨session, mode, n⟩) ∈ c.found.queue ∧
    ((∃ generation, r = .respond .granted (Wire.LockGrant.mk (.ofNat generation)).encode ∧
        c.turn.Gave handle session mode generation) ∨
      r = .respond .cancelled [] ∨
      r = .error .sessionExpired (Fault.sessionExpired session).message)
  /-- It waits no longer. -/
  after : ∀ p ∈ c.turn.state.queue, p.2.reply ≠ n

theorem LockOutcome.Agrees.told {o : LockOutcome} {a : Answer} (ha : o.Agrees a) :
    o.Told a.reply := by
  cases o with
  | granted generation =>
    obtain rfl : a = .granted generation := ha
    rfl
  | denied =>
    obtain rfl : a = .busy := ha
    rfl
  | queued => cases ha
  | refused code =>
    obtain ⟨fault, rfl, rfl | rfl⟩ := ha
    · exact ⟨_, rfl⟩
    · exact ⟨_, rfl⟩

namespace Traffic

variable {t t' : Traffic}

/-- The request of number `n` was made by a session and had to wait. -/
def Queued (t : Traffic) (n session : Nat) : Prop :=
  ∃ c, t.calls[n]? = some c ∧ c.op.asker? = some session ∧ c.result = .outcome .queued

/-- A reply follows from what the calls did. -/
inductive Due (t : Traffic) (d : Notice) : Prop
  /-- It is sent by the call that made the request, and agrees with what this call returns. -/
  | atOnce {c : Call} {session : Nat} {o : LockOutcome} (own : d.call = d.request)
      (made : t.calls[d.request]? = some c) (asked : c.op.asker? = some session)
      (result : c.result = .outcome o) (told : o.Told d.reply)
      (gave : ∀ generation, o = .granted generation →
        ∃ handle mode, c.turn.Gave handle session mode generation)
  /-- The request had to wait, and the reply is sent by a later call, which took the request out of
  its queue. -/
  | later {c : Call} {session : Nat} (later : d.request < d.call)
      (queued : t.Queued d.request session) (made : t.calls[d.call]? = some c)
      (takes : c.Takes d.request session d.reply)

theorem Queued.mono (hsub : ∀ (n : Nat) (c : Call), t.calls[n]? = some c → t'.calls[n]? = some c)
    {n session : Nat} (hq : t.Queued n session) : t'.Queued n session := by
  obtain ⟨c, hc, ha⟩ := hq
  exact ⟨c, hsub n c hc, ha⟩

theorem Due.mono (hsub : ∀ (n : Nat) (c : Call), t.calls[n]? = some c → t'.calls[n]? = some c)
    {d : Notice} (hd : t.Due d) : t'.Due d := by
  cases hd with
  | atOnce own made asked result told gave =>
    exact .atOnce own (hsub _ _ made) asked result told gave
  | later late queued made takes =>
    exact .later late (queued.mono hsub) (hsub _ _ made) takes

/-! ## Books -/

/-- The books of a run are in order. -/
structure Ledger (t : Traffic) : Prop where
  /-- The state is coherent. -/
  coherent : Coherent [] (fun _ _ => False) t.state
  /-- The calls are what they say. -/
  made : ∀ n c, t.calls[n]? = some c → c = Call.make c.found c.op n
  /-- No request is lost, and none is counted twice. -/
  balance : (t.received.map (·.request) ++ t.underWay.map (·.request) ++
    t.state.queue.map (·.2.reply)).Perm t.requests
  /-- What waits has been made to wait. -/
  parked : ∀ p ∈ t.state.queue, t.Queued p.2.reply p.2.session
  /-- Every reply follows from what the calls did. -/
  due : ∀ d ∈ t.received ++ t.underWay, t.Due d

theorem mem_requests {n : Nat} : n ∈ t.requests ↔ t.isRequest n = true := by
  unfold requests
  rw [List.mem_filter, List.mem_range, and_iff_right_iff_imp]
  intro hr
  rcases Nat.lt_or_ge n t.calls.length with hn | hn
  · exact hn
  · unfold isRequest at hr
    rw [List.getElem?_eq_none hn] at hr
    cases hr

theorem nodup_requests : t.requests.Nodup := List.nodup_range.filter _

theorem requests_call (t : Traffic) (op : Operation Unit) :
    (t.next (.call op)).requests =
      t.requests ++ if op.asker?.isSome then [t.calls.length] else [] := by
  have hold : (List.range t.calls.length).filter (t.next (.call op)).isRequest = t.requests := by
    refine List.filter_congr fun n hn => ?_
    show ((t.calls ++ [Call.make t.state op t.calls.length])[n]?).any _ = t.isRequest n
    rw [List.getElem?_append_left (List.mem_range.1 hn)]
    rfl
  have hnew : (t.next (.call op)).isRequest t.calls.length = op.asker?.isSome := by
    show ((t.calls ++ [Call.make t.state op t.calls.length])[t.calls.length]?).any _ = _
    rw [List.getElem?_concat_length]
    rfl
  have hlen : (t.next (.call op)).calls.length = t.calls.length + 1 := List.length_append
  unfold requests at hold ⊢
  rw [hlen, List.range_succ, List.filter_append, hold]
  congr 1
  cases hop : op.asker?.isSome with
  | true =>
    rw [hop] at hnew
    rw [List.filter_cons_of_pos hnew]
    rfl
  | false =>
    rw [hop] at hnew
    rw [List.filter_cons_of_neg (ne_true_of_eq_false hnew)]
    rfl

namespace Ledger

theorem start (lease : Nat) : Ledger (Traffic.start lease) where
  coherent := coherent_empty lease
  made := fun n c hc => by cases hc
  balance := .refl _
  parked := fun p hp => by cases hp
  due := fun d hd => by cases hd

/-- A request that waits has been made. -/
theorem lt_of_parked (hl : Ledger t) {p : Nat × Waiter Nat} (hp : p ∈ t.state.queue) :
    p.2.reply < t.calls.length := by
  obtain ⟨c, hc, -⟩ := hl.parked p hp
  exact (List.getElem?_eq_some_iff.1 hc).1

theorem getElem?_call {op : Operation Unit} {n : Nat} {c : Call} (hc : t.calls[n]? = some c) :
    (t.next (.call op)).calls[n]? = some c := by
  show (t.calls ++ [_])[n]? = some c
  rw [List.getElem?_append_left (List.getElem?_eq_some_iff.1 hc).1]
  exact hc

theorem getElem?_call_last (op : Operation Unit) :
    (t.next (.call op)).calls[t.calls.length]? = some (Call.make t.state op t.calls.length) :=
  List.getElem?_concat_length

theorem made_call (hl : Ledger t) (op : Operation Unit) (n : Nat) (c : Call)
    (hc : (t.next (.call op)).calls[n]? = some c) : c = Call.make c.found c.op n := by
  rcases Nat.lt_or_ge n t.calls.length with hn | hn
  · refine hl.made n c ?_
    rw [← hc]
    exact (List.getElem?_append_left hn).symm
  · have hlen : (t.next (.call op)).calls.length = t.calls.length + 1 := List.length_append
    have hlt := (List.getElem?_eq_some_iff.1 hc).1
    obtain rfl : n = t.calls.length := by omega
    rw [getElem?_call_last] at hc
    obtain rfl := Option.some.inj hc
    rfl

/-- A request waits only once. -/
theorem nodup_queue (hl : Ledger t) : (t.state.queue.map (·.2.reply)).Nodup := by
  have hnd := hl.balance.nodup_iff.2 nodup_requests
  exact (List.nodup_append.1 hnd).2.1

/-- A call is made: its replies, and the requests that wait after it, are those that waited before
it and its own. -/
theorem call (hl : Ledger t) (op : Operation Unit)
    (hbalance : (((Call.make t.state op t.calls.length).notices t.calls.length).map (·.request) ++
      (t.next (.call op)).state.queue.map (·.2.reply)).Perm
        (t.state.queue.map (·.2.reply) ++ if op.asker?.isSome then [t.calls.length] else []))
    (hparked : ∀ p ∈ (t.next (.call op)).state.queue,
      p ∈ t.state.queue ∨ (t.next (.call op)).Queued p.2.reply p.2.session)
    (hdue : ∀ d ∈ (Call.make t.state op t.calls.length).notices t.calls.length,
      (t.next (.call op)).Due d) : Ledger (t.next (.call op)) where
  coherent := hl.coherent.perform _
  made := hl.made_call op
  balance := by
    rw [requests_call]
    show (t.received.map _ ++ (t.underWay ++ _).map _ ++ _).Perm _
    rw [List.map_append, ← List.append_assoc, List.append_assoc]
    refine (hbalance.append_left _).trans ?_
    rw [← List.append_assoc]
    exact hl.balance.append_right _
  parked := by
    intro p hp
    rcases hparked p hp with hp | hp
    · exact (hl.parked p hp).mono fun _ _ hc => getElem?_call hc
    · exact hp
  due := by
    intro d hd
    have hd : d ∈ t.received ++ t.underWay ++
        (Call.make t.state op t.calls.length).notices t.calls.length := by
      rw [List.append_assoc]
      exact hd
    rcases List.mem_append.1 hd with hd | hd
    · exact (hl.due d hd).mono fun _ _ hc => getElem?_call hc
    · exact hdue d hd

/-- A call that is not a lock request is made. -/
theorem call_other (hl : Ledger t) {op : Operation Unit} (hop : op.asker? = none) :
    Ledger (t.next (.call op)) := by
  have hop' : (op.mapReply fun _ => t.calls.length).asker? = none :=
    (op.asker?_mapReply _).trans hop
  obtain ⟨out, hout, hproper⟩ := accounted_perform hl.coherent hop'
  have hqueue : t.state.queue.Perm
      (out.map Departure.place ++ (t.next (.call op)).state.queue) := hout.queue
  have hreplies : (t.state.queue.map (·.2.reply)).Perm
      (out.map (·.waiter.reply) ++ (t.next (.call op)).state.queue.map (·.2.reply)) := by
    have hmap := hqueue.map (·.2.reply)
    rw [List.map_append, List.map_map] at hmap
    exact hmap
  have hnotices : (Call.make t.state op t.calls.length).notices t.calls.length =
      out.map fun d => ⟨t.calls.length, d.waiter.reply, d.answer.reply⟩ := by
    show ((t.state.perform _).2.answers).map _ = _
    rw [hout.answers]
    show (out.map Departure.message).map _ = _
    rw [List.map_map]
    rfl
  refine hl.call op ?_ ?_ ?_
  · rw [hnotices, List.map_map, hop, Option.isSome_none, if_neg Bool.false_ne_true, List.append_nil]
    exact hreplies.symm
  · intro p hp
    exact .inl (hqueue.mem_iff.2 (List.mem_append_right _ hp))
  · intro d hd
    rw [hnotices] at hd
    obtain ⟨e, he, rfl⟩ := List.mem_map.1 hd
    have hplace : e.place ∈ t.state.queue :=
      hqueue.mem_iff.2 (List.mem_append_left _ (List.mem_map.2 ⟨e, he, rfl⟩))
    refine .later (hl.lt_of_parked hplace)
      ((hl.parked _ hplace).mono fun _ _ hc => getElem?_call hc) (getElem?_call_last op)
      ⟨⟨e.handle, e.waiter.mode, hplace, ?_⟩, ?_⟩
    · rcases hproper e he with ⟨g, ha⟩ | ha | ha
      · exact .inl ⟨g, congrArg Answer.reply ha, hout.gave e he g ha⟩
      · exact .inr (.inl (congrArg Answer.reply ha))
      · exact .inr (.inr (congrArg Answer.reply ha))
    · -- a request waits only once, so it does not wait any longer
      intro p hp heq
      have hnd := hreplies.nodup_iff.1 hl.nodup_queue
      exact (List.nodup_append.1 hnd).2.2 _ (List.mem_map.2 ⟨e, he, rfl⟩) _
        (List.mem_map.2 ⟨p, hp, rfl⟩) heq.symm

/-- A lock request is made. -/
theorem call_request (hl : Ledger t) {op : Operation Unit} {session : Nat}
    (hop : op.asker? = some session) : Ledger (t.next (.call op)) := by
  obtain ⟨o, hresult, hplaced⟩ := placed_perform (s := t.state) hop t.calls.length
  have hlast := getElem?_call_last (t := t) op
  have hnotices : (Call.make t.state op t.calls.length).notices t.calls.length =
      (t.state.perform (op.mapReply fun _ => t.calls.length)).2.answers.map
        fun p => ⟨t.calls.length, p.1, p.2.reply⟩ := rfl
  cases hplaced with
  | answered a agrees answers queue gave =>
    rw [answers] at hnotices
    refine hl.call op ?_ ?_ ?_
    · rw [hnotices, hop]
      refine List.perm_append_comm.trans ?_
      exact (queue.symm.map _).append_right _
    · intro p hp
      exact .inl (queue.mem_iff.2 hp)
    · intro d hd
      rw [hnotices] at hd
      obtain rfl := List.mem_singleton.1 hd
      exact .atOnce rfl hlast hop hresult agrees.told gave
  | queued handle mode answers queue =>
    rw [answers, List.map_nil] at hnotices
    refine hl.call op ?_ ?_ ?_
    · rw [hnotices, hop]
      exact (queue.symm.map (·.2.reply)).trans (List.perm_append_singleton _ _).symm
    · intro p hp
      have hp := queue.mem_iff.2 hp
      rcases List.mem_cons.1 hp with rfl | hp
      · exact .inr ⟨_, hlast, hop, hresult⟩
      · exact .inl hp
    · intro d hd
      rw [hnotices] at hd
      cases hd

/-- The reply at some position is received. -/
theorem receive (hl : Ledger t) (i : Nat) : Ledger (t.next (.receive i)) := by
  unfold next
  dsimp only
  cases hd : t.underWay[i]? with
  | none => exact hl
  | some d =>
    obtain ⟨hi, rfl⟩ := List.getElem?_eq_some_iff.1 hd
    dsimp only
    have hp : t.underWay.Perm (t.underWay[i] :: t.underWay.eraseIdx i) :=
      (List.getElem_cons_eraseIdx_perm hi).symm
    refine { hl with
      balance := ?_
      due := ?_ }
    · refine List.Perm.trans ?_ hl.balance
      refine List.Perm.append_right _ ?_
      rw [List.map_append, List.append_assoc]
      exact ((hp.map _).symm).append_left _
    · intro d hm
      refine Due.mono (fun _ _ hc => ?_) (hl.due d ?_)
      · exact hc
      rw [List.mem_append, List.mem_append, List.mem_singleton] at hm
      rw [List.mem_append, hp.mem_iff, List.mem_cons]
      rcases hm with (hm | hm) | hm
      · exact .inl hm
      · exact .inr (.inl hm)
      · exact .inr (.inr hm)

/-- A step is made. -/
theorem next (hl : Ledger t) (move : Move) : Ledger (t.next move) := by
  cases move with
  | call op =>
    cases hop : op.asker? with
    | none => exact hl.call_other hop
    | some session => exact hl.call_request hop
  | receive i => exact hl.receive i

theorem run (hl : Ledger t) (moves : List Move) : Ledger (t.run moves) := by
  induction moves generalizing t with
  | nil => exact hl
  | cons move rest ih => exact ih (hl.next move)

end Ledger

/-! ## Exactly one answer -/

/-- What has become of the request that call `n` made in the name of a session. -/
inductive Fate (t : Traffic) (n session : Nat) (c : Call) : LockOutcome → Prop
  /-- It has been answered by this call, as the call returns it. -/
  | answered {o : LockOutcome} {d : Notice} (one : t.repliesTo n ++ t.underWayTo n = [d])
      (own : d.call = n) (told : o.Told d.reply)
      (gave : ∀ generation, o = .granted generation →
        ∃ handle mode, c.turn.Gave handle session mode generation)
      (gone : t.places n = []) : Fate t n session c o
  /-- It waits in one queue, and has not been answered. -/
  | waiting {handle : Nat} {mode : Mode} (none : t.repliesTo n ++ t.underWayTo n = [])
      (place : t.places n = [(handle, ⟨session, mode, n⟩)]) : Fate t n session c .queued
  /-- It has waited, and has been answered by the later call that took it out of the queue. -/
  | served {d : Notice} {c' : Call} (one : t.repliesTo n ++ t.underWayTo n = [d])
      (later : n < d.call) (made : t.calls[d.call]? = some c') (takes : c'.Takes n session d.reply)
      (gone : t.places n = []) : Fate t n session c .queued

/-- Every lock request is answered once, or waits. -/
structure AnsweredOnce (t : Traffic) : Prop where
  /-- A lock request has been answered by its call, or waits, or has been answered by the call that
  took it out of its queue. -/
  fate : ∀ n c session, t.calls[n]? = some c → c.op.asker? = some session →
    ∃ o, c.result = .outcome o ∧ t.Fate n session c o
  /-- Nobody receives two replies. -/
  at_most_once : ∀ n, (t.repliesTo n).length ≤ 1
  /-- A request has received nothing exactly while it waits in one queue, unless its reply is being
  delivered at this moment. -/
  silent : ∀ n, t.isRequest n = true → t.underWayTo n = [] →
    (t.repliesTo n = [] ↔ ∃ handle w, t.places n = [(handle, w)])
  /-- When the call that made a request has sent all its replies, it has sent the one that agrees
  with what it returns, or none if the request has to wait. -/
  returned : ∀ n c session o, t.calls[n]? = some c → c.op.asker? = some session →
    c.result = .outcome o → (∀ d ∈ t.underWay, d.call ≠ n) →
      if o = .queued then ∀ d ∈ t.repliesTo n, d.call ≠ n
      else ∃ r, t.repliesTo n = [⟨n, n, r⟩] ∧ o.Told r
  /-- Nobody else receives a reply. -/
  asked : ∀ d ∈ t.received, t.isRequest d.request = true

theorem count_map (l : List Notice) (n : Nat) :
    (l.map (·.request)).count n = (l.filter (·.request == n)).length := by
  rw [List.count_eq_countP, List.countP_map, List.countP_eq_length_filter]
  rfl

namespace Ledger

/-- Replies received, replies on their way and places in queues: one in all for each request, and
none for other calls. -/
theorem once (hl : Ledger t) (n : Nat) :
    (t.repliesTo n).length + (t.underWayTo n).length + (t.places n).length =
      if t.isRequest n then 1 else 0 := by
  have hcount := hl.balance.count_eq n
  rw [List.count_append, List.count_append, count_map, count_map] at hcount
  have hplaces : (t.state.queue.map (·.2.reply)).count n = (t.places n).length := by
    rw [List.count_eq_countP, List.countP_map, List.countP_eq_length_filter]
    rfl
  rw [hplaces, nodup_requests.count] at hcount
  simp only [mem_requests] at hcount
  exact hcount

theorem isRequest_of_asker? {n session : Nat} {c : Call} (hc : t.calls[n]? = some c)
    (hop : c.op.asker? = some session) : t.isRequest n = true := by
  unfold isRequest
  rw [hc, Option.any_some, hop]
  rfl

/-- The result of a lock request is an outcome. -/
theorem outcome_of_asker? (hl : Ledger t) {n session : Nat} {c : Call}
    (hc : t.calls[n]? = some c) (hop : c.op.asker? = some session) :
    ∃ o, c.result = .outcome o := by
  obtain ⟨o, ho, -⟩ := placed_perform (s := c.found) hop n
  refine ⟨o, ?_⟩
  rw [hl.made n c hc]
  exact ho

theorem due_of_mem (hl : Ledger t) {n : Nat} {d : Notice}
    (hm : d ∈ t.repliesTo n ++ t.underWayTo n) : d.request = n ∧ t.Due d := by
  rcases List.mem_append.1 hm with hm | hm
  · obtain ⟨hm, hn⟩ := List.mem_filter.1 hm
    exact ⟨beq_iff_eq.1 hn, hl.due d (List.mem_append_left _ hm)⟩
  · obtain ⟨hm, hn⟩ := List.mem_filter.1 hm
    exact ⟨beq_iff_eq.1 hn, hl.due d (List.mem_append_right _ hm)⟩

theorem fate (hl : Ledger t) {n session : Nat} {c : Call} (hc : t.calls[n]? = some c)
    (hop : c.op.asker? = some session) : ∃ o, c.result = .outcome o ∧ t.Fate n session c o := by
  obtain ⟨o, ho⟩ := hl.outcome_of_asker? hc hop
  refine ⟨o, ho, ?_⟩
  have honce := hl.once n
  rw [if_pos (isRequest_of_asker? hc hop)] at honce
  cases hall : t.repliesTo n ++ t.underWayTo n with
  | nil =>
    have hlen := congrArg List.length hall
    rw [List.length_append, List.length_nil] at hlen
    rw [hlen, Nat.zero_add] at honce
    obtain ⟨p, hp⟩ := List.length_eq_one_iff.1 honce
    have hm : p ∈ t.places n := by
      rw [hp]
      exact List.mem_singleton.2 rfl
    obtain ⟨hq, hn⟩ := List.mem_filter.1 hm
    obtain ⟨handle, s, mode, r⟩ := p
    obtain rfl : r = n := beq_iff_eq.1 hn
    obtain ⟨c', hc', hop', ho'⟩ := hl.parked _ hq
    obtain rfl := Option.some.inj (hc.symm.trans hc')
    obtain rfl := Option.some.inj (hop.symm.trans hop')
    obtain rfl := Result.outcome.inj (ho.symm.trans ho')
    exact .waiting hall hp
  | cons d rest =>
    have hlen := congrArg List.length hall
    rw [List.length_append, List.length_cons] at hlen
    have hrest : rest = [] := List.length_eq_zero_iff.1 (by omega)
    have hgone : t.places n = [] := List.length_eq_zero_iff.1 (by omega)
    rw [hrest] at hall
    have hm : d ∈ t.repliesTo n ++ t.underWayTo n := by
      rw [hall]
      exact List.mem_singleton.2 rfl
    obtain ⟨rfl, hdue⟩ := hl.due_of_mem hm
    cases hdue with
    | atOnce own made asked result told gave =>
      obtain rfl := Option.some.inj (hc.symm.trans made)
      obtain rfl := Option.some.inj (hop.symm.trans asked)
      obtain rfl := Result.outcome.inj (ho.symm.trans result)
      exact .answered hall own told gave hgone
    | later late queued made takes =>
      obtain ⟨c', hc', hop', ho'⟩ := queued
      obtain rfl := Option.some.inj (hc.symm.trans hc')
      obtain rfl := Option.some.inj (hop.symm.trans hop')
      obtain rfl := Result.outcome.inj (ho.symm.trans ho')
      exact .served hall late made takes hgone

/-- A call that has sent all its replies has sent the one that agrees with what it returns. -/
theorem returned (hl : Ledger t) {n session : Nat} {c : Call} {o : LockOutcome}
    (hc : t.calls[n]? = some c) (hop : c.op.asker? = some session) (ho : c.result = .outcome o)
    (hsent : ∀ d ∈ t.underWay, d.call ≠ n) :
    if o = .queued then ∀ d ∈ t.repliesTo n, d.call ≠ n
    else ∃ r, t.repliesTo n = [⟨n, n, r⟩] ∧ o.Told r := by
  obtain ⟨o', ho', hfate⟩ := hl.fate hc hop
  obtain rfl := Result.outcome.inj (ho.symm.trans ho')
  cases hfate with
  | answered one own told gave gone =>
    rename_i d
    rw [if_neg (by rintro rfl; exact told)]
    have hm : d ∈ t.repliesTo n ++ t.underWayTo n := by
      rw [one]
      exact List.mem_singleton.2 rfl
    obtain rfl : d.request = n := (hl.due_of_mem hm).1
    have hnone : t.underWayTo d.request = [] := by
      rw [List.eq_nil_iff_forall_not_mem]
      intro d' hm'
      have hd' : d' ∈ t.repliesTo d.request ++ t.underWayTo d.request :=
        List.mem_append_right _ hm'
      rw [one] at hd'
      obtain rfl := List.mem_singleton.1 hd'
      exact hsent d' (List.mem_filter.1 hm').1 own
    rw [hnone, List.append_nil] at one
    refine ⟨d.reply, one.trans ?_, told⟩
    obtain ⟨call, request, reply⟩ := d
    obtain rfl : call = request := own
    rfl
  | waiting none place =>
    rw [if_pos rfl]
    intro d hm
    rw [(List.append_eq_nil_iff.1 none).1] at hm
    cases hm
  | served one later made takes gone =>
    rw [if_pos rfl]
    intro d hm
    have hm := List.mem_append_left (t.underWayTo n) hm
    rw [one] at hm
    rw [List.mem_singleton.1 hm]
    exact Nat.ne_of_gt later

theorem answeredOnce (hl : Ledger t) : t.AnsweredOnce where
  fate := fun n c session hc hop => hl.fate hc hop
  at_most_once := by
    intro n
    have honce := hl.once n
    split at honce <;> omega
  silent := by
    intro n hr hnone
    have honce := hl.once n
    rw [if_pos hr, hnone, List.length_nil, Nat.add_zero] at honce
    constructor
    · intro hreplies
      rw [hreplies, List.length_nil, Nat.zero_add] at honce
      obtain ⟨⟨handle, w⟩, hp⟩ := List.length_eq_one_iff.1 honce
      exact ⟨handle, w, hp⟩
    · rintro ⟨handle, w, hp⟩
      rw [hp, List.length_singleton] at honce
      exact List.length_eq_zero_iff.1 (by omega)
  returned := fun n c session o hc hop ho hsent => hl.returned hc hop ho hsent
  asked := by
    intro d hd
    cases hl.due d (List.mem_append_left _ hd) with
    | atOnce own made asked result told gave => exact isRequest_of_asker? made asked
    | later late queued made takes =>
      obtain ⟨c, hc, hop, -⟩ := queued
      exact isRequest_of_asker? hc hop

end Ledger

end Traffic

/-- In every run, however calls and the delivery of their replies follow each other, every lock
request is answered exactly once or waits in exactly one queue. -/
theorem answered_once (lease : Nat) (moves : List Traffic.Move) :
    ((Traffic.start lease).run moves).AnsweredOnce :=
  ((Traffic.Ledger.start lease).run moves).answeredOnce

end LeaseLock.Coordinator
