import LeaseLock.Proofs.Client.Call
import LeaseLock.Proofs.Service.Delivery
import Mathlib.Data.List.Pairwise

/-
  LeaseLock: every reply arrives.
  `Due x ticket r` says that the reply `r` to the request with this ticket has been read, or is on
  its way and nobody else can take it; nothing that happens changes that (`Due.apply`).
  A request that the server has put into a queue waits there (`Queued`), until it leaves the queue
  and a reply is due that agrees with the lock (`Queued.parted`).  What the server does with a
  request of a session that has its lease, and what is on its way then, `handled` says.
-/

namespace LeaseLock.Client.Exchange

open Reactor Coordinator Service

variable {x y : Exchange} {P : Exchange → Prop} {m : Move} {ticket handle session : Nat}
  {r : Wire.Response} {w : Waiter ReplyTo} {q : Nat × Wire.Request}
  {rest : List (Nat × Wire.Request)}

/-! ## Later states -/

/-- What can come about, by way of states that have a property. -/
inductive Through (P : Exchange → Prop) (x : Exchange) : Exchange → Prop
  | refl (holds : P x) : Through P x x
  | apply {y : Exchange} {m : Move} (before : Through P x y) (allowed : y.Allows m)
      (holds : P (y.apply m)) : Through P x (y.apply m)

/-- What can come about. -/
abbrev Later : Exchange → Exchange → Prop := Through fun _ => True

theorem Through.reached (h : Through P x y) (hx : Reached x) : Reached y := by
  induction h with
  | refl holds => exact hx
  | apply before allowed holds ih => exact .apply ih allowed

/-! ## The server's end -/

/-- The server's end of the connection is open. -/
def Open (x : Exchange) : Prop := x.loop.endpoints.contains x.endpoint = true

/-- A move tells the server something, or does nothing to it. -/
theorem loop_apply (x : Exchange) (m : Move) : (x.apply m).endpoint = x.endpoint ∧
    ((x.apply m).loop = x.loop ∨ ∃ i : Server.Input,
      (x.apply m).loop = { i.apply x.loop with links := [] }) := by
  cases m with
  | serve i => exact ⟨rfl, .inr ⟨i, rfl⟩⟩
  | handle =>
    cases hs : x.sent with
    | nil =>
      rw [apply_handle_of_nil hs]
      exact ⟨rfl, .inl rfl⟩
    | cons q rest =>
      rw [apply_handle hs]
      exact ⟨rfl, .inr ⟨.event (.data x.endpoint q.2.encode), rfl⟩⟩
  | read =>
    refine ⟨endpoint_read x, .inl ?_⟩
    unfold Exchange.apply
    dsimp only
    split <;> rfl
  | request command body =>
    have hsubmit : (x.submit command body).2.endpoint = x.endpoint ∧
        (x.submit command body).2.loop = x.loop := by
      unfold submit
      split <;> exact ⟨rfl, rfl⟩
    exact ⟨hsubmit.1, .inl hsubmit.2⟩

theorem Reached.endpoint_lt (hx : Reached x) : x.endpoint < x.loop.nextEndpoint := by
  induction hx with
  | dial server => exact Nat.lt_succ_self _
  | @apply x m before allowed ih =>
    obtain ⟨hendpoint, hsame | ⟨i, hloop⟩⟩ := x.loop_apply m
    · rw [hendpoint, hsame]
      exact ih
    · obtain ⟨ops, own, hy⟩ := i.yields x.loop
      rw [hendpoint, hloop]
      exact Nat.lt_of_lt_of_le ih hy.nextEndpoint

theorem Reached.regular (hx : Reached x) (ht : Timely x.loop) : Server.Regular x.loop := by
  induction hx with
  | @dial m server =>
    have ht : Timely m := Server.Input.accept.timely_of_apply ht
    have h := (server.regular ht).apply ht .accept
    exact ⟨h.bound, h.leases⟩
  | @apply x m before allowed ih =>
    obtain ⟨-, hsame | ⟨i, hloop⟩⟩ := x.loop_apply m
    · rw [hsame] at ht ⊢
      exact ih ht
    · rw [hloop] at ht ⊢
      have ht' : Timely x.loop := i.timely_of_apply ht
      have h := (ih ht').apply ht' i
      exact ⟨h.bound, h.leases⟩

/-- What the server sends over the connection is on its way to the client. -/
theorem mem_inbox_collect (hx : Reached x) {i : Server.Input} {frames : List (Nat × Bytes)}
    (sent : List (Nat × Wire.Request))
    (hopen : (i.apply x.loop).endpoints.contains x.endpoint = true)
    (hsent : (i.apply x.loop).sent = x.loop.sent ++ frames) {bytes : Bytes}
    (hb : (x.endpoint, bytes) ∈ frames) :
    bytes ∈ ({ x with sent }.collect (i.apply x.loop)).inbox := by
  have hlinks := (Server.Input.delivers hx.endpoint_lt hopen).2.links hsent
  refine List.mem_append_right _ ?_
  show bytes ∈ Server.toward x.endpoint (i.apply x.loop).links
  rw [hlinks]
  exact List.mem_append_right _ (Server.mem_toward hb)

/-! ## Replies on their way -/

/-- The reply to the request with this ticket is on its way, or has been read. -/
inductive Due (x : Exchange) (ticket : Nat) (r : Wire.Response) : Prop
  /-- It has not been read. -/
  | coming (waits : x.client.waiting.get? r.id.toNat = some ticket) (arriving : r.encode ∈ x.inbox)
  /-- It has been read. -/
  | read (outcome : x.client.outcome? ticket = some (.replied r))

/-- A request whose reply is due has the reply, or has nothing yet. -/
theorem Due.outcome (h : Due x ticket r) (hx : x.Tidy) :
    x.client.outcome? ticket = some (.replied r) ∨
      x.client.outcome? ticket = none ∧ x.inbox ≠ [] := by
  cases h with
  | coming waits arriving =>
    exact .inr ⟨hx.wf.unsettled _ _ waits, List.ne_nil_of_mem arriving⟩
  | read outcome => exact .inl outcome

/-- Replies on their way bear different ids. -/
theorem Tidy.nodup_inbox (hx : x.Tidy) : (x.inbox.filterMap idOf).Nodup :=
  (List.nodup_append.1 (List.nodup_append.1 hx.nodup).2.1).2.1

/-- The client reads the frame of a request, or a frame of another one. -/
theorem Due.read_frame (h : Due x ticket r) (hx : x.Tidy) : Due (x.apply .read) ticket r := by
  cases hi : x.inbox with
  | nil =>
    rw [apply_read_of_nil hi]
    exact h
  | cons f frames =>
    rw [apply_read hi]
    cases hd : Wire.Response.decode f with
    | error fault =>
      rw [Connection.receive_of_error hd]
      cases h with
      | coming waits arriving =>
        rw [hi] at arriving
        refine .coming waits ((List.mem_cons.1 arriving).resolve_left ?_)
        rintro rfl
        cases (Wire.Response.decode_encode r).symm.trans hd
      | read outcome => exact .read outcome
    | ok other =>
      rw [Connection.receive_of_decode hx.reading hd]
      cases h with
      | coming waits arriving =>
        rw [hi] at arriving
        rcases List.mem_cons.1 arriving with rfl | hlater
        · obtain rfl := Except.ok.inj ((Wire.Response.decode_encode r).symm.trans hd)
          exact .read ((Connection.get?_settled_settle hx.wf waits _).trans (if_pos rfl))
        · have hne : r.id ≠ other.id := by
            have hnodup := hx.nodup_inbox
            rw [hi, List.filterMap_cons_some (idOf_of_decode hd)] at hnodup
            rintro heq
            exact (List.nodup_cons.1 hnodup).1
              (heq ▸ List.mem_filterMap.2 ⟨_, hlater, idOf_encode r⟩)
          refine .coming ?_ hlater
          show (x.client.settle other.id (.replied other)).waiting.get? r.id.toNat = _
          rw [Connection.get?_waiting_settle, if_neg fun h => hne (UInt32.toNat_inj.1 h), waits]
      | read outcome => exact .read (Connection.get?_settled_of_settled hx.wf outcome _ _)

/-- Whatever happens, a reply that is due stays due until it is read, and then is there for good. -/
theorem Due.apply (h : Due x ticket r) (hx : x.Tidy) (hm : x.Allows m) :
    Due (x.apply m) ticket r := by
  have hcollect : ∀ (m : Server.Loop) (sent : List (Nat × Wire.Request)),
      Due ({ x with sent }.collect m) ticket r := by
    intro m sent
    cases h with
    | coming waits arriving => exact .coming waits (List.mem_append_left _ arriving)
    | read outcome => exact .read outcome
  cases m with
  | serve i => exact hcollect _ _
  | handle =>
    cases hs : x.sent with
    | nil =>
      rw [apply_handle_of_nil hs]
      exact h
    | cons q rest =>
      rw [apply_handle hs]
      exact hcollect _ _
  | read => exact h.read_frame hx
  | request command body =>
    show Due (x.submit command body).2 ticket r
    rw [submit_of_free hx hm]
    cases h with
    | coming waits arriving =>
      exact .coming (get?_waiting_start_of_some hx hm command body waits) arriving
    | read outcome =>
      refine .read ?_
      show (x.client.start command body).2.settled.get? ticket = _
      rw [Connection.start_of_free hm hx.writing]
      exact outcome

theorem Due.through (h : Due x ticket r) (hx : Reached x) (hl : Through P x y) :
    Due y ticket r := by
  induction hl with
  | refl holds => exact h
  | apply before allowed holds ih => exact ih.apply (before.reached hx).tidy allowed

/-! ## Requests in a queue -/

theorem eq_of_nodup_filterMap {α β : Type} {f : α → Option β} {l : List α}
    (h : (l.filterMap f).Nodup) {a a' : α} (ha : a ∈ l) (ha' : a' ∈ l) {b : β}
    (hb : f a = some b) (hb' : f a' = some b) : a = a' := by
  by_contra hne
  have hsymm : Std.Symm fun a a' => ∀ b, f a = some b → ∀ b', f a' = some b' → b ≠ b' :=
    ⟨fun a a' h b hb b' hb' heq => h b' hb' b hb heq.symm⟩
  exact (List.pairwise_filterMap.1 h).forall ha ha' hne b hb b hb' rfl

/-- The request with this ticket waits for the lock of a handle. -/
structure Queued (x : Exchange) (ticket handle : Nat) (w : Waiter ReplyTo) : Prop where
  endpoint : w.reply.endpoint = x.endpoint
  waits : x.client.waiting.get? w.reply.id.toNat = some ticket
  place : (handle, w) ∈ x.coordinator.queue

/-- Requests over the connection that wait for a lock bear different ids. -/
theorem Tidy.nodup_queue (hx : x.Tidy) :
    (idsAt x.endpoint (x.coordinator.queue.map (·.2.reply))).Nodup :=
  (List.nodup_append.1 (List.nodup_append.1 hx.nodup).2.1).1

namespace Queued

/-- No other request has the address. -/
theorem sole (h : Queued x ticket handle w) (hx : x.Tidy) :
    ∀ p ∈ x.coordinator.queue, p.2.reply = w.reply → p = (handle, w) := by
  intro p hp hreply
  have hnodup := hx.nodup_queue
  unfold idsAt at hnodup
  rw [List.filterMap_map] at hnodup
  refine eq_of_nodup_filterMap hnodup hp h.place (b := w.reply.id) ?_ (if_pos h.endpoint)
  show (if p.2.reply.endpoint = x.endpoint then some p.2.reply.id else none) = _
  rw [hreply, if_pos h.endpoint]

/-- No frame on its way to the client bears the id of a request that waits. -/
theorem not_in_inbox (h : Queued x ticket handle w) (hx : x.Tidy) {f : Bytes} (hf : f ∈ x.inbox) :
    idOf f ≠ some w.reply.id := by
  intro hid
  have hqueue : w.reply.id ∈ idsAt x.endpoint (x.coordinator.queue.map (·.2.reply)) := by
    rw [mem_idsAt, ← h.endpoint]
    exact List.mem_map.2 ⟨_, h.place, rfl⟩
  exact (List.nodup_append.1 (List.nodup_append.1 hx.nodup).2.1).2.2 _ hqueue _
    (List.mem_filterMap.2 ⟨f, hf, hid⟩) rfl

theorem outcome (h : Queued x ticket handle w) (hx : x.Tidy) :
    x.client.outcome? ticket = none := hx.wf.unsettled _ _ h.waits

/-- As long as it has its place, the request waits. -/
theorem apply (h : Queued x ticket handle w) (hx : x.Tidy) (hm : x.Allows m)
    (hplace : (handle, w) ∈ (x.apply m).coordinator.queue) :
    Queued (x.apply m) ticket handle w := by
  refine ⟨h.endpoint.trans (x.loop_apply m).1.symm, ?_, hplace⟩
  cases m with
  | serve i => exact h.waits
  | handle =>
    cases hs : x.sent with
    | nil =>
      rw [apply_handle_of_nil hs]
      exact h.waits
    | cons q rest =>
      rw [apply_handle hs]
      exact h.waits
  | read =>
    cases hi : x.inbox with
    | nil =>
      rw [apply_read_of_nil hi]
      exact h.waits
    | cons f frames =>
      rw [apply_read hi]
      show (x.client.receive f).waiting.get? _ = _
      cases hd : Wire.Response.decode f with
      | error fault =>
        rw [Connection.receive_of_error hd]
        exact h.waits
      | ok other =>
        have hne : w.reply.id ≠ other.id := fun heq =>
          h.not_in_inbox hx (hi ▸ List.mem_cons_self) (heq ▸ idOf_of_decode hd)
        rw [Connection.receive_of_decode hx.reading hd, Connection.get?_waiting_settle,
          if_neg fun heq => hne (UInt32.toNat_inj.1 heq), h.waits]
  | request command body =>
    show (x.submit command body).2.client.waiting.get? _ = _
    rw [submit_of_free hx hm]
    exact get?_waiting_start_of_some hx hm command body h.waits

/-- A request that waits leaves its queue with a reply, if the connection is still open. -/
theorem collect (h : Queued x ticket handle w) (hx : Reached x)
    {i : Server.Input} (sent : List (Nat × Wire.Request))
    (hopen : (i.apply x.loop).endpoints.contains x.endpoint = true)
    (hother : ∀ payload, i = .event (.data x.endpoint payload) →
      origin x.endpoint payload ≠ w.reply)
    (hleft : (handle, w) ∉ (i.apply x.loop).world.coordinator.queue) :
    ∃ a, Parted (i.apply x.loop).world.coordinator handle w a ∧
      Due ({ x with sent }.collect (i.apply x.loop)) ticket (a.reply.response w.reply.id) := by
  have hline := State.mem_queue_iff_line.1 h.place
  have ht : ∀ endpoint payload, i = .event (.data endpoint payload) → Timely x.loop := by
    rintro endpoint payload rfl
    by_contra hlate
    obtain ⟨quiet, hquiet, hcoordinator⟩ := Server.harmless_of_late endpoint payload hlate
    rw [hcoordinator] at hleft
    exact hleft (State.mem_queue_iff_line.2
      (Server.mem_line_after_quiet hx.tidy.server.coherent hline (h.sole hx.tidy) hquiet).1)
  obtain ⟨quiet, main, own, haccounts⟩ := i.accounts ht
  have hreply : ∀ op ∈ main, op.reply? ≠ some w.reply := by
    intro op hop hr
    obtain ⟨payload, rfl, horigin⟩ := haccounts.asker op hop w.reply hr
    rw [h.endpoint] at horigin
    exact hother payload (by rw [h.endpoint]) horigin
  obtain ⟨a, ha, hparted⟩ := haccounts.parted hx.tidy.server.coherent hline (h.sole hx.tidy)
    hreply fun hm => hleft (State.mem_queue_iff_line.2 hm)
  have hid : (a.reply.response w.reply.id).id = w.reply.id :=
    congrArg ReplyTo.id (address_posted (w.reply, a))
  refine ⟨a, hparted, .coming ?_ (mem_inbox_collect hx sent hopen haccounts.sent ?_)⟩
  · rw [hid]
    exact h.waits
  · rw [← h.endpoint]
    exact List.mem_map.2 ⟨posted (w.reply, a),
      List.mem_append_left _ (List.mem_map.2 ⟨_, ha, rfl⟩), rfl⟩

/-- A request leaves its queue with a reply that agrees with the lock, if the connection is still
open. -/
theorem parted (h : Queued x ticket handle w) (hx : Reached x)
    (hm : x.Allows m) (hopen : (x.apply m).Open)
    (hleft : (handle, w) ∉ (x.apply m).coordinator.queue) :
    ∃ a, Parted (x.apply m).coordinator handle w a ∧
      Due (x.apply m) ticket (a.reply.response w.reply.id) := by
  cases m with
  | serve i =>
    exact h.collect hx x.sent hopen (fun payload hi => absurd hi (hm payload)) hleft
  | handle =>
    cases hs : x.sent with
    | nil =>
      rw [apply_handle_of_nil hs] at hleft
      exact absurd h.place hleft
    | cons q rest =>
      rw [apply_handle hs] at hopen hleft ⊢
      refine h.collect hx (i := .event (.data x.endpoint q.2.encode)) rest hopen ?_ hleft
      intro payload hi horigin
      cases hi
      rw [origin_encode] at horigin
      exact hx.tidy.not_queued (hs ▸ List.mem_cons_self) _ h.place horigin.symm
  | read =>
    rw [coordinator_read] at hleft
    exact absurd h.place hleft
  | request command body =>
    have hsame : (x.apply (.request command body)).coordinator = x.coordinator := by
      show (x.submit command body).2.coordinator = _
      rw [submit_of_free hx.tidy hm]
      rfl
    rw [hsame] at hleft
    exact absurd h.place hleft

theorem through (h : Queued x ticket handle w) (hx : Reached x)
    (hl : Through (fun y => (handle, w) ∈ y.coordinator.queue) x y) :
    Queued y ticket handle w := by
  induction hl with
  | refl holds => exact h
  | apply before allowed holds ih => exact ih.apply (before.reached hx).tidy allowed holds

end Queued

/-! ## Requests of a session that has its lease -/

/-- What the server does with a request that comes over the connection of a session which has its
lease: the lease is renewed, the command is carried out, and its answers and responses are on their
way. -/
structure Handled (x : Exchange) (session : Nat) (dest : ReplyTo) (c : Wire.Command)
    (x' : Exchange) : Prop where
  coordinator : x'.coordinator = (x.coordinator.after [.renew session x.loop.clock]).after
    (steps dest (some session) x.loop.clock c)
  answers : ∀ a, (dest, a) ∈ (x.coordinator.after [.renew session x.loop.clock]).told
    (steps dest (some session) x.loop.clock c) → (a.reply.response dest.id).encode ∈ x'.inbox
  responses : ∀ r, (dest.endpoint, r) ∈
    (x.loop.world.renewed session x.loop.clock).responses dest (some session) x.loop.clock c →
      r.encode ∈ x'.inbox

theorem handled (hx : Reached x) (hl : x.Live session) (ht : Timely x.loop)
    (hs : x.sent = q :: rest) {c : Wire.Command}
    (hc : Wire.Command.decode q.2.command q.2.body = .ok (some c)) :
    Handled x session ⟨x.endpoint, q.2.id⟩ c (x.apply .handle) := by
  have hcommand : command? q.2.encode = some c := command?_encode hc
  have hopen := (hx.regular ht).bound x.endpoint session hl.1
  obtain ⟨m', hrun, h⟩ := performs_onCommand_of_leased (w := Server.wiring) ⟨x.endpoint, q.2.id⟩ c
    (m := x.loop.record (.invoked () (.data x.endpoint q.2.encode))) ht hl.1 hl.2
  rw [← origin_encode, ← onFrame_of_command hcommand] at hrun
  have hm : (Server.Input.event (.data x.endpoint q.2.encode)).apply x.loop = m' := by
    show x.loop.dispatch Server.wiring (.data x.endpoint q.2.encode) = m'
    rcases Server.dispatch_data x.loop x.endpoint q.2.encode with ⟨hclosed, -⟩ | ⟨-, heq⟩
    · cases hopen.symm.trans hclosed
    · rw [heq]
      exact congrArg Prod.snd hrun
  have hopen' : ((Server.Input.event (.data x.endpoint q.2.encode)).apply
      x.loop).endpoints.contains x.endpoint = true := by
    rw [hm, h.endpoints]
    exact hopen
  have hsent := h.sent
  rw [Server.sent_invoked, ← hm] at hsent
  have hinbox : ∀ bytes, (x.endpoint, bytes) ∈ _ → bytes ∈ _ :=
    fun bytes hb => mem_inbox_collect hx rest hopen' hsent hb
  have happly : x.apply .handle = { x with sent := rest }.collect
      ((Server.Input.event (.data x.endpoint q.2.encode)).apply x.loop) := apply_handle hs
  rw [happly]
  refine ⟨?_, fun a ha => hinbox _ ?_, fun r hr => hinbox _ ?_⟩
  · show ((Server.Input.event (.data x.endpoint q.2.encode)).apply x.loop).world.coordinator = _
    rw [hm]
    exact h.coordinator
  · exact List.mem_map.2 ⟨posted (⟨x.endpoint, q.2.id⟩, a),
      List.mem_append_left _ (List.mem_map.2 ⟨_, ha, rfl⟩), rfl⟩
  · exact List.mem_map.2 ⟨(x.endpoint, r), List.mem_append_right _ hr, rfl⟩

end LeaseLock.Client.Exchange
