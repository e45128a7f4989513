import LeaseLock.Client.Conversation
import LeaseLock.Proofs.Client.Connection
import LeaseLock.Proofs.Service.Run

/-
  LeaseLock: a client and a server over one connection.
  Requests and replies are on their way for some time, and arrive in the order in which they were
  sent.  Meanwhile the server is told of other things, and other calls of the client send requests
  (`Exchange.Move`).  The ids of the requests that have neither been answered nor lost are distinct,
  and the client waits for each of them (`Tidy`); therefore a reply reaches the request that it
  belongs to.  `Owed x ticket id spot P` says that the server has handled the request with this
  ticket, and that its reply, whenever it comes, satisfies `P`; until then the request can only wait
  in the queue at the place `spot`.
-/

namespace LeaseLock.Client

open Reactor Coordinator Service

/-- A client and a server over one connection, with what is on its way. -/
structure Exchange where
  /-- The server.  What it has sent is taken from it at once. -/
  loop : Server.Loop
  /-- The server's end of the connection. -/
  endpoint : Nat
  /-- The client's end of the connection. -/
  client : Connection
  /-- The requests on their way to the server, oldest first, each with its ticket. -/
  sent : List (Nat × Wire.Request)
  /-- The frames on their way to the client, oldest first. -/
  inbox : List Bytes

namespace Exchange

/-! ## Moves -/

/-- What can happen. -/
inductive Move where
  /-- The server is told something that does not come over this connection. -/
  | serve (i : Server.Input)
  /-- The server handles the next request. -/
  | handle
  /-- The client reads the next frame. -/
  | read
  /-- The client sends a request. -/
  | request (command : UInt8) (body : Bytes)

/-- A connection that has just been made. -/
def dial (m : Server.Loop) : Exchange where
  loop := { Server.Input.accept.apply m with links := [] }
  endpoint := m.nextEndpoint
  client := .fresh
  sent := []
  inbox := []

/-- The coordinator of the server. -/
def coordinator (x : Exchange) : Coordinator.State ReplyTo := x.loop.world.coordinator

/-- The server has worked: what it has sent is on its way. -/
def collect (x : Exchange) (m : Server.Loop) : Exchange :=
  { x with
    loop := { m with links := [] }
    inbox := x.inbox ++ (m.links.filter fun p => p.1 == x.endpoint).map (·.2) }

/-- The client sends a request; returns its ticket. -/
def submit (x : Exchange) (command : UInt8) (body : Bytes) : Option Nat × Exchange :=
  match x.client.start command body with
  | (some p, client) => (some p.1, { x with client, sent := x.sent ++ [p] })
  | (none, client) => (none, { x with client })

/-- What comes of a move. -/
def apply (x : Exchange) : Move → Exchange
  | .serve i => x.collect (i.apply x.loop)
  | .handle =>
    match x.sent with
    | [] => x
    | q :: rest =>
      { x with sent := rest }.collect
        ((Server.Input.event (.data x.endpoint q.2.encode)).apply x.loop)
  | .read =>
    match x.inbox with
    | [] => x
    | frame :: rest => { x with client := x.client.receive frame, inbox := rest }
  | .request command body => (x.submit command body).2

/-- Whether a move can happen.  Frames over this connection are those that the client sends, and no
id is used again before it has been answered. -/
def Allows (x : Exchange) : Move → Prop
  | .serve i => ∀ payload, i ≠ .event (.data x.endpoint payload)
  | .request _ _ => x.client.Free
  | _ => True

instance (x : Exchange) (m : Move) : Decidable (x.Allows m) :=
  match m with
  | .serve (.event (.data endpoint payload)) =>
    decidable_of_iff (endpoint ≠ x.endpoint)
      ⟨fun h payload heq => h (by cases heq; rfl), fun h heq => h payload (by rw [heq])⟩
  | .serve (.event (.timer _)) => isTrue nofun
  | .serve (.event (.state _ _)) => isTrue nofun
  | .serve .accept => isTrue nofun
  | .serve (.tick _) => isTrue nofun
  | .handle => isTrue trivial
  | .read => isTrue trivial
  | .request _ _ => inferInstanceAs (Decidable x.client.Free)

/-- What comes about on a connection, made to a server that has come about from its start. -/
inductive Reached : Exchange → Prop
  | dial {m : Server.Loop} (server : Server.Reached m) : Reached (dial m)
  | apply {x : Exchange} {m : Move} (before : Reached x) (allowed : x.Allows m) :
      Reached (x.apply m)

/-! ## Ids under way -/

/-- The ids of the requests over an endpoint. -/
def idsAt (endpoint : Nat) (addresses : List ReplyTo) : List UInt32 :=
  addresses.filterMap fun dest => if dest.endpoint = endpoint then some dest.id else none

/-- The id in a frame of the server. -/
def idOf (frame : Bytes) : Option UInt32 := (Wire.Response.decode frame).toOption.map (·.id)

/-- The ids of the requests that have not been handled, that wait for a lock, or whose reply is on
its way. -/
def underway (x : Exchange) : List UInt32 :=
  x.sent.map (·.2.id) ++
    (idsAt x.endpoint (x.coordinator.queue.map (·.2.reply)) ++ x.inbox.filterMap idOf)

theorem idsAt_append (endpoint : Nat) (l l' : List ReplyTo) :
    idsAt endpoint (l ++ l') = idsAt endpoint l ++ idsAt endpoint l' := List.filterMap_append

theorem mem_idsAt {endpoint : Nat} {l : List ReplyTo} {id : UInt32} :
    id ∈ idsAt endpoint l ↔ ⟨endpoint, id⟩ ∈ l := by
  unfold idsAt
  rw [List.mem_filterMap]
  constructor
  · rintro ⟨⟨e, i⟩, hm, h⟩
    split at h
    · rename_i he
      cases h
      exact he ▸ hm
    · cases h
  · intro hm
    exact ⟨_, hm, if_pos rfl⟩

theorem idOf_encode (r : Wire.Response) : idOf r.encode = some r.id := by
  unfold idOf
  rw [Wire.Response.decode_encode]
  rfl

theorem idOf_of_decode {f : Bytes} {r : Wire.Response} (hd : Wire.Response.decode f = .ok r) :
    idOf f = some r.id := by
  unfold idOf
  rw [hd]
  rfl

/-- The frames that go out over an endpoint bear the ids of the responses. -/
theorem subperm_idsAt {out : List (Nat × Bytes)} {responses : List (Nat × Wire.Response)}
    (h : out.Subperm (responses.map frame)) (endpoint : Nat) :
    (((out.filter fun p => p.1 == endpoint).map (·.2)).filterMap idOf).Subperm
      (idsAt endpoint (responses.map address)) := by
  have hsend : ∀ l : List (Nat × Bytes),
      ((l.filter fun p => p.1 == endpoint).map (·.2)).filterMap idOf =
        l.filterMap fun p => if p.1 = endpoint then idOf p.2 else none := by
    intro l
    induction l with
    | nil => rfl
    | cons p rest ih =>
      rw [List.filter_cons, List.filterMap_cons, ← ih]
      by_cases hp : p.1 = endpoint
      · rw [if_pos (beq_iff_eq.2 hp), if_pos hp, List.map_cons, List.filterMap_cons]
      · rw [if_neg fun h => hp (beq_iff_eq.1 h), if_neg hp]
  have hids : idsAt endpoint (responses.map address) =
      (responses.map frame).filterMap fun p => if p.1 = endpoint then idOf p.2 else none := by
    unfold idsAt
    rw [List.filterMap_map, List.filterMap_map]
    refine List.filterMap_congr fun p _ => ?_
    show (if p.1 = endpoint then some p.2.id else none) =
      if p.1 = endpoint then idOf p.2.encode else none
    rw [idOf_encode]
  obtain ⟨l, hperm, hsub⟩ := h
  rw [hsend, hids]
  exact ⟨_, hperm.filterMap _, hsub.filterMap _⟩

/-- Whoever still waits or gets a frame had waited, or has just been handled. -/
theorem subperm_ids {m m' : Server.Loop} {ops : List (Operation ReplyTo)}
    {own : List (Nat × Wire.Response)} {out : List (Nat × Bytes)}
    (hm : Coherent [] (fun _ _ => False) m.world.coordinator)
    (hc : Carries m ops own m')
    (hout : out.Subperm (((m.world.coordinator.told ops).map posted ++ own).map frame))
    (endpoint : Nat) :
    (idsAt endpoint (m'.world.coordinator.queue.map (·.2.reply)) ++
        ((out.filter fun p => p.1 == endpoint).map (·.2)).filterMap idOf).Subperm
      (idsAt endpoint (m.world.coordinator.queue.map (·.2.reply)) ++
        idsAt endpoint (own.map address ++ ops.filterMap Operation.reply?)) := by
  have hnew := subperm_idsAt hout endpoint
  have htold : ((m.world.coordinator.told ops).map posted ++ own).map address =
      (m.world.coordinator.told ops).map (·.1) ++ own.map address := by
    rw [List.map_append, List.map_map]
    exact congrArg (· ++ _) (List.map_congr_left fun p _ => address_posted p)
  rw [htold] at hnew
  refine ((List.Subperm.refl _).append hnew).trans (List.Perm.subperm ?_)
  rw [← idsAt_append, ← idsAt_append, hc.coordinator]
  refine List.Perm.filterMap _ ?_
  have hperm := (Coordinator.State.told_perm hm ops).append_right (own.map address)
  refine (List.Perm.trans ?_ hperm).trans ?_
  · rw [← List.append_assoc]
    exact List.perm_append_comm.append_right _
  · rw [List.append_assoc]
    exact List.perm_append_comm.append_left _

/-! ## Every id is waited for -/

/-- The two ends of the connection agree about what is under way. -/
structure Tidy (x : Exchange) : Prop where
  server : Server.Sound x.loop
  links : x.loop.links = []
  wf : x.client.Wf
  writing : x.client.writing = true
  reading : x.client.reading = true
  sent : ∀ q ∈ x.sent, x.client.waiting.get? q.2.id.toNat = some q.1
  waiting : ∀ id ∈ x.underway, ∃ ticket, x.client.waiting.get? id.toNat = some ticket
  nodup : x.underway.Nodup

/-- The server has carried out operations, and has handled what is no longer sent. -/
structure Served (x : Exchange) (ops : List (Operation ReplyTo))
    (own : List (Nat × Wire.Response)) (x' : Exchange) : Prop where
  coordinator : x'.coordinator = x.coordinator.after ops
  client : x'.client = x.client
  endpoint : x'.endpoint = x.endpoint
  sent : x'.sent.Sublist x.sent
  inbox : ∀ f ∈ x'.inbox, f ∈ x.inbox ∨
    ∃ p ∈ (x.coordinator.told ops).map posted ++ own, p.1 = x.endpoint ∧ f = p.2.encode
  /-- Whoever is answered over this connection has just been handled. -/
  senders : ∀ dest ∈ own.map address ++ ops.filterMap Operation.reply?,
    dest.endpoint = x.endpoint → ∃ q ∈ x.sent, q.2.id = dest.id
  underway : x'.underway.Subperm x.underway

variable {x x' : Exchange} {ops : List (Operation ReplyTo)} {own : List (Nat × Wire.Response)}

theorem served_collect (hx : x.Tidy) {m : Server.Loop} (hc : Carries x.loop ops own m)
    {sent : List (Nat × Wire.Request)} (hsent : sent.Sublist x.sent)
    (hids : (sent.map (·.2.id) ++
      idsAt x.endpoint (own.map address ++ ops.filterMap Operation.reply?)).Subperm
        (x.sent.map (·.2.id))) :
    Served x ops own ({ x with sent }.collect m) := by
  obtain ⟨out, hlinks, hout⟩ := hc.links
  rw [hx.links, List.nil_append] at hlinks
  refine ⟨hc.coordinator, rfl, rfl, hsent, fun f hf => ?_, fun dest hdest hendpoint => ?_, ?_⟩
  · rcases List.mem_append.1 hf with hold | hnew
    · exact .inl hold
    · obtain ⟨p, hp, rfl⟩ := List.mem_map.1 hnew
      obtain ⟨hp, hendpoint⟩ := List.mem_filter.1 hp
      rw [hlinks] at hp
      obtain ⟨response, hm, rfl⟩ := List.mem_map.1 (hout.subset hp)
      exact .inr ⟨response, hm, beq_iff_eq.1 hendpoint, rfl⟩
  · have hid : dest.id ∈
        idsAt x.endpoint (own.map address ++ ops.filterMap Operation.reply?) := by
      rw [mem_idsAt, ← hendpoint]
      exact hdest
    obtain ⟨q, hq, heq⟩ := List.mem_map.1 (hids.subset (List.mem_append_right _ hid))
    exact ⟨q, hq, heq⟩
  · have hnew := subperm_ids hx.server.coherent hc hout x.endpoint
    have hall := ((List.Subperm.refl (sent.map (·.2.id))).append hnew).append
      (List.Subperm.refl (x.inbox.filterMap idOf))
    refine (List.Perm.subperm ?_).trans (hall.trans ?_)
    · show (sent.map (·.2.id) ++ (_ ++ (x.inbox ++ _).filterMap idOf)).Perm _
      rw [hlinks, List.filterMap_append, List.append_assoc, List.append_assoc]
      exact ((List.perm_append_comm.append_left _).append_left _)
    · refine List.Subperm.trans (List.Perm.subperm ?_)
        (hids.append (List.Subperm.refl
          (idsAt x.endpoint (x.coordinator.queue.map (·.2.reply)) ++ x.inbox.filterMap idOf)))
      simp only [List.append_assoc]
      exact (List.perm_append_comm_assoc _ _ _).append_left _

/-- Work that does not come over this connection. -/
theorem served_serve (hx : x.Tidy) {i : Server.Input} (hy : i.Yields x.loop ops own)
    (hi : x.Allows (.serve i)) : Served x ops own (x.apply (.serve i)) := by
  refine served_collect hx hy.carries (.refl x.sent) ?_
  have hnone : idsAt x.endpoint (own.map address ++ ops.filterMap Operation.reply?) = [] := by
    refine List.eq_nil_iff_forall_not_mem.2 fun id hid => ?_
    obtain ⟨payload, -, heq, -⟩ := hy.senders _ (mem_idsAt.1 hid)
    exact hi payload heq
  rw [hnone, List.append_nil]

theorem apply_handle_of_nil (hs : x.sent = []) : x.apply .handle = x := by
  unfold apply
  rw [hs]

theorem apply_handle {q : Nat × Wire.Request} {rest : List (Nat × Wire.Request)}
    (hs : x.sent = q :: rest) : x.apply .handle =
      { x with sent := rest }.collect
        (x.loop.dispatch Server.wiring (.data x.endpoint q.2.encode)) := by
  unfold apply
  rw [hs]
  rfl

theorem sent_handle {q : Nat × Wire.Request} {rest : List (Nat × Wire.Request)}
    (hs : x.sent = q :: rest) : (x.apply .handle).sent = rest := by
  rw [apply_handle hs]
  rfl

/-- Work for the request that is handled. -/
theorem served_handle (hx : x.Tidy) {q : Nat × Wire.Request} {rest : List (Nat × Wire.Request)}
    (hs : x.sent = q :: rest)
    (hc : Carries x.loop ops own (x.loop.dispatch Server.wiring (.data x.endpoint q.2.encode)))
    (ha : (own.map address ++ ops.filterMap Operation.reply?).Sublist [⟨x.endpoint, q.2.id⟩]) :
    Served x ops own (x.apply .handle) := by
  rw [apply_handle hs]
  refine served_collect hx hc (hs ▸ List.sublist_cons_self q rest) ?_
  have hid : (idsAt x.endpoint [⟨x.endpoint, q.2.id⟩]) = [q.2.id] := by simp [idsAt]
  have hids : (idsAt x.endpoint (own.map address ++ ops.filterMap Operation.reply?)).Sublist
      [q.2.id] := hid ▸ ha.filterMap _
  rw [hs]
  exact ((List.Subperm.refl _).append hids.subperm).trans
    (List.perm_append_singleton _ _).subperm

/-- A request that has not been handled does not wait for a lock. -/
theorem Tidy.not_queued (hx : x.Tidy) {q : Nat × Wire.Request} (hq : q ∈ x.sent) :
    ∀ p ∈ x.coordinator.queue, p.2.reply ≠ ⟨x.endpoint, q.2.id⟩ := by
  intro p hp heq
  have hid : q.2.id ∈ idsAt x.endpoint (x.coordinator.queue.map (·.2.reply)) :=
    mem_idsAt.2 (List.mem_map.2 ⟨p, hp, heq⟩)
  exact (List.nodup_append.1 hx.nodup).2.2 _ (List.mem_map.2 ⟨q, hq, rfl⟩) _
    (List.mem_append_left _ hid) rfl

/-- Whatever the request is, its sender is answered at most. -/
theorem exists_served_handle (hx : x.Tidy) {q : Nat × Wire.Request}
    {rest : List (Nat × Wire.Request)} (hs : x.sent = q :: rest) :
    ∃ ops own, Served x ops own (x.apply .handle) ∧ Handles ⟨x.endpoint, q.2.id⟩
      (x.loop.world.asked? x.endpoint q.2.encode) ops own := by
  obtain ⟨ops, own, hw, hh⟩ := worked_data x.endpoint q.2.encode x.loop
  rw [origin_encode] at hh
  exact ⟨ops, own, served_handle hx hs hw.toCarries hh.addresses, hh⟩

/-! ### The ends agree in every state -/

theorem Tidy.served (hx : x.Tidy) (hs : Served x ops own x') (hserver : Server.Sound x'.loop)
    (hlinks : x'.loop.links = []) : x'.Tidy where
  server := hserver
  links := hlinks
  wf := hs.client ▸ hx.wf
  writing := hs.client ▸ hx.writing
  reading := hs.client ▸ hx.reading
  sent := fun q hq => hs.client ▸ hx.sent q (hs.sent.subset hq)
  waiting := fun id hid => hs.client ▸ hx.waiting id (hs.underway.subset hid)
  nodup := by
    obtain ⟨l, hperm, hsub⟩ := hs.underway
    exact hperm.nodup_iff.1 (hsub.nodup hx.nodup)

/-- Nobody waits at an endpoint that has just been made. -/
theorem underway_dial {m : Server.Loop} (hm : Server.Sound m) : (dial m).underway = [] := by
  show idsAt m.nextEndpoint (m.world.coordinator.queue.map (·.2.reply)) ++ [] = []
  rw [List.append_nil]
  refine List.eq_nil_iff_forall_not_mem.2 fun id hid => ?_
  obtain ⟨p, hp, heq⟩ := List.mem_map.1 (mem_idsAt.1 hid)
  have hlt := hm.queue p hp
  rw [heq] at hlt
  exact Nat.lt_irrefl _ hlt

theorem tidy_dial {m : Server.Loop} (hm : Server.Sound m) : (dial m).Tidy where
  server := by
    obtain ⟨ops, own, hy⟩ := Server.Input.accept.yields m
    have hsound := hm.yields hy
    exact ⟨hsound.coherent, hsound.endpoints, hsound.queue⟩
  links := rfl
  wf := Connection.wf_fresh
  writing := rfl
  reading := rfl
  sent := nofun
  waiting := fun id hid => by
    rw [underway_dial hm] at hid
    cases hid
  nodup := by
    rw [underway_dial hm]
    exact .nil

/-- The client sends a request under the next ticket and the next id. -/
theorem submit_of_free (hx : x.Tidy) (hf : x.client.Free) (command : UInt8) (body : Bytes) :
    x.submit command body = (some x.client.nextTicket,
      { x with
        client := (x.client.start command body).2
        sent := x.sent ++ [(x.client.nextTicket, ⟨x.client.nextId, command, body⟩)] }) := by
  unfold submit
  rw [Connection.start_of_free hf hx.writing]

theorem get?_waiting_start (hx : x.Tidy) (hf : x.client.Free) (command : UInt8) (body : Bytes)
    (id : Nat) : (x.client.start command body).2.waiting.get? id =
      if id = x.client.nextId.toNat then some x.client.nextTicket
      else x.client.waiting.get? id := by
  rw [Connection.start_of_free hf hx.writing]
  exact Table.get?_insert _ _ _ _

/-- Starting a request leaves those alone that are under way. -/
theorem get?_waiting_start_of_some (hx : x.Tidy) (hf : x.client.Free) (command : UInt8)
    (body : Bytes) {id ticket : Nat} (h : x.client.waiting.get? id = some ticket) :
    (x.client.start command body).2.waiting.get? id = some ticket := by
  rw [get?_waiting_start hx hf, if_neg, h]
  rintro rfl
  cases hf.symm.trans h

theorem mem_sent_submit (hx : x.Tidy) (hf : x.client.Free) (command : UInt8) (body : Bytes)
    {q : Nat × Wire.Request} : q ∈ (x.submit command body).2.sent ↔
      q ∈ x.sent ∨ q = (x.client.nextTicket, ⟨x.client.nextId, command, body⟩) := by
  rw [submit_of_free hx hf]
  show q ∈ x.sent ++ [_] ↔ _
  rw [List.mem_append, List.mem_singleton]

theorem Tidy.submit (hx : x.Tidy) (hf : x.client.Free) (command : UInt8) (body : Bytes) :
    (x.submit command body).2.Tidy := by
  have hstart := Connection.start_of_free hf hx.writing command body
  have hkeeps : ∀ id ticket, x.client.waiting.get? id = some ticket →
      (x.client.start command body).2.waiting.get? id = some ticket :=
    fun id ticket h => get?_waiting_start_of_some hx hf command body h
  have hnew : (x.client.start command body).2.waiting.get? x.client.nextId.toNat =
      some x.client.nextTicket := by
    rw [get?_waiting_start hx hf, if_pos rfl]
  have hunderway : (x.submit command body).2.underway.Perm (x.client.nextId :: x.underway) := by
    rw [submit_of_free hx hf]
    unfold underway
    rw [List.map_append, List.append_assoc]
    exact List.perm_middle
  rw [submit_of_free hx hf] at hunderway ⊢
  refine ⟨hx.server, hx.links, hx.wf.start hf hx.writing command body, ?_, ?_, fun q hq => ?_,
    fun id hid => ?_, ?_⟩
  · show (x.client.start command body).2.writing = true
    rw [hstart]
    exact hx.writing
  · show (x.client.start command body).2.reading = true
    rw [hstart]
    exact hx.reading
  · rcases List.mem_append.1 hq with hold | hlast
    · exact hkeeps _ _ (hx.sent q hold)
    · obtain rfl := List.mem_singleton.1 hlast
      exact hnew
  · rcases List.mem_cons.1 (hunderway.subset hid) with rfl | hold
    · exact ⟨_, hnew⟩
    · obtain ⟨ticket, hticket⟩ := hx.waiting id hold
      exact ⟨ticket, hkeeps _ _ hticket⟩
  · refine hunderway.nodup_iff.2 (List.nodup_cons.2 ⟨fun hm => ?_, hx.nodup⟩)
    obtain ⟨ticket, hticket⟩ := hx.waiting _ hm
    cases hf.symm.trans hticket

/-- Nothing is laid down for a request that has not been handled. -/
theorem Tidy.outcome_of_sent (hx : x.Tidy) {q : Nat × Wire.Request} (hq : q ∈ x.sent) :
    x.client.outcome? q.1 = none := hx.wf.unsettled _ _ (hx.sent q hq)

theorem apply_read_of_nil (hi : x.inbox = []) : x.apply .read = x := by
  unfold apply
  rw [hi]

theorem apply_read {f : Bytes} {rest : List Bytes} (hi : x.inbox = f :: rest) :
    x.apply .read = { x with client := x.client.receive f, inbox := rest } := by
  unfold apply
  rw [hi]

theorem coordinator_read (x : Exchange) : (x.apply .read).coordinator = x.coordinator := by
  unfold apply
  dsimp only
  split <;> rfl

theorem endpoint_read (x : Exchange) : (x.apply .read).endpoint = x.endpoint := by
  unfold apply
  dsimp only
  split <;> rfl

theorem sent_read (x : Exchange) : (x.apply .read).sent = x.sent := by
  unfold apply
  dsimp only
  split <;> rfl

/-- Bytes that are no response settle nothing. -/
theorem Tidy.read_of_error (hx : x.Tidy) {f : Bytes} {rest : List Bytes} {fault : Fault}
    (hi : x.inbox = f :: rest) (hd : Wire.Response.decode f = .error fault) :
    { x with client := x.client.receive f, inbox := rest }.Tidy := by
  have hc := Connection.receive_of_error (c := x.client) hd
  have hid : idOf f = none := by
    unfold idOf
    rw [hd]
    rfl
  have hunderway : x.underway =
      { x with client := x.client.receive f, inbox := rest }.underway := by
    unfold underway
    rw [hi, List.filterMap_cons_none hid]
    rfl
  have hwaiting := hunderway ▸ hx.waiting
  have hnodup := hunderway ▸ hx.nodup
  rw [hc] at hwaiting hnodup ⊢
  exact ⟨hx.server, hx.links, hx.wf, hx.writing, hx.reading, hx.sent, hwaiting, hnodup⟩

/-- A response settles the request with its id, and no other. -/
theorem Tidy.read_of_decode (hx : x.Tidy) {f : Bytes} {rest : List Bytes} {r : Wire.Response}
    (hi : x.inbox = f :: rest) (hd : Wire.Response.decode f = .ok r) :
    { x with client := x.client.receive f, inbox := rest }.Tidy := by
  have hc := Connection.receive_of_decode hx.reading hd
  have hunderway : x.underway.Perm
      (r.id :: { x with client := x.client.receive f, inbox := rest }.underway) := by
    unfold underway
    rw [hi, List.filterMap_cons_some (idOf_of_decode hd), ← List.append_assoc]
    refine List.perm_middle.trans ?_
    rw [List.append_assoc]
    exact .refl _
  have hnodup := List.nodup_cons.1 (hunderway.nodup_iff.1 hx.nodup)
  have hkeeps : ∀ id ∈ { x with client := x.client.receive f, inbox := rest }.underway,
      (x.client.receive f).waiting.get? id.toNat = x.client.waiting.get? id.toNat := by
    intro id hid
    rw [hc, Connection.get?_waiting_settle, if_neg]
    intro heq
    exact hnodup.1 (UInt32.toNat_inj.1 heq ▸ hid)
  refine ⟨hx.server, hx.links, ?_, ?_, ?_, fun q hq => ?_, fun id hid => ?_, hnodup.2⟩
  · show (x.client.receive f).Wf
    rw [hc]
    exact hx.wf.settle _ _
  · show (x.client.receive f).writing = true
    rw [hc, Connection.writing_settle]
    exact hx.writing
  · show (x.client.receive f).reading = true
    rw [hc, Connection.reading_settle]
    exact hx.reading
  · refine (hkeeps _ ?_).trans (hx.sent q hq)
    exact List.mem_append_left _ (List.mem_map.2 ⟨q, hq, rfl⟩)
  · obtain ⟨ticket, hticket⟩ :=
      hx.waiting id (hunderway.symm.subset (List.mem_cons_of_mem _ hid))
    exact ⟨ticket, (hkeeps id hid).trans hticket⟩

theorem Tidy.read (hx : x.Tidy) : (x.apply .read).Tidy := by
  cases hi : x.inbox with
  | nil =>
    rw [apply_read_of_nil hi]
    exact hx
  | cons f rest =>
    rw [apply_read hi]
    cases hd : Wire.Response.decode f with
    | error fault => exact hx.read_of_error hi hd
    | ok r => exact hx.read_of_decode hi hd

theorem Tidy.serve (hx : x.Tidy) {i : Server.Input} (hi : x.Allows (.serve i)) :
    (x.apply (.serve i)).Tidy := by
  obtain ⟨ops, own, hy⟩ := i.yields x.loop
  have hsound := hx.server.yields hy
  exact hx.served (served_serve hx hy hi) ⟨hsound.coherent, hsound.endpoints, hsound.queue⟩ rfl

theorem Tidy.handle (hx : x.Tidy) : (x.apply .handle).Tidy := by
  cases hs : x.sent with
  | nil =>
    rw [apply_handle_of_nil hs]
    exact hx
  | cons q rest =>
    obtain ⟨ops, own, hserved, -⟩ := exists_served_handle hx hs
    obtain ⟨_, _, hy⟩ := (Server.Input.event (.data x.endpoint q.2.encode)).yields x.loop
    have hsound := hx.server.yields hy
    have hserver : Server.Sound (x.apply .handle).loop := by
      rw [apply_handle hs]
      exact ⟨hsound.coherent, hsound.endpoints, hsound.queue⟩
    refine hx.served hserved hserver ?_
    rw [apply_handle hs]
    rfl

theorem Tidy.apply (hx : x.Tidy) {m : Move} (hm : x.Allows m) : (x.apply m).Tidy := by
  cases m with
  | serve i => exact hx.serve hm
  | handle => exact hx.handle
  | read => exact hx.read
  | request command body => exact hx.submit hm command body

theorem Reached.tidy (hx : Reached x) : x.Tidy := by
  induction hx with
  | dial server => exact tidy_dial server.sound
  | apply before allowed ih => exact ih.apply allowed

end Exchange

end LeaseLock.Client
