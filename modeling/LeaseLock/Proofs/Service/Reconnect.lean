import LeaseLock.Proofs.Service.Renaming
import LeaseLock.Proofs.Wire.RoundTrip

/-
  LeaseLock: a connection is lost and replaced.
  A server loses a connection whose endpoint is bound to a session; later a new connection is made,
  and the session is attached to it (`Loss.returns`).  If the connection had not been lost, it
  would have been bound to the session all the time, and a sign of life would have come over it
  instead of the request to attach (`Loss.stays`).  Both requests renew the lease, or are refused
  with the same words.  The one server is then the other, with the new endpoint in the place of the
  old one (`Loss.image`), and so it is whatever comes later.
-/

namespace LeaseLock.Server

open Reactor Coordinator Service

variable {m : Loop} {endpoint session now : Nat} {result : Except Fault Unit}

/-- A command comes over an endpoint. -/
def Input.request (endpoint : Nat) (c : Wire.Command) (id : UInt32) : Input :=
  .event (.data endpoint (c.request id).encode)

/-- The server once it has been told several things. -/
abbrev told (m : Loop) (inputs : List Input) : Loop := inputs.foldl Input.apply m

/-- An endpoint that is still to be made is neither bound nor registered. -/
theorem Reached.fresh (hm : Reached m) (he : m.nextEndpoint ≤ endpoint) :
    m.world.sessionFor endpoint = none ∧ m.endpoints.get? endpoint = none := by
  have hclosed : m.endpoints.get? endpoint = none :=
    Option.eq_none_iff_forall_ne_some.2 fun x hx =>
      Nat.not_lt.2 he (hm.sound.endpoints endpoint x hx)
  refine ⟨Option.eq_none_iff_forall_ne_some.2 fun session hs => ?_, hclosed⟩
  have hopen := hm.bound endpoint session hs
  unfold Table.contains at hopen
  rw [hclosed] at hopen
  cases hopen

theorem Reached.told (hm : Reached m) (inputs : List Input) : Reached (told m inputs) := by
  obtain ⟨config, earlier, rfl⟩ := hm
  exact ⟨config, earlier ++ inputs, List.foldl_append.symm⟩

/-! ## Requests that renew a lease -/

/-- A renewal crashes only if the lease has not ended and the clock cannot name the end of a new
one. -/
theorem exists_renewal {s : Coordinator.State ReplyTo}
    (h : Leased s session now → now + s.sessions.lease < Time.limit) :
    ∃ result, renewal (s.renew session now).1 = .ok result := by
  unfold Coordinator.State.renew
  by_cases hl : Leased s session now
  · rw [Sessions.renew_of_live hl (h hl)]
    exact ⟨_, rfl⟩
  · rw [Sessions.renew_of_not_live hl]
    exact ⟨_, rfl⟩

/-- A sign of life over an endpoint that is bound. -/
theorem performs_keepAlive (dest : ReplyTo)
    (hs : m.world.sessionFor dest.endpoint = some session)
    (hresult : renewal (m.world.coordinator.renew session m.clock).1 = .ok result) :
    Performs wiring (onCommand dest .keepAlive) m (.ok ()) [.renew session m.clock]
      [verdict dest (result.map fun _ => [])]
      (if result.isOk then m.world.bindings else m.world.bindings.erase dest.endpoint) := by
  refine (performs_world m).bind fun m₁ h₁ => ?_
  have hworld₁ : m₁.world = m.world := h₁.world
  have hrenew := performs_renew (w := wiring) session m₁
  rw [hworld₁, h₁.clock, hresult] at hrenew
  rw [hs]
  refine hrenew.bind fun m₂ h₂ => ?_
  cases result with
  | ok _ =>
    rw [← h₂.bound]
    exact performs_respond dest [] m₂
  | error fault =>
    have hunbind : Performs wiring (change fun s => s.unbind dest.endpoint) m₂ (.ok ()) [] []
        (m₂.world.bindings.erase dest.endpoint) := performs_change _ m₂ rfl
    rw [h₂.bound] at hunbind
    refine hunbind.bind fun m₃ h₃ => ?_
    have hreject := performs_rejectFault (w := wiring) dest fault m₃
    rw [h₃.bound] at hreject
    exact hreject

/-- A request to attach a session over an endpoint that is not bound. -/
theorem performs_attach (dest : ReplyTo) (id : UInt64)
    (hs : m.world.sessionFor dest.endpoint = none)
    (hresult : renewal (m.world.coordinator.renew id.toNat m.clock).1 = .ok result) :
    Performs wiring (onCommand dest (.attachSession id)) m (.ok ()) [.renew id.toNat m.clock]
      [verdict dest (result.map fun _ => [])]
      (if result.isOk then m.world.bindings.insert dest.endpoint id.toNat
        else m.world.bindings) := by
  refine (performs_world m).bind fun m₁ h₁ => ?_
  have hworld₁ : m₁.world = m.world := h₁.world
  have hrenew := performs_renew (w := wiring) id.toNat m₁
  rw [hworld₁, h₁.clock, hresult] at hrenew
  rw [hs]
  refine hrenew.bind fun m₂ h₂ => ?_
  cases result with
  | ok _ =>
    have hbind : Performs wiring (change fun s => s.bind dest.endpoint id.toNat) m₂ (.ok ()) [] []
        (m₂.world.bindings.insert dest.endpoint id.toNat) := performs_change _ m₂ rfl
    rw [h₂.bound] at hbind
    refine hbind.bind fun m₃ h₃ => ?_
    have hrespond := performs_respond (w := wiring) dest [] m₃
    rw [h₃.bound] at hrespond
    exact hrespond
  | error fault =>
    have hreject := performs_rejectFault (w := wiring) dest fault m₂
    rw [h₂.bound] at hreject
    exact hreject

/-- A frame with a command is handed to the service. -/
theorem exactly_apply {c : Wire.Command} (hc : c.Fits) (id : UInt32)
    (hopen : m.endpoints.contains endpoint = true) {ops : List (Operation ReplyTo)}
    {own : List (Nat × Wire.Response)} {bindings : Table Nat}
    (hp : ∀ n : Loop, n.world = m.world → n.clock = m.clock →
      Performs wiring (onCommand ⟨endpoint, id⟩ c) n (.ok ()) ops own bindings) :
    Exactly (m.record (.invoked () (.data endpoint (c.request id).encode))) ops own bindings
      ((Input.request endpoint c id).apply m) := by
  have hcommand : command? (c.request id).encode = some c :=
    command?_encode (Wire.Command.decode_body hc)
  have horigin : origin endpoint (c.request id).encode = ⟨endpoint, id⟩ :=
    origin_encode endpoint (c.request id)
  obtain ⟨n, hrun, hn⟩ := hp (m.record (.invoked () (.data endpoint (c.request id).encode))) rfl rfl
  rw [← horigin, ← onFrame_of_command hcommand] at hrun
  have happly : (Input.request endpoint c id).apply m = n := by
    show m.dispatch wiring (.data endpoint (c.request id).encode) = n
    rcases dispatch_data m endpoint (c.request id).encode with ⟨hclosed, -⟩ | ⟨-, heq⟩
    · rw [hopen] at hclosed
      cases hclosed
    · rw [heq]
      exact congrArg Prod.snd hrun
  rw [happly]
  exact hn

/-! ## Names -/

namespace Naming

/-- All endpoints keep their names; one of them is gone. -/
def without (endpoint : Nat) : Naming := ⟨fun e => e, endpoint, fun _ _ h => h⟩

/-- A new endpoint goes by the name of one that is gone; those made after it are counted as if it
had not been made. -/
def replaced {gone new : Nat} (h : gone < new) : Naming where
  name e := if e < new then e else if e = new then gone else e - 1
  gone := gone
  name_inj := by
    intro d e hd he heq
    split_ifs at heq <;> omega

variable {gone new : Nat}

theorem name_replaced_of_lt (h : gone < new) {e : Nat} (he : e < new) :
    (replaced h).name e = e := if_pos he

theorem name_replaced_self (h : gone < new) : (replaced h).name new = gone :=
  (if_neg (Nat.lt_irrefl new)).trans (if_pos rfl)

theorem name_replaced_of_gt (h : gone < new) {e : Nat} (he : new < e) :
    (replaced h).name e = e - 1 :=
  (if_neg (Nat.not_lt.2 (Nat.le_of_lt he))).trans (if_neg (Nat.ne_of_gt he))

/-- What is kept for each endpoint, if nothing is kept for those that are still to be made. -/
theorem lookup_replaced {β : Type} (h : gone < new) {f f' : Nat → Option β} {own : Option β}
    (hf : ∀ e, new ≤ e → f e = none) (hf' : ∀ e, new ≤ e → f' e = none)
    (hsame : ∀ e, e ≠ gone → f' e = f e) {e : Nat} (he : e ≠ gone) :
    (if (replaced h).name e = gone then own else f' ((replaced h).name e)) =
      if e = new then own else f e := by
  rcases Nat.lt_trichotomy e new with hlt | rfl | hgt
  · rw [name_replaced_of_lt h hlt, if_neg he, if_neg (Nat.ne_of_lt hlt), hsame e he]
  · rw [name_replaced_self, if_pos rfl, if_pos rfl]
  · have hlater : new ≤ e - 1 := Nat.le_sub_one_of_lt hgt
    have hne : e - 1 ≠ gone := Nat.ne_of_gt (Nat.lt_of_lt_of_le h hlater)
    rw [name_replaced_of_gt h hgt, if_neg hne, if_neg (Nat.ne_of_gt hgt), hf' _ hlater,
      hf e (Nat.le_of_lt hgt)]

end Naming

/-! ## A loss -/

/-- A connection is lost, and its client comes back over another. -/
structure Loss where
  /-- The endpoint of the connection. -/
  endpoint : Nat
  /-- How it ends. -/
  ending : LinkState
  terminal : ending.isTerminal = true
  /-- What the server is told until the client is back. -/
  meanwhile : List Input
  silent : Silent endpoint meanwhile
  /-- The session that is attached. -/
  session : UInt64
  /-- The id of the sign of life. -/
  keepId : UInt32
  /-- The id of the request to attach. -/
  attachId : UInt32

namespace Loss

variable (l : Loss)

/-- The server when the client is back, if the connection has not been lost. -/
def here (m : Loop) : Loop := told m l.meanwhile

/-- The server when the client is back. -/
def there (m : Loop) : Loop := told m (.event (.state l.endpoint l.ending) :: l.meanwhile)

/-- The connection has not been lost, and a sign of life comes over it. -/
def stays (m : Loop) : Loop :=
  told (l.here m) [.request l.endpoint .keepAlive l.keepId]

/-- A new connection is made, and the session is attached to it. -/
def returns (m : Loop) : Loop :=
  told (l.there m)
    [.accept, .request (l.there m).nextEndpoint (.attachSession l.session) l.attachId]

/-! ### Until the client is back -/

theorem input_without (endpoint : Nat) (i : Input) : (Naming.without endpoint).input i = i := by
  cases i with
  | accept => rfl
  | tick instant => rfl
  | event e => cases e <;> rfl

theorem mapReply_without (endpoint : Nat) (s : Coordinator.State ReplyTo) :
    s.mapReply (Naming.without endpoint).reply = s :=
  s.mapReply_eq_self fun _ _ _ _ _ => rfl

/-- A connection that ends takes its endpoint and its binding with it, and nothing else. -/
theorem image_ended {ending : LinkState} (hterminal : ending.isTerminal = true)
    (hopen : m.endpoints.contains endpoint = true) (hlt : endpoint < m.nextEndpoint) :
    Image (.without endpoint) ((Input.event (.state endpoint ending)).apply m) m := by
  obtain ⟨x, hx⟩ := Option.isSome_iff_exists.1 hopen
  have happly : (Input.event (.state endpoint ending)).apply m =
      (Machine.run wiring (change fun s => s.unbind endpoint)
        ({ m with endpoints := m.endpoints.erase endpoint }.record
          (.invoked () (.state endpoint ending)))).2 := by
    show m.dispatch wiring (.state endpoint ending) = _
    unfold Machine.dispatch Machine.invoke
    dsimp only
    rw [hx]
    dsimp only
    rw [if_pos hterminal]
    show (Machine.run wiring (handle () (.state endpoint ending)) _).2 = _
    unfold handle
    dsimp only
    rw [if_pos hterminal]
  rw [happly]
  have hcopy : Copy (.without endpoint) (m.world.unbind endpoint) m.world :=
    ⟨rfl, (mapReply_without endpoint _).symm,
      fun e he => (Table.get?_erase_of_ne m.world.bindings he).symm, rfl⟩
  exact ⟨hcopy, rfl, rfl, fun e he => (Table.get?_erase_of_ne m.endpoints he).symm,
    fun _ => rfl, hlt⟩

theorem reached_here (hm : Reached m) : Reached (l.here m) := hm.told _

theorem reached_there (hm : Reached m) : Reached (l.there m) := hm.told _

/-- Until the client is back, the loss makes no other difference. -/
theorem image_there (hm : Reached m) (hopen : m.endpoints.contains l.endpoint = true) :
    Image (.without l.endpoint) (l.there m) (l.here m) := by
  obtain ⟨x, hx⟩ := Option.isSome_iff_exists.1 hopen
  have hended := image_ended l.terminal hopen (hm.sound.endpoints _ x hx)
  have himage := (hended.foldl l.silent).image
  rw [List.map_congr_left fun i _ => input_without l.endpoint i, List.map_id'] at himage
  exact himage

/-! ### The client is back -/

section Back

variable {l} (hm : Reached m)
  (hs : (l.here m).world.sessionFor l.endpoint = some l.session.toNat)
  (hresult : renewal ((l.here m).world.coordinator.renew l.session.toNat (l.here m).clock).1 =
    .ok result)

include hm hs hresult in
theorem exactly_stays : Exactly
    ((l.here m).record (.invoked ()
      (.data l.endpoint (Wire.Command.keepAlive.request l.keepId).encode)))
    [.renew l.session.toNat (l.here m).clock]
    [verdict ⟨l.endpoint, l.keepId⟩ (result.map fun _ => [])]
    (if result.isOk then (l.here m).world.bindings
      else (l.here m).world.bindings.erase l.endpoint) (l.stays m) := by
  refine exactly_apply (c := .keepAlive) trivial l.keepId ((l.reached_here hm).bound _ _ hs)
    fun n hworld hclock => ?_
  have hperforms := performs_keepAlive (m := n) ⟨l.endpoint, l.keepId⟩
    (by rw [hworld]; exact hs) (by rw [hworld, hclock]; exact hresult)
  rw [hworld, hclock] at hperforms
  exact hperforms

variable (himage : Image (.without l.endpoint) (l.there m) (l.here m))

include himage in
theorem coordinator_there : (l.there m).world.coordinator = (l.here m).world.coordinator :=
  (mapReply_without l.endpoint _).symm.trans himage.world.coordinator.symm

include hm hresult himage in
theorem exactly_returns : Exactly
    ((Input.accept.apply (l.there m)).record (.invoked () (.data (l.there m).nextEndpoint
      ((Wire.Command.attachSession l.session).request l.attachId).encode)))
    [.renew l.session.toNat (l.here m).clock]
    [verdict ⟨(l.there m).nextEndpoint, l.attachId⟩ (result.map fun _ => [])]
    (if result.isOk then
      (l.there m).world.bindings.insert (l.there m).nextEndpoint l.session.toNat
      else (l.there m).world.bindings) (l.returns m) := by
  have hopen : (Input.accept.apply (l.there m)).endpoints.contains (l.there m).nextEndpoint =
      true := contains_insert.2 (.inl rfl)
  refine exactly_apply (c := .attachSession l.session) trivial l.attachId hopen
    fun n hworld hclock => ?_
  have hworld : n.world = (l.there m).world := hworld
  have hclock : n.clock = (l.here m).clock := hclock.trans himage.clock.symm
  have hperforms := performs_attach (m := n) ⟨(l.there m).nextEndpoint, l.attachId⟩ l.session
    (by rw [hworld]; exact ((l.reached_there hm).fresh (Nat.le_refl _)).1)
    (by rw [hworld, hclock, coordinator_there himage]; exact hresult)
  rw [hworld, hclock] at hperforms
  exact hperforms

include hm hs hresult in
theorem sessionFor_stays (e : Nat) : (l.stays m).world.sessionFor e =
    if e = l.endpoint then (if result.isOk then some l.session.toNat else none)
    else (l.here m).world.sessionFor e := by
  show (l.stays m).world.bindings.get? e = _
  rw [(exactly_stays hm hs hresult).bound]
  cases result with
  | ok _ =>
    show (l.here m).world.sessionFor e = if e = l.endpoint then some _ else _
    split
    · rename_i heq
      rw [heq, hs]
    · rfl
  | error fault => exact Table.get?_erase _ _ _

include hm hresult himage in
theorem sessionFor_returns (e : Nat) : (l.returns m).world.sessionFor e =
    if e = (l.there m).nextEndpoint then (if result.isOk then some l.session.toNat else none)
    else (l.there m).world.sessionFor e := by
  show (l.returns m).world.bindings.get? e = _
  rw [(exactly_returns hm hresult himage).bound]
  cases result with
  | ok _ => exact Table.get?_insert _ _ _ _
  | error fault =>
    show (l.there m).world.sessionFor e = if e = _ then none else _
    split
    · rename_i heq
      rw [heq, ((l.reached_there hm).fresh (Nat.le_refl _)).1]
    · rfl

include hm hs in
theorem endpoints_here (e : Nat) : (l.here m).endpoints.get? e =
    if e = l.endpoint then some ⟨(), ()⟩ else (l.here m).endpoints.get? e := by
  split
  · rename_i heq
    obtain ⟨x, hx⟩ := Option.isSome_iff_exists.1 ((l.reached_here hm).bound _ _ hs)
    rw [heq]
    exact hx
  · rfl

include hm hs hresult himage in
theorem copy_returns (hlt : l.endpoint < (l.there m).nextEndpoint) :
    Copy (.replaced hlt) (l.returns m).world (l.stays m).world := by
  have hstays := (exactly_stays hm hs hresult).world
  have hreturns := (exactly_returns hm hresult himage).world
  have hsame := coordinator_there himage
  have hnext : (l.there m).nextEndpoint = (l.here m).nextEndpoint := himage.fresh 0
  have hafter : (l.stays m).world.coordinator = (l.returns m).world.coordinator := by
    rw [hstays, hreturns]
    exact congrArg (Coordinator.State.after · _) hsame.symm
  -- whoever waits for an answer has asked before the new endpoint was made
  have hold : ∀ id x, (l.returns m).world.coordinator.handle? id = some x →
      ∀ w ∈ x.waiters, (Naming.replaced hlt).reply w.reply = w.reply := by
    intro id x hx w hw
    rw [hreturns] at hx
    have hx : (l.there m).world.coordinator.handle? id = some x := hx
    have hw := (l.reached_there hm).sound.queue _ (State.mem_queue.2 ⟨x, hx, hw⟩)
    unfold Naming.reply
    rw [Naming.name_replaced_of_lt hlt hw]
  refine ⟨?_, ?_, fun e he => ?_, ?_⟩
  · rw [hstays, hreturns]
    exact himage.world.config
  · rw [Coordinator.State.mapReply_eq_self _ hold, hafter]
  · rw [sessionFor_stays hm hs hresult, sessionFor_returns hm hresult himage]
    exact Naming.lookup_replaced hlt (fun e he => ((l.reached_there hm).fresh he).1)
      (fun e he => ((l.reached_here hm).fresh (hnext ▸ he)).1) himage.world.bindings he
  · rw [hstays, hreturns]
    exact himage.world.sweepTimer

include hm hs hresult himage in
/-- Once the client is back, the server is what it would be without the loss, with the new endpoint
in the place of the old one. -/
theorem image_returns (hlt : l.endpoint < (l.there m).nextEndpoint) :
    Image (.replaced hlt) (l.returns m) (l.stays m) := by
  have hstays := exactly_stays hm hs hresult
  have hreturns := exactly_returns hm hresult himage
  have hnext : (l.there m).nextEndpoint = (l.here m).nextEndpoint := himage.fresh 0
  have hmade : (l.returns m).nextEndpoint = (l.there m).nextEndpoint + 1 := hreturns.nextEndpoint
  refine ⟨copy_returns hm hs hresult himage hlt, ?_, ?_, fun e he => ?_, fun k => ?_, ?_⟩
  · exact hstays.clock.trans (himage.clock.trans hreturns.clock.symm)
  · exact hstays.timers.trans (himage.timers.trans hreturns.timers.symm)
  · rw [hstays.endpoints, hreturns.endpoints]
    show (l.here m).endpoints.get? _ = ((l.there m).endpoints.insert _ _).get? e
    rw [endpoints_here hm hs, Table.get?_insert]
    exact Naming.lookup_replaced hlt (fun e he => ((l.reached_there hm).fresh he).2)
      (fun e he => ((l.reached_here hm).fresh (hnext ▸ he)).2) himage.endpoints he
  · rw [hmade, Naming.name_replaced_of_gt hlt (by omega), hstays.nextEndpoint]
    show (l.there m).nextEndpoint + 1 + k - 1 = (l.here m).nextEndpoint + k
    omega
  · rw [hmade]
    exact Nat.lt_succ_of_lt hlt

end Back

/-! ### Whatever comes later -/

/-- A lost connection costs only the binding.  A server loses a connection, and what it is told
until the client is back does not concern the connection; without the loss, its endpoint would
still be bound to a session then.  The client comes back over a new connection and attaches the
session to it, whether the lease has ended or not; if it has not, the clock can name the end of a
new one.  Its request is answered like a sign of life over the old connection.  Whatever the server
is told from then on, it is the server that has not lost the connection and is told the same, with
the new endpoint in the place of the old one: the coordinators are the same but for the endpoints of
those who wait, and the frames that are sent are the same but for their endpoints. -/
theorem costs_only_binding (hm : Reached m) (hopen : m.endpoints.contains l.endpoint = true)
    (hs : (l.here m).world.sessionFor l.endpoint = some l.session.toNat)
    (htime : Leased (l.here m).world.coordinator l.session.toNat (l.here m).clock →
      Timely (l.here m)) :
    (∃ result, (l.stays m).sent = (l.here m).sent ++
        [frame (verdict ⟨l.endpoint, l.keepId⟩ result)] ∧
      (l.returns m).sent = (l.there m).sent ++
        [frame (verdict ⟨(l.there m).nextEndpoint, l.attachId⟩ result)]) ∧
    ∃ hlt : l.endpoint < (l.there m).nextEndpoint, ∀ later, Silent l.endpoint later →
      Onwards (.replaced hlt) (l.returns m) (l.stays m) (told (l.returns m) later)
        (told (l.stays m) (later.map (Naming.replaced hlt).input)) := by
  have himage := l.image_there hm hopen
  obtain ⟨result, hresult⟩ := exists_renewal htime
  have hstays := (exactly_stays hm hs hresult).sent
  have hreturns := (exactly_returns hm hresult himage).sent
  rw [sent_invoked] at hstays hreturns
  exact ⟨⟨_, hstays, hreturns⟩, himage.gone, fun later hsilent =>
    (image_returns hm hs hresult himage himage.gone).foldl hsilent⟩

/-- The second session holds a lock, and the first waits for it. -/
def contention : List Input :=
  let lock : Wire.Command := .lock (Wire.LockRequest.mk 1 2 false).encode
  [.accept, .accept, .request 1 .openSession 1, .request 2 .openSession 1, .request 2 (.open "a") 2,
    .request 2 lock 3, .request 1 (.open "a") 2, .request 1 lock 3]

/-- The first connection is lost for a second. -/
def brief : Loss := ⟨1, .closed, rfl, [.tick Time.second], by decide, 1, 4, 1⟩

/-- The lock is released, and so granted to the first session, whose client releases it. -/
def handover : List Input := [.request 2 (.release 1) 4, .request 3 (.release 1) 2]

/-- The first session gets the lock after its client has come back, which can then release it. -/
theorem costs_only_binding_brief :
    let m := told (start .default).loop contention
    Leased (brief.here m).world.coordinator 1 (brief.here m).clock ∧
    ∃ hlt : brief.endpoint < (brief.there m).nextEndpoint,
      Onwards (.replaced hlt) (brief.returns m) (brief.stays m) (told (brief.returns m) handover)
        (told (brief.stays m) (handover.map (Naming.replaced hlt).input)) ∧
      (told (brief.returns m) handover).sent = (brief.returns m).sent ++
        [frame (1, ⟨3, LockStatus.granted.toStatus, (Wire.LockGrant.mk 2).encode⟩),
          frame (2, ⟨4, Wire.Response.statusOk, []⟩),
          frame (3, ⟨2, Wire.Response.statusOk, []⟩)] := by
  intro m
  obtain ⟨-, hlt, h⟩ := brief.costs_only_binding (m := m) ⟨.default, contention, rfl⟩
    (by decide +kernel) (by decide +kernel) fun _ => by decide +kernel
  exact ⟨by decide +kernel, hlt, h handover (by decide +kernel), by decide +kernel⟩

/-- A lease of 5 · 10 ^ 18 seconds, renewed before it ends: the clock cannot name the new end.  The
sign of life and the request to attach both crash, without a response.  The old connection is still
bound, so that another sign of life crashes too; the new one is not, so that it is refused. -/
theorem binding_lost_of_overflow :
    let config : Config := ⟨Time.ofSeconds 5000000000000000000, Time.second, 1⟩
    let m := told (start config).loop
      [.accept, .request 1 .openSession 1, .tick (Time.ofSeconds 4900000000000000000)]
    let l : Loss := ⟨1, .closed, rfl, [], by decide, 1, 2, 1⟩
    Reached m ∧ m.endpoints.contains l.endpoint = true ∧
      (l.here m).world.sessionFor l.endpoint = some l.session.toNat ∧
      (told (l.stays m) [.request 1 .keepAlive 2]).sent = (l.stays m).sent ∧
      (told (l.returns m) [.request 2 .keepAlive 2]).sent = (l.returns m).sent ++
        [frame (sessionless ⟨2, 2⟩)] := by
  intro config m l
  exact ⟨⟨config, _, rfl⟩, by decide +kernel, by decide +kernel, by decide +kernel,
    by decide +kernel⟩

end Loss

end LeaseLock.Server
