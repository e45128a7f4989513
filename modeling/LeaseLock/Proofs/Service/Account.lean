import LeaseLock.Proofs.Service.Handler

/-
  LeaseLock: what the lock service sends for a frame.
  Whatever connections do with frames (`wiring transmit`), the trace of the event loop tells which
  frames the service has handed over to be sent (`Machine.sent`) and which it has been handed
  (`Machine.arrived`).  `Pays m ops own m'` says that between two loops exactly the answers of the
  operations `ops` have been sent, and then the responses `own`.  Each program of the service gets
  one rule (`Makes`); as long as the clock can name the end of a lease, the sender of a frame is
  answered once (`replies_onFrame`).
-/

namespace LeaseLock

open Reactor Coordinator

/-! ## The trace -/

namespace Reactor

variable {κ η σ τ ν : Type}

/-- The frame that an entry hands over to be sent, with its endpoint. -/
def Entry.sent? : Entry κ η σ ν → Option (Nat × Bytes)
  | .asked (.send endpoint bytes) _ => some (endpoint, bytes)
  | _ => none

/-- The frame that an entry hands to a handler, with its endpoint. -/
def Entry.arrived? : Entry κ η σ ν → Option (Nat × Bytes)
  | .invoked _ (.data endpoint payload) => some (endpoint, payload)
  | _ => none

namespace Machine

/-- The frames that have been handed over to be sent, oldest first. -/
def sent (m : Machine κ η σ τ ν) : List (Nat × Bytes) := (m.trace.filterMap Entry.sent?).reverse

/-- The frames that have been handed to handlers, oldest first. -/
def arrived (m : Machine κ η σ τ ν) : List (Nat × Bytes) :=
  (m.trace.filterMap Entry.arrived?).reverse

variable (m : Machine κ η σ τ ν) (e : Entry κ η σ ν)

theorem sent_record : (m.record e).sent = m.sent ++ (Entry.sent? e).toList := by
  cases h : Entry.sent? e <;> simp [sent, record, h]

theorem arrived_record : (m.record e).arrived = m.arrived ++ (Entry.arrived? e).toList := by
  cases h : Entry.arrived? e <;> simp [arrived, record, h]

end Machine

end Reactor

namespace Service

variable {κ η τ α β : Type} {t : κ → Nat → Bytes → τ → Bool × List Event × τ}

/-- The lock service serves all connections. -/
def wiring (t : κ → Nat → Bytes → τ → Bool × List Event × τ) :
    Wiring κ η State τ LockEvent := ⟨handle, t⟩

/-- The event loop of the service. -/
abbrev Loop (κ η τ : Type) := Machine κ η State τ LockEvent

/-! ## Payments -/

/-- The coordinator has carried out operations, in no time.  Exactly their answers have been handed
over to be sent, and then responses of the service's own. -/
structure Pays (m : Loop κ η τ) (ops : List (Operation ReplyTo)) (own : List (Nat × Wire.Response))
    (m' : Loop κ η τ) : Prop where
  coordinator : m'.world.coordinator = m.world.coordinator.after ops
  sent : m'.sent = m.sent ++ ((m.world.coordinator.told ops).map posted ++ own).map frame
  arrived : m'.arrived = m.arrived
  clock : m'.clock = m.clock

variable {m m' m'' : Loop κ η τ} {ops ops' : List (Operation ReplyTo)}
  {own own' : List (Nat × Wire.Response)} {r : Except Crash α} {dest : ReplyTo}

namespace Pays

theorem refl (m : Loop κ η τ) : Pays m [] [] m := ⟨rfl, (List.append_nil _).symm, rfl, rfl⟩

theorem trans (h : Pays m ops [] m') (h' : Pays m' ops' own m'') :
    Pays m (ops ++ ops') own m'' where
  coordinator := by rw [h'.coordinator, h.coordinator, State.after_append]
  sent := by
    rw [h'.sent, h.sent, h.coordinator, Coordinator.State.told_append]
    simp only [List.map_append, List.append_nil, List.append_assoc]
  arrived := h'.arrived.trans h.arrived
  clock := h'.clock.trans h.clock

/-- More responses of the service's own are sent. -/
theorem and_own (h : Pays m ops own m') (h' : Pays m' [] own' m'') :
    Pays m ops (own ++ own') m'' where
  coordinator := h'.coordinator.trans h.coordinator
  sent := by
    rw [h'.sent, h.sent]
    simp only [Coordinator.State.told, List.map_append, List.map_nil, List.nil_append,
      List.append_assoc]
  arrived := h'.arrived.trans h.arrived
  clock := h'.clock.trans h.clock

/-- Nothing that concerns the coordinator is done, and nothing is sent. -/
theorem of_same (hcoordinator : m'.world.coordinator = m.world.coordinator)
    (hsent : m'.sent = m.sent) (harrived : m'.arrived = m.arrived) (hclock : m'.clock = m.clock) :
    Pays m [] [] m' :=
  ⟨hcoordinator, hsent.trans (List.append_nil _).symm, harrived, hclock⟩

end Pays

/-- A program, started in the loop `m`, carries out operations and comes to a result. -/
def Makes (t : κ → Nat → Bytes → τ → Bool × List Event × τ) (p : Activity κ η α)
    (m : Loop κ η τ) (ops : List (Operation ReplyTo)) (own : List (Nat × Wire.Response))
    (r : Except Crash α) : Prop :=
  ∃ m', m.run (wiring t) p = (r, m') ∧ Pays m ops own m'

namespace Makes

theorem pure (a : α) (m : Loop κ η τ) : Makes t (Pure.pure a) m [] [] (.ok a) :=
  ⟨m, rfl, .refl m⟩

/-- One program after another. -/
theorem bind {p : Activity κ η α} {f : α → Activity κ η β} {a : α} {r : Except Crash β}
    (hp : Makes t p m ops [] (.ok a))
    (hf : ∀ m', Pays m ops [] m' → Makes t (f a) m' ops' own r) :
    Makes t (p >>= f) m (ops ++ ops') own r := by
  obtain ⟨m', hrun, hm⟩ := hp
  obtain ⟨m'', hrun', hm'⟩ := hf m' hm
  exact ⟨m'', (Machine.run_bind_of_ok f hrun).trans hrun', hm.trans hm'⟩

/-- What follows a crash is not done. -/
theorem bind_error {p : Activity κ η α} {f : α → Activity κ η β} {c : Crash}
    (hp : Makes t p m ops own (.error c)) :
    Makes t (p >>= f) m ops own (.error c) := by
  obtain ⟨m', hrun, hm⟩ := hp
  exact ⟨m', Machine.run_bind_of_error f hrun, hm⟩

/-- Whatever comes of the first program, what follows does nothing to the coordinator. -/
theorem bind_any {p : Activity κ η α} {f : α → Activity κ η β}
    (hp : ∃ r, Makes t p m ops [] r) (hf : ∀ a m', ∃ r, Makes t (f a) m' [] [] r) :
    ∃ r, Makes t (p >>= f) m ops [] r := by
  obtain ⟨r, hp⟩ := hp
  cases r with
  | error c => exact ⟨_, hp.bind_error⟩
  | ok a =>
    obtain ⟨m', hrun, h⟩ := hp
    obtain ⟨r, m'', hrun', h'⟩ := hf a m'
    exact ⟨r, m'', (Machine.run_bind_of_ok f hrun).trans hrun', h.and_own h'⟩

end Makes

/-! ## Requests to the loop -/

theorem makes_now (m : Loop κ η τ) : Makes t Program.now m [] [] (.ok m.clock) :=
  ⟨_, rfl, .of_same rfl rfl rfl rfl⟩

theorem makes_world (m : Loop κ η τ) : Makes t Program.world m [] [] (.ok m.world) :=
  ⟨_, rfl, .of_same rfl rfl rfl rfl⟩

/-- Bindings and timers are no concern of the coordinator. -/
theorem makes_change (f : State → State) (m : Loop κ η τ)
    (hf : (f m.world).coordinator = m.world.coordinator) :
    Makes t (change f) m [] [] (.ok ()) :=
  ⟨_, rfl, .of_same hf rfl rfl rfl⟩

theorem makes_schedule (deadline : Nat) (self : η) (m : Loop κ η τ) :
    ∃ id, Makes t (Program.schedule deadline self) m [] [] (.ok id) := by
  have hquiet : Pays m [] [] ((m.schedule deadline self).2.record
      (.asked (.schedule deadline self) (m.schedule deadline self).1)) := by
    unfold Machine.schedule
    dsimp only
    split <;> exact .of_same rfl rfl rfl rfl
  exact ⟨_, _, rfl, hquiet⟩

/-- A response is handed over, whatever becomes of it. -/
theorem makes_sendResponse (endpoint : Nat) (response : Wire.Response) (m : Loop κ η τ) :
    Makes t (sendResponse endpoint response) m [] [(endpoint, response)] (.ok ()) := by
  obtain ⟨links, queue, heq⟩ := m.send_eq (w := wiring t) endpoint response.encode
  refine ⟨(m.send (wiring t) endpoint response.encode).2.record
    (.asked (.send endpoint response.encode) _), rfl, ?_⟩
  rw [heq]
  exact ⟨rfl, Machine.sent_record _ _, Machine.arrived_record _ _ |>.trans (List.append_nil _), rfl⟩

theorem makes_each_send (answers : List (ReplyTo × Answer)) (m : Loop κ η τ) :
    Makes t (Program.each
      (fun (dest, answer) => sendResponse dest.endpoint (answer.reply.response dest.id)) answers)
      m [] (answers.map posted) (.ok ()) := by
  induction answers generalizing m with
  | nil => exact .pure () m
  | cons p rest ih =>
    obtain ⟨m₁, hrun₁, h₁⟩ := makes_sendResponse (t := t) p.1.endpoint
      (p.2.reply.response p.1.id) m
    obtain ⟨m₂, hrun₂, h₂⟩ := ih m₁
    exact ⟨m₂, (Machine.run_bind_of_ok _ hrun₁).trans hrun₂, h₁.and_own h₂⟩

/-- Notes are no frames. -/
theorem makes_notes (notes : List LockEvent) (m : Loop κ η τ) :
    Makes t (Program.each Program.note notes) m [] [] (.ok ()) := by
  induction notes generalizing m with
  | nil => exact .pure () m
  | cons n rest ih =>
    have hnote : Makes t (Program.note n) m [] [] (.ok ()) :=
      ⟨_, rfl, .of_same rfl rfl rfl rfl⟩
    exact hnote.bind fun m' _ => ih m'

/-- An operation is carried out that gives no answers. -/
theorem makes_consult (op : Operation ReplyTo)
    {f : Coordinator.State ReplyTo → α × Coordinator.State ReplyTo} (m : Loop κ η τ)
    (hf : (m.world.coordinator.perform op).2 = .start (f m.world.coordinator).2) :
    Makes t (consult f) m [op] [] (.ok (f m.world.coordinator).1) := by
  refine ⟨_, rfl, ?_, ?_, rfl, rfl⟩
  · exact congrArg Turn.state hf.symm
  · rw [Coordinator.State.told, hf]
    exact (List.append_nil _).symm

/-- An operation is carried out, and its answers are sent. -/
theorem makes_operate (op : Operation ReplyTo)
    {f : Coordinator.State ReplyTo → α × Turn ReplyTo} (m : Loop κ η τ)
    (hf : (f m.world.coordinator).2 = (m.world.coordinator.perform op).2) :
    Makes t (operate f) m [op] [] (.ok (f m.world.coordinator).1) := by
  have hupdate : ∃ m₁, m.run (wiring t) (Program.update fun s =>
      (f s.coordinator, { s with coordinator := (f s.coordinator).2.state })) =
        (.ok (f m.world.coordinator), m₁) ∧
      m₁.world.coordinator = m.world.coordinator.after [op] ∧
      m₁.sent = m.sent ∧ m₁.arrived = m.arrived ∧ m₁.clock = m.clock :=
    ⟨_, rfl, congrArg Turn.state hf, rfl, rfl, rfl⟩
  obtain ⟨m₁, hrun₁, hcoordinator, hsent, harrived, hclock⟩ := hupdate
  obtain ⟨m₂, hrun₂, h₂⟩ := makes_notes (t := t) (f m.world.coordinator).2.events m₁
  obtain ⟨m₃, hrun₃, h₃⟩ :=
    makes_each_send (t := t) (f m.world.coordinator).2.answers m₂
  have htold : m.world.coordinator.told [op] = (f m.world.coordinator).2.answers := by
    rw [hf]
    exact List.append_nil _
  have hrest : Pays m₁ [] ((f m.world.coordinator).2.answers.map posted) m₃ := h₂.trans h₃
  refine ⟨m₃, (Machine.run_bind_of_ok _ hrun₁).trans ((Machine.run_bind_of_ok _ hrun₂).trans
    (Machine.run_bind_of_ok _ hrun₃)), ?_, ?_, hrest.arrived.trans harrived,
    hrest.clock.trans hclock⟩
  · exact hrest.coordinator.trans hcoordinator
  · rw [hrest.sent, hsent, htold, List.append_nil]
    rfl

/-! ## Replies -/

/-- How the sender of a request is answered: with a response of the service's own, or, if it has
asked for a lock with this body, by the coordinator. -/
inductive Replied (dest : ReplyTo) (lock : Bytes → Prop) (m m' : Loop κ η τ) : Prop where
  /-- A response has been sent. -/
  | response {ops : List (Operation ReplyTo)} {response : Nat × Wire.Response}
      (silent : ops.filterMap Operation.reply? = []) (id : address response = dest)
      (pays : Pays m ops [response] m')
  /-- The coordinator has been asked for a lock. -/
  | lock {m₁ : Loop κ η τ} {ops : List (Operation ReplyTo)} {session : Nat} {body : Bytes}
      (harmless : ∀ op ∈ ops, op.Harmless) (first : Pays m ops [] m₁) (asked : lock body)
      (pays : Pays m₁ [.dispatch session body dest] [] m')

/-- A program, started in the loop `m`, answers the sender of a request once. -/
def Replies (t : κ → Nat → Bytes → τ → Bool × List Event × τ) (dest : ReplyTo)
    (lock : Bytes → Prop) (p : Activity κ η Unit) (m : Loop κ η τ) : Prop :=
  ∃ m', m.run (wiring t) p = (.ok (), m') ∧ Replied dest lock m m'

theorem Pays.harmless_first {lock : Bytes → Prop} (h : Pays m ops [] m')
    (hops : ∀ op ∈ ops, op.Harmless) (h' : Replied dest lock m' m'') :
    Replied dest lock m m'' := by
  have hsilent : ops.filterMap Operation.reply? = [] :=
    List.filterMap_eq_nil_iff.2 fun op hm => (hops op hm).reply?
  cases h' with
  | response silent id pays =>
    exact .response (by rw [List.filterMap_append, hsilent, silent]; rfl) id (h.trans pays)
  | lock harmless first asked pays =>
    exact .lock (fun op hm => (List.mem_append.1 hm).elim (hops op) (harmless op)) (h.trans first)
      asked pays

namespace Replies

variable {lock : Bytes → Prop}

theorem mono {lock' : Bytes → Prop} {p : Activity κ η Unit} (h : Replies t dest lock p m)
    (hlock : ∀ body, lock body → lock' body) : Replies t dest lock' p m := by
  obtain ⟨m', hrun, h⟩ := h
  cases h with
  | response silent id pays => exact ⟨m', hrun, .response silent id pays⟩
  | lock harmless first asked pays =>
    exact ⟨m', hrun, .lock harmless first (hlock _ asked) pays⟩

/-- Harmless operations come first. -/
theorem bind {p : Activity κ η α} {f : α → Activity κ η Unit} {a : α}
    (hp : Makes t p m ops [] (.ok a)) (hops : ∀ op ∈ ops, op.Harmless)
    (hf : ∀ m', Pays m ops [] m' → Replies t dest lock (f a) m') :
    Replies t dest lock (p >>= f) m := by
  obtain ⟨m₁, hrun₁, h₁⟩ := hp
  obtain ⟨m₂, hrun₂, h₂⟩ := hf m₁ h₁
  exact ⟨m₂, (Machine.run_bind_of_ok f hrun₁).trans hrun₂, h₁.harmless_first hops h₂⟩

/-- A response, and nothing else. -/
theorem of_response (endpoint : Nat) (response : Wire.Response) (m : Loop κ η τ) :
    Replies t ⟨endpoint, response.id⟩ lock (sendResponse endpoint response) m := by
  obtain ⟨m', hrun, h⟩ := makes_sendResponse (t := t) endpoint response m
  exact ⟨m', hrun, .response rfl rfl h⟩

theorem respond (dest : ReplyTo) (body : Bytes) (m : Loop κ η τ) :
    Replies t dest lock (Service.respond dest body) m :=
  of_response dest.endpoint ⟨dest.id, Wire.Response.statusOk, body⟩ m

theorem reject (dest : ReplyTo) (code : FaultCode) (message : String) (m : Loop κ η τ) :
    Replies t dest lock (Service.reject dest code message) m :=
  of_response dest.endpoint (.error dest.id code.toStatus message) m

theorem report (dest : ReplyTo) (result : Except Fault Bytes) (m : Loop κ η τ) :
    Replies t dest lock (Service.report dest result) m := by
  cases result with
  | ok body => exact respond dest body m
  | error fault => exact reject dest fault.code fault.message m

/-- An operation that answers only others, and a response. -/
theorem operation (op : Operation ReplyTo) (hop : op.reply? = none)
    {f : Coordinator.State ReplyTo → α × Turn ReplyTo} {g : α → Activity κ η Unit}
    (m : Loop κ η τ) (hf : (f m.world.coordinator).2 = (m.world.coordinator.perform op).2)
    (hg : ∀ a, ∃ response : Nat × Wire.Response,
      address response = dest ∧ g a = sendResponse response.1 response.2) :
    Replies t dest lock (operate f >>= g) m := by
  obtain ⟨m₁, hrun₁, h₁⟩ := makes_operate (t := t) op m hf
  obtain ⟨response, hid, heq⟩ := hg (f m.world.coordinator).1
  obtain ⟨m₂, hrun₂, h₂⟩ := makes_sendResponse (t := t) response.1 response.2 m₁
  rw [← heq] at hrun₂
  exact ⟨m₂, (Machine.run_bind_of_ok g hrun₁).trans hrun₂,
    .response (by simp [hop]) hid (h₁.trans h₂)⟩

end Replies

/-- However an operation went, one response tells of it. -/
theorem report_eq (dest : ReplyTo) (result : Except Fault Bytes) :
    ∃ response : Nat × Wire.Response, address response = dest ∧
      (report dest result : Activity κ η Unit) = sendResponse response.1 response.2 := by
  cases result with
  | ok body => exact ⟨(dest.endpoint, ⟨dest.id, Wire.Response.statusOk, body⟩), rfl, rfl⟩
  | error fault =>
    exact ⟨(dest.endpoint, .error dest.id fault.code.toStatus fault.message), rfl, rfl⟩

/-! ## Leases -/

/-- The clock can name the end of a lease that starts now. -/
def Timely (m : Loop κ η τ) : Prop :=
  m.clock + m.world.coordinator.sessions.lease < Time.limit

instance (m : Loop κ η τ) : Decidable (Timely m) := Nat.decLt _ _

theorem lease_renew (s : Coordinator.State ReplyTo) (session now : Nat) :
    (s.after [.renew session now]).sessions.lease = s.sessions.lease := by
  show (s.sessions.renew session now).2.lease = _
  rcases Sessions.renew_cases s.sessions session now with heq | ⟨_, heq⟩ <;> rw [heq]
  rfl

/-- It still can after a renewal. -/
theorem Timely.renewed {session : Nat} (hm : Timely m)
    (h : Pays m [.renew session m.clock] [] m') : Timely m' := by
  unfold Timely
  rw [h.clock, h.coordinator, lease_renew]
  exact hm

theorem Timely.of_same (hm : Timely m) (h : Pays m [] [] m') : Timely m' := by
  unfold Timely
  rw [h.clock, h.coordinator]
  exact hm

/-- Then a renewal does not crash. -/
theorem Timely.renewal (hm : Timely m) (session : Nat) :
    ∃ result, renewal (m.world.coordinator.renew session m.clock).1 = .ok result := by
  have hadd := Time.add?_eq_some_iff.2 ⟨rfl, hm⟩
  unfold Coordinator.State.renew Sessions.renew
  dsimp only
  split
  · exact ⟨_, rfl⟩
  · split
    · exact ⟨_, rfl⟩
    · rw [hadd]
      exact ⟨_, rfl⟩

theorem makes_renew (session : Nat) (m : Loop κ η τ) :
    Makes t (renew session) m [.renew session m.clock] []
      (Service.renewal (m.world.coordinator.renew session m.clock).1) := by
  refine (makes_now m).bind fun m₁ h₁ => ?_
  have hc := makes_consult (t := t) (.renew session m.clock)
    (f := fun s => s.renew session m.clock) m₁ rfl
  rw [show m₁.world.coordinator = m.world.coordinator from h₁.coordinator] at hc
  refine hc.bind fun m₂ _ => ?_
  cases (m.world.coordinator.renew session m.clock).1 with
  | ok expiry => exact .pure _ m₂
  | error failure =>
    cases failure with
    | refused fault => exact .pure _ m₂
    | crashed c => exact ⟨m₂, rfl, .refl m₂⟩

theorem makes_createSession (m : Loop κ η τ) (hm : Timely m) :
    ∃ id, Makes t createSession m [.createSession m.clock] [] (.ok id) := by
  have hadd := Time.add?_eq_some_iff.2 ⟨rfl, hm⟩
  have hid : (m.world.coordinator.createSession m.clock).1 =
      .ok m.world.coordinator.sessions.nextId := by
    unfold Coordinator.State.createSession Sessions.create
    dsimp only
    rw [hadd]
  refine ⟨m.world.coordinator.sessions.nextId, (makes_now m).bind fun m₁ h₁ => ?_⟩
  have hc := makes_consult (t := t) (.createSession m.clock)
    (f := fun s => s.createSession m.clock) m₁ rfl
  rw [show m₁.world.coordinator = m.world.coordinator from h₁.coordinator, hid] at hc
  exact hc.bind fun m₂ _ => .pure _ m₂

/-! ## Commands -/

namespace Replies

variable {lock : Bytes → Prop}

theorem executeFor (dest : ReplyTo) (session : Nat) (command : Wire.Command) (m : Loop κ η τ) :
    Replies t dest (fun body => command = .lock body) (executeFor dest session command) m := by
  have hreport : ∀ result : Except Fault Unit, ∃ response : Nat × Wire.Response,
      address response = dest ∧ (Service.report dest (result.map fun _ => []) : Activity κ η Unit) =
        sendResponse response.1 response.2 := fun _ => report_eq dest _
  cases command with
  | «open» name =>
    have hc := makes_consult (t := t) (.openHandle session name)
      (f := fun s => s.openHandle session name) m rfl
    exact .bind hc (by simp [Operation.Harmless]) fun m₁ _ => report dest _ m₁
  | close handle =>
    exact operation (.closeHandle session handle.toNat) rfl m rfl hreport
  | lock payload =>
    obtain ⟨m', hrun, h⟩ := makes_operate (t := t) (.dispatch session payload dest)
      (f := fun s => s.dispatch session payload dest) m rfl
    exact ⟨m', (Machine.run_bind_of_ok _ hrun).trans rfl,
      .lock (List.forall_mem_nil _) (.refl m) rfl h⟩
  | release handle =>
    exact operation (.release session handle.toNat) rfl m rfl hreport
  | cancelLock handle =>
    exact operation (.cancel session handle.toNat) rfl m rfl fun any =>
      ⟨(dest.endpoint, ⟨dest.id, Wire.Response.statusOk, [if any then 1 else 0]⟩), rfl, rfl⟩
  | closeSession =>
    refine .bind (makes_change (fun s => s.unbind dest.endpoint) m rfl) nofun fun m₁ _ => ?_
    exact operation (.closeSession session) rfl m₁ rfl hreport
  | openSession | attachSession | keepAlive | stats => exact respond dest [] m

theorem openSession (dest : ReplyTo) (session : Option Nat) (m : Loop κ η τ) (hm : Timely m) :
    Replies t dest lock (execute dest session .openSession) m := by
  obtain ⟨id, hcreate⟩ := makes_createSession (t := t) m hm
  refine .bind hcreate (by simp [Operation.Harmless]) fun m₁ _ => ?_
  refine .bind (makes_change (fun s => s.bind dest.endpoint id) m₁ rfl) nofun fun m₂ _ => ?_
  exact .bind (makes_world m₂) nofun fun m₃ _ => respond dest _ m₃

theorem attachSession (dest : ReplyTo) (session : Option Nat) (id : UInt64) (m : Loop κ η τ)
    (hm : Timely m) : Replies t dest lock (execute dest session (.attachSession id)) m := by
  obtain ⟨result, hresult⟩ := hm.renewal id.toNat
  have hrenew := makes_renew (t := t) id.toNat m
  rw [hresult] at hrenew
  refine .bind hrenew (Operation.harmless_renew _ _) fun m₁ _ => ?_
  cases result with
  | ok _ =>
    exact .bind (makes_change (fun s => s.bind dest.endpoint id.toNat) m₁ rfl) nofun fun m₂ _ =>
      respond dest [] m₂
  | error fault => exact reject dest fault.code fault.message m₁

theorem execute (dest : ReplyTo) (session : Option Nat) (command : Wire.Command)
    (m : Loop κ η τ) (hm : Timely m) :
    Replies t dest (fun body => command = .lock body) (execute dest session command) m := by
  have hfor := fun session => executeFor (t := t) dest session command m
  cases command with
  | openSession => exact openSession dest session m hm
  | attachSession id => exact attachSession dest session id m hm
  | stats => exact .bind (makes_world m) nofun fun m₁ _ => respond dest _ m₁
  | _ =>
    cases session with
    | none => exact reject dest _ _ m
    | some session => exact hfor session

theorem onCommand (dest : ReplyTo) (command : Wire.Command) (m : Loop κ η τ) (hm : Timely m) :
    Replies t dest (fun body => command = .lock body) (onCommand dest command) m := by
  refine .bind (makes_world m) nofun fun m₁ h₁ => ?_
  have hm₁ := hm.of_same h₁
  cases m.world.sessionFor dest.endpoint with
  | none => exact execute dest none command m₁ hm₁
  | some session =>
    obtain ⟨result, hresult⟩ := hm₁.renewal session
    have hrenew := makes_renew (t := t) session m₁
    rw [hresult] at hrenew
    refine .bind hrenew (Operation.harmless_renew _ _) fun m₂ h₂ => ?_
    have hm₂ := hm₁.renewed h₂
    cases result with
    | ok _ => exact execute dest (some session) command m₂ hm₂
    | error fault =>
      refine .bind (makes_change (fun s => s.unbind dest.endpoint) m₂ rfl) nofun fun m₃ h₃ => ?_
      show Replies t dest _ (if command.needsSession then _ else _) m₃
      split
      · exact reject dest fault.code fault.message m₃
      · exact execute dest none command m₃ (hm₂.of_same h₃)

end Replies

/-- The sender of a frame is answered once, under the id of the frame; one that cannot be read is
answered under the id zero. -/
theorem replies_onFrame (endpoint : Nat) (payload : Bytes) (m : Loop κ η τ) (hm : Timely m) :
    Replies t (origin endpoint payload) (fun body => command? payload = some (.lock body))
      (onFrame endpoint payload) m := by
  unfold onFrame origin command?
  cases Wire.Request.decode payload with
  | error fault => exact .reject ⟨endpoint, 0⟩ fault.code fault.message m
  | ok request =>
    dsimp only
    cases Wire.Command.decode request.command request.body with
    | error fault => exact .reject ⟨endpoint, request.id⟩ fault.code fault.message m
    | ok command =>
      cases command with
      | none => exact .reject ⟨endpoint, request.id⟩ _ _ m
      | some command =>
        exact (Replies.onCommand ⟨endpoint, request.id⟩ command m hm).mono fun body heq =>
          congrArg some heq

/-! ## Timers and states -/

/-- A connection that has ended loses its binding: that is no concern of the coordinator. -/
theorem makes_state (self : η) (endpoint : Nat) (state : LinkState) (m : Loop κ η τ) :
    Makes t (handle self (.state endpoint state)) m [] [] (.ok ()) := by
  unfold handle
  dsimp only
  split
  · exact makes_change (fun s => s.unbind endpoint) m rfl
  · exact .pure () m

theorem makes_scheduleSweep (self : η) (m : Loop κ η τ) :
    ∃ r, Makes t (scheduleSweep self) m [] [] r := by
  refine Makes.bind_any ⟨_, makes_world m⟩ fun s m₁ => ?_
  refine Makes.bind_any (Makes.bind_any ⟨_, makes_now m₁⟩ fun now m₂ => ?_) fun timer m₃ =>
    ⟨_, makes_change _ m₃ rfl⟩
  cases Time.add? now s.sweepInterval with
  | some deadline =>
    obtain ⟨id, hschedule⟩ := makes_schedule (t := t) deadline self m₂
    exact ⟨.ok id, hschedule⟩
  | none => exact ⟨_, m₂, rfl, .refl m₂⟩

theorem makes_expireSessions (now : Nat) (m : Loop κ η τ) :
    ∃ r, Makes t (expireSessions now) m [.expire now] [] r := by
  have hexpire := makes_operate (t := t) (.expire now) (f := fun s => s.expire now) m rfl
  exact Makes.bind_any ⟨_, hexpire⟩ fun expired m₁ =>
    Makes.bind_any ⟨_, makes_change _ m₁ rfl⟩ fun _ m₂ => ⟨_, .pure expired m₂⟩

/-- A timer looks for leases that have ended, unless it is an old one. -/
theorem makes_timer (self : η) (id : Nat) (m : Loop κ η τ) :
    ∃ ops r, Makes t (handle self (.timer id)) m ops [] r ∧
      (ops = [] ∨ ops = [.expire m.clock]) := by
  obtain ⟨m₁, hrun₁, h₁⟩ := makes_world (t := t) m
  by_cases hcurrent : (m.world.sweepTimer == some id) = true
  · obtain ⟨m₂, hrun₂, h₂⟩ := makes_now (t := t) m₁
    obtain ⟨r, m₃, hrun₃, h₃⟩ := Makes.bind_any (makes_expireSessions (t := t) m₁.clock m₂)
      fun _ m' => makes_scheduleSweep self m'
    rw [h₁.clock] at hrun₂ hrun₃ h₃
    refine ⟨[.expire m.clock], r, ⟨m₃, (Machine.run_bind_of_ok _ hrun₁).trans ?_,
      h₁.trans (h₂.trans h₃)⟩, .inr rfl⟩
    rw [if_pos hcurrent]
    exact (Machine.run_bind_of_ok _ hrun₂).trans hrun₃
  · refine ⟨[], .ok (), ⟨m₁, (Machine.run_bind_of_ok _ hrun₁).trans ?_, h₁⟩, .inl rfl⟩
    rw [if_neg hcurrent]
    rfl

end Service

end LeaseLock
