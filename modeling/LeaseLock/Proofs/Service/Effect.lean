import LeaseLock.Proofs.Coordinator.Lease
import LeaseLock.Proofs.Service.Account

/-
  LeaseLock: what the programs of the lock service come to, exactly.
  `Exactly m ops own bindings m'` says everything that the service does to its own state and to the
  loop between `m` and `m'`: the coordinator has carried out the operations `ops`, their answers
  have been handed over to be sent and then the responses `own`, and the connections are bound as in
  `bindings`; the clock, the timers and the endpoints are as they were.  What connections do with
  frames is left open, and so is who else uses the loop.  Each program that the service runs for a
  frame gets one rule (`Performs`).
-/

namespace LeaseLock.Service

open Reactor Coordinator

variable {κ η τ α β : Type} {w : Wiring κ η State τ LockEvent} {m m' m'' : Loop κ η τ}
  {ops ops' : List (Operation ReplyTo)} {own own' : List (Nat × Wire.Response)}
  {bindings bindings' : Table Nat} {r : Except Crash α} {dest : ReplyTo}

/-! ## What is done -/

/-- Operations have been carried out, their answers and then other responses have been handed over
to be sent, and connections are bound as told.  Nothing else that the service is about has
changed. -/
structure Exactly (m : Loop κ η τ) (ops : List (Operation ReplyTo))
    (own : List (Nat × Wire.Response)) (bindings : Table Nat) (m' : Loop κ η τ) : Prop where
  world : m'.world =
    { m.world with coordinator := m.world.coordinator.after ops, bindings := bindings }
  sent : m'.sent = m.sent ++ ((m.world.coordinator.told ops).map posted ++ own).map frame
  arrived : m'.arrived = m.arrived
  clock : m'.clock = m.clock
  timers : m'.timers = m.timers
  endpoints : m'.endpoints = m.endpoints
  nextEndpoint : m'.nextEndpoint = m.nextEndpoint
  phase : m'.phase = m.phase

namespace Exactly

theorem refl (m : Loop κ η τ) : Exactly m [] [] m.world.bindings m :=
  ⟨rfl, (List.append_nil _).symm, rfl, rfl, rfl, rfl, rfl, rfl⟩

theorem coordinator (h : Exactly m ops own bindings m') :
    m'.world.coordinator = m.world.coordinator.after ops := by rw [h.world]

theorem bound (h : Exactly m ops own bindings m') : m'.world.bindings = bindings := by rw [h.world]

theorem trans (h : Exactly m ops [] bindings m') (h' : Exactly m' ops' own' bindings' m'') :
    Exactly m (ops ++ ops') own' bindings' m'' where
  world := by rw [h'.world, h.world, Coordinator.State.after_append]
  sent := by
    rw [h'.sent, h.sent, h.coordinator, Coordinator.State.told_append]
    simp only [List.map_append, List.append_nil, List.append_assoc]
  arrived := h'.arrived.trans h.arrived
  clock := h'.clock.trans h.clock
  timers := h'.timers.trans h.timers
  endpoints := h'.endpoints.trans h.endpoints
  nextEndpoint := h'.nextEndpoint.trans h.nextEndpoint
  phase := h'.phase.trans h.phase

/-- More responses of the service's own are sent. -/
theorem and_own (h : Exactly m ops own bindings m') (h' : Exactly m' [] own' bindings' m'') :
    Exactly m ops (own ++ own') bindings' m'' where
  world := by
    rw [h'.world, h.world]
    rfl
  sent := by
    rw [h'.sent, h.sent]
    simp only [Coordinator.State.told, List.map_append, List.map_nil, List.nil_append,
      List.append_assoc]
  arrived := h'.arrived.trans h.arrived
  clock := h'.clock.trans h.clock
  timers := h'.timers.trans h.timers
  endpoints := h'.endpoints.trans h.endpoints
  nextEndpoint := h'.nextEndpoint.trans h.nextEndpoint
  phase := h'.phase.trans h.phase

end Exactly

/-! ## Onward -/

/-- Between two states of the loop, the coordinator has carried out operations, each of which starts
leases no earlier than the clock showed. -/
structure Onward (m m' : Loop κ η τ) : Prop where
  clock : m.clock ≤ m'.clock
  ops : ∃ ops : List (Operation ReplyTo), (∀ op ∈ ops, op.NotBefore m.clock) ∧
    m'.world.coordinator = m.world.coordinator.after ops

namespace Onward

theorem refl (m : Loop κ η τ) : Onward m m := ⟨Nat.le_refl _, [], nofun, rfl⟩

theorem trans (h : Onward m m') (h' : Onward m' m'') : Onward m m'' := by
  obtain ⟨ops, hops, hcoordinator⟩ := h.ops
  obtain ⟨ops', hops', hcoordinator'⟩ := h'.ops
  refine ⟨Nat.le_trans h.clock h'.clock, ops ++ ops', fun op hm => ?_, ?_⟩
  · rcases List.mem_append.1 hm with hm | hm
    · exact hops op hm
    · exact (hops' op hm).mono h.clock
  · rw [Coordinator.State.after_append, ← hcoordinator, hcoordinator']

/-- A lease that is over stays over. -/
theorem stays_over (h : Onward m m') {session : Nat}
    (hover : m.world.coordinator.Over session m.clock) :
    m'.world.coordinator.Over session m'.clock := by
  obtain ⟨ops, hops, hcoordinator⟩ := h.ops
  rw [hcoordinator]
  exact (hover.after hops).mono h.clock

theorem nextId (h : Onward m m') :
    m.world.coordinator.sessions.nextId ≤ m'.world.coordinator.sessions.nextId := by
  obtain ⟨ops, -, hcoordinator⟩ := h.ops
  rw [hcoordinator]
  exact Coordinator.State.nextId_le_after _ _

end Onward

/-- Exactly these operations have been carried out. -/
theorem Exactly.onward {ops : List (Operation ReplyTo)} {own : List (Nat × Wire.Response)}
    {bindings : Table Nat} (h : Exactly m ops own bindings m')
    (hops : ∀ op ∈ ops, op.NotBefore m.clock) : Onward m m' :=
  ⟨Nat.le_of_eq h.clock.symm, ops, hops, h.coordinator⟩

/-! ## Programs -/

/-- A program, started in the loop `m`, comes to a result with exactly these effects. -/
def Performs (w : Wiring κ η State τ LockEvent) (p : Activity κ η α) (m : Loop κ η τ)
    (r : Except Crash α) (ops : List (Operation ReplyTo)) (own : List (Nat × Wire.Response))
    (bindings : Table Nat) : Prop :=
  ∃ m', m.run w p = (r, m') ∧ Exactly m ops own bindings m'

namespace Performs

theorem pure (a : α) (m : Loop κ η τ) :
    Performs w (Pure.pure a) m (.ok a) [] [] m.world.bindings := ⟨m, rfl, .refl m⟩

theorem crash (c : Crash) (m : Loop κ η τ) :
    Performs w (.crash c : Activity κ η α) m (.error c) [] [] m.world.bindings := ⟨m, rfl, .refl m⟩

/-- One program after another. -/
theorem bind {p : Activity κ η α} {f : α → Activity κ η β} {a : α} {r : Except Crash β}
    (hp : Performs w p m (.ok a) ops [] bindings)
    (hf : ∀ m', Exactly m ops [] bindings m' → Performs w (f a) m' r ops' own' bindings') :
    Performs w (p >>= f) m r (ops ++ ops') own' bindings' := by
  obtain ⟨m', hrun, hm⟩ := hp
  obtain ⟨m'', hrun', hm'⟩ := hf m' hm
  exact ⟨m'', (Machine.run_bind_of_ok f hrun).trans hrun', hm.trans hm'⟩

/-- Responses are sent before and after. -/
theorem bind_own {p : Activity κ η α} {f : α → Activity κ η β} {a : α} {r : Except Crash β}
    (hp : Performs w p m (.ok a) ops own bindings)
    (hf : ∀ m', Exactly m ops own bindings m' → Performs w (f a) m' r [] own' bindings') :
    Performs w (p >>= f) m r ops (own ++ own') bindings' := by
  obtain ⟨m', hrun, hm⟩ := hp
  obtain ⟨m'', hrun', hm'⟩ := hf m' hm
  exact ⟨m'', (Machine.run_bind_of_ok f hrun).trans hrun', hm.and_own hm'⟩

end Performs

/-! ## Requests to the loop -/

theorem performs_now (m : Loop κ η τ) :
    Performs w Program.now m (.ok m.clock) [] [] m.world.bindings :=
  ⟨_, rfl, rfl, (List.append_nil _).symm, rfl, rfl, rfl, rfl, rfl, rfl⟩

theorem performs_world (m : Loop κ η τ) :
    Performs w Program.world m (.ok m.world) [] [] m.world.bindings :=
  ⟨_, rfl, rfl, (List.append_nil _).symm, rfl, rfl, rfl, rfl, rfl, rfl⟩

/-- Connections are bound or lose their bindings. -/
theorem performs_change (f : State → State) (m : Loop κ η τ)
    (hf : f m.world = { m.world with bindings := bindings }) :
    Performs w (change f) m (.ok ()) [] [] bindings :=
  ⟨_, rfl, hf, (List.append_nil _).symm, rfl, rfl, rfl, rfl, rfl, rfl⟩

/-- A response is handed over, whatever becomes of it. -/
theorem performs_sendResponse (endpoint : Nat) (response : Wire.Response) (m : Loop κ η τ) :
    Performs w (sendResponse endpoint response) m (.ok ()) [] [(endpoint, response)]
      m.world.bindings := by
  obtain ⟨links, queue, heq⟩ := m.send_eq (w := w) endpoint response.encode
  refine ⟨(m.send w endpoint response.encode).2.record
    (.asked (.send endpoint response.encode) _), rfl, ?_⟩
  rw [heq]
  exact ⟨rfl, Machine.sent_record _ _,
    (Machine.arrived_record _ _).trans (List.append_nil _), rfl, rfl, rfl, rfl, rfl⟩

theorem performs_each_send (answers : List (ReplyTo × Answer)) (m : Loop κ η τ) :
    Performs w (Program.each
      (fun (dest, answer) => sendResponse dest.endpoint (answer.reply.response dest.id)) answers)
      m (.ok ()) [] (answers.map posted) m.world.bindings := by
  induction answers generalizing m with
  | nil => exact .pure () m
  | cons p rest ih =>
    have hfirst := performs_sendResponse (w := w) p.1.endpoint (p.2.reply.response p.1.id) m
    refine hfirst.bind_own fun m₁ h₁ => ?_
    rw [← h₁.bound]
    exact ih m₁

/-- Notes are no frames. -/
theorem performs_notes (notes : List LockEvent) (m : Loop κ η τ) :
    Performs w (Program.each Program.note notes) m (.ok ()) [] [] m.world.bindings := by
  induction notes generalizing m with
  | nil => exact .pure () m
  | cons n rest ih =>
    have hnote : Performs w (Program.note n) m (.ok ()) [] [] m.world.bindings :=
      ⟨_, rfl, rfl, (List.append_nil _).symm, rfl, rfl, rfl, rfl, rfl, rfl⟩
    refine hnote.bind fun m₁ h₁ => ?_
    rw [← h₁.bound]
    exact ih m₁

/-- An operation is carried out that gives no answers. -/
theorem performs_consult (op : Operation ReplyTo)
    {f : Coordinator.State ReplyTo → α × Coordinator.State ReplyTo} (m : Loop κ η τ)
    (hf : (m.world.coordinator.perform op).2 = .start (f m.world.coordinator).2) :
    Performs w (consult f) m (.ok (f m.world.coordinator).1) [op] [] m.world.bindings := by
  refine ⟨_, rfl, ?_, ?_, rfl, rfl, rfl, rfl, rfl, rfl⟩
  · show State.mk _ (f m.world.coordinator).2 _ _ = _
    rw [Coordinator.State.after_cons, hf]
    rfl
  · rw [Coordinator.State.told, hf]
    exact (List.append_nil _).symm

/-- An operation is carried out, and its answers are sent. -/
theorem performs_operate (op : Operation ReplyTo)
    {f : Coordinator.State ReplyTo → α × Turn ReplyTo} (m : Loop κ η τ)
    (hf : (f m.world.coordinator).2 = (m.world.coordinator.perform op).2) :
    Performs w (operate f) m (.ok (f m.world.coordinator).1) [op] [] m.world.bindings := by
  have hupdate : ∃ m₁, m.run w (Program.update fun s =>
      (f s.coordinator, { s with coordinator := (f s.coordinator).2.state })) =
        (.ok (f m.world.coordinator), m₁) ∧
      m₁.world = { m.world with coordinator := (f m.world.coordinator).2.state } ∧
      m₁.sent = m.sent ∧ m₁.arrived = m.arrived ∧ m₁.clock = m.clock ∧ m₁.timers = m.timers ∧
      m₁.endpoints = m.endpoints ∧ m₁.nextEndpoint = m.nextEndpoint ∧ m₁.phase = m.phase :=
    ⟨_, rfl, rfl, rfl, rfl, rfl, rfl, rfl, rfl, rfl⟩
  obtain ⟨m₁, hrun₁, hworld, hsent, harrived, hclock, htimers, hendpoints, hnext, hphase⟩ :=
    hupdate
  obtain ⟨m₂, hrun₂, h₂⟩ := performs_notes (w := w) (f m.world.coordinator).2.events m₁
  obtain ⟨m₃, hrun₃, h₃⟩ := performs_each_send (w := w) (f m.world.coordinator).2.answers m₂
  have htold : m.world.coordinator.told [op] = (f m.world.coordinator).2.answers := by
    rw [hf]
    exact List.append_nil _
  have hrest : Exactly m₁ [] ((f m.world.coordinator).2.answers.map posted) m₂.world.bindings m₃ :=
    h₂.trans h₃
  refine ⟨m₃, (Machine.run_bind_of_ok _ hrun₁).trans ((Machine.run_bind_of_ok _ hrun₂).trans
    (Machine.run_bind_of_ok _ hrun₃)), ?_, ?_, hrest.arrived.trans harrived,
    hrest.clock.trans hclock, hrest.timers.trans htimers, hrest.endpoints.trans hendpoints,
    hrest.nextEndpoint.trans hnext, hrest.phase.trans hphase⟩
  · rw [hrest.world, h₂.bound, hworld, hf]
    rfl
  · rw [hrest.sent, hsent, htold, List.append_nil]
    rfl

/-! ## Responses -/

/-- The response that tells its sender how a request went. -/
def verdict (dest : ReplyTo) : Except Fault Bytes → Nat × Wire.Response
  | .ok body => (dest.endpoint, ⟨dest.id, Wire.Response.statusOk, body⟩)
  | .error fault => (dest.endpoint, .error dest.id fault.code.toStatus fault.message)

theorem performs_report (dest : ReplyTo) (result : Except Fault Bytes) (m : Loop κ η τ) :
    Performs w (report dest result) m (.ok ()) [] [verdict dest result] m.world.bindings := by
  cases result with
  | ok body => exact performs_sendResponse _ _ m
  | error fault => exact performs_sendResponse _ _ m

theorem performs_respond (dest : ReplyTo) (body : Bytes) (m : Loop κ η τ) :
    Performs w (respond dest body) m (.ok ()) [] [verdict dest (.ok body)] m.world.bindings :=
  performs_sendResponse _ _ m

theorem performs_rejectFault (dest : ReplyTo) (fault : Fault) (m : Loop κ η τ) :
    Performs w (rejectFault dest fault) m (.ok ()) [] [verdict dest (.error fault)]
      m.world.bindings := performs_sendResponse _ _ m

/-- An operation and the report on it. -/
theorem performs_operate_report (dest : ReplyTo) (op : Operation ReplyTo)
    {f : Coordinator.State ReplyTo → α × Turn ReplyTo} (g : α → Except Fault Bytes)
    (m : Loop κ η τ) (hf : (f m.world.coordinator).2 = (m.world.coordinator.perform op).2) :
    Performs w (operate f >>= fun a => report dest (g a)) m (.ok ()) [op]
      [verdict dest (g (f m.world.coordinator).1)] m.world.bindings := by
  refine (performs_operate op m hf).bind fun m₁ h₁ => ?_
  rw [← h₁.bound]
  exact performs_report dest _ m₁

/-! ## Leases -/

theorem performs_renew (session : Nat) (m : Loop κ η τ) :
    Performs w (renew session) m (renewal (m.world.coordinator.renew session m.clock).1)
      [.renew session m.clock] [] m.world.bindings := by
  refine (performs_now m).bind fun m₁ h₁ => ?_
  have hc := performs_consult (w := w) (.renew session m.clock)
    (f := fun s => s.renew session m.clock) m₁ rfl
  rw [show m₁.world.coordinator = m.world.coordinator from h₁.coordinator, h₁.bound] at hc
  refine hc.bind fun m₂ h₂ => ?_
  rw [← h₂.bound]
  cases (m.world.coordinator.renew session m.clock).1 with
  | ok expiry => exact .pure _ m₂
  | error failure =>
    cases failure with
    | refused fault => exact .pure _ m₂
    | crashed c => exact .crash c m₂

theorem performs_createSession (m : Loop κ η τ) :
    Performs w createSession m (m.world.coordinator.createSession m.clock).1
      [.createSession m.clock] [] m.world.bindings := by
  refine (performs_now m).bind fun m₁ h₁ => ?_
  have hc := performs_consult (w := w) (.createSession m.clock)
    (f := fun s => s.createSession m.clock) m₁ rfl
  rw [show m₁.world.coordinator = m.world.coordinator from h₁.coordinator, h₁.bound] at hc
  refine hc.bind fun m₂ h₂ => ?_
  rw [← h₂.bound]
  cases (m.world.coordinator.createSession m.clock).1 with
  | ok id => exact .pure id m₂
  | error c => exact .crash c m₂

/-- As long as the clock can name the end of a lease, a new session gets the next id. -/
theorem createSession_of_timely (hm : Timely m) :
    (m.world.coordinator.createSession m.clock).1 =
      .ok m.world.coordinator.sessions.nextId := by
  have hadd := Time.add?_eq_some_iff.2 ⟨rfl, hm⟩
  unfold Coordinator.State.createSession Sessions.create
  dsimp only
  rw [hadd]

/-- Whether a lease can be renewed. -/
theorem renewal_of_timely (hm : Timely m) (session : Nat) :
    renewal (m.world.coordinator.renew session m.clock).1 =
      .ok (if Leased m.world.coordinator session m.clock then .ok ()
        else .error (.sessionExpired session)) := by
  have hadd := Time.add?_eq_some_iff.2 ⟨rfl, hm⟩
  unfold Coordinator.State.renew Sessions.renew
  dsimp only
  cases ho : m.world.coordinator.sessions.get? session with
  | none =>
    rw [if_neg fun ⟨o, h, _⟩ => Option.some_ne_none o (h.symm.trans ho)]
    rfl
  | some o =>
    dsimp only
    cases hl : o.lapsed m.clock with
    | true =>
      rw [if_pos rfl, if_neg]
      · rfl
      · rintro ⟨o', h, hnot⟩
        obtain rfl := Option.some.inj (ho.symm.trans h)
        exact Bool.false_ne_true (hnot.symm.trans hl)
    | false =>
      rw [if_neg Bool.false_ne_true, hadd, if_pos ⟨o, ho, hl⟩]
      rfl

theorem performs_renew_of_leased (hm : Timely m) (session : Nat)
    (hl : Leased m.world.coordinator session m.clock) :
    Performs w (renew session) m (.ok (.ok ())) [.renew session m.clock] [] m.world.bindings := by
  have hrenew := performs_renew (w := w) session m
  rw [renewal_of_timely hm, if_pos hl] at hrenew
  exact hrenew

/-- A lease that has ended is not renewed, and nothing is done. -/
theorem performs_renew_of_lapsed (hm : Timely m) (session : Nat)
    (hl : ¬ Leased m.world.coordinator session m.clock) :
    Performs w (renew session) m (.ok (.error (.sessionExpired session))) [] []
      m.world.bindings := by
  have hsame : m.world.coordinator.after [.renew session m.clock] = m.world.coordinator := by
    show { m.world.coordinator with
      sessions := (m.world.coordinator.sessions.renew session m.clock).2 } = m.world.coordinator
    rw [Sessions.renew_of_not_live hl]
  obtain ⟨m', hrun, h⟩ := performs_renew (w := w) session m
  rw [renewal_of_timely hm, if_neg hl] at hrun
  refine ⟨m', hrun, ?_, h.sent, h.arrived, h.clock, h.timers, h.endpoints, h.nextEndpoint,
    h.phase⟩
  rw [h.world, hsame]
  rfl

/-! ## Commands -/

/-- The operations that a command comes to, for the session that its sender stands for. -/
def steps (dest : ReplyTo) (session : Option Nat) (now : Nat) :
    Wire.Command → List (Operation ReplyTo)
  | .openSession => [.createSession now]
  | .attachSession id => [.renew id.toNat now]
  | .stats => []
  | command => (session.bind fun session => operation? dest session command).toList

theorem notBefore_steps (dest : ReplyTo) (session : Option Nat) (now : Nat) (c : Wire.Command) :
    ∀ op ∈ steps dest session now c, op.NotBefore now := by
  intro op hm
  cases c <;> cases session <;>
    first
    | (obtain rfl := List.mem_singleton.1 hm; first | exact Nat.le_refl _ | trivial)
    | cases hm

theorem notAfter_steps (dest : ReplyTo) (session : Option Nat) (now : Nat) (c : Wire.Command) :
    ∀ op ∈ steps dest session now c, op.NotAfter now := by
  intro op hm
  cases c <;> cases session <;>
    first
    | (obtain rfl := List.mem_singleton.1 hm; first | exact Nat.le_refl _ | trivial)
    | cases hm

/-- The responses to a command for a session that are no answers of the coordinator. -/
def verdicts (dest : ReplyTo) (session : Nat) (s : Coordinator.State ReplyTo) :
    Wire.Command → List (Nat × Wire.Response)
  | .open name =>
    [verdict dest ((s.openHandle session name).1.map fun handle => encodeU64 (UInt64.ofNat handle))]
  | .close handle => [verdict dest ((s.closeHandle session handle.toNat).1.map fun _ => [])]
  | .lock _ => []
  | .release handle => [verdict dest ((s.release session handle.toNat).1.map fun _ => [])]
  | .cancelLock handle =>
    [verdict dest (.ok [if (s.cancel session handle.toNat).1 then 1 else 0])]
  | .closeSession => [verdict dest ((s.closeSession session).1.map fun _ => [])]
  | _ => [verdict dest (.ok [])]

/-- The response to a command for a session whose sender stands for none. -/
def sessionless (dest : ReplyTo) : Nat × Wire.Response :=
  (dest.endpoint, .error dest.id FaultCode.sessionExpired.toStatus
    "no session bound to this connection")

/-- The responses to a command that are no answers of the coordinator. -/
def State.responses (s : State) (dest : ReplyTo) (session : Option Nat) (now : Nat) :
    Wire.Command → List (Nat × Wire.Response)
  | .openSession =>
    [verdict dest (.ok (Wire.SessionGrant.mk (UInt64.ofNat s.coordinator.sessions.nextId)
      (UInt64.ofNat (Time.toMillis s.config.lease))).encode)]
  | .attachSession id =>
    [verdict dest (if Leased s.coordinator id.toNat now then .ok []
      else .error (.sessionExpired id.toNat))]
  | .stats => [verdict dest (.ok (Utf8.encode s.coordinator.snapshot.text))]
  | command =>
    match session with
    | some session => verdicts dest session s.coordinator command
    | none => [sessionless dest]

/-- The bindings after a command. -/
def State.rebound (s : State) (endpoint : Nat) (session : Option Nat) (now : Nat) :
    Wire.Command → Table Nat
  | .openSession => s.bindings.insert endpoint s.coordinator.sessions.nextId
  | .attachSession id =>
    if Leased s.coordinator id.toNat now then s.bindings.insert endpoint id.toNat else s.bindings
  | .closeSession => if session.isSome then s.bindings.erase endpoint else s.bindings
  | _ => s.bindings

theorem performs_executeFor (dest : ReplyTo) (session : Nat) {command : Wire.Command}
    (hc : command.needsSession = true) (m : Loop κ η τ) :
    Performs w (executeFor dest session command) m (.ok ())
      (steps dest (some session) m.clock command)
      (verdicts dest session m.world.coordinator command)
      (m.world.rebound dest.endpoint (some session) m.clock command) := by
  cases command with
  | «open» name =>
    have hconsult := performs_consult (w := w) (.openHandle session name)
      (f := fun s => s.openHandle session name) m rfl
    refine hconsult.bind fun m₁ h₁ => ?_
    have hreport := performs_report (w := w) dest
      ((m.world.coordinator.openHandle session name).1.map fun handle =>
        encodeU64 (UInt64.ofNat handle)) m₁
    rw [h₁.bound] at hreport
    exact hreport
  | close handle =>
    exact performs_operate_report dest (.closeHandle session handle.toNat)
      (f := fun s => s.closeHandle session handle.toNat) (fun a => a.map fun _ => []) m rfl
  | lock payload =>
    refine (performs_operate (.dispatch session payload dest)
      (f := fun s => s.dispatch session payload dest) m rfl).bind fun m₁ h₁ => ?_
    show Performs w (Pure.pure ()) m₁ _ [] [] m.world.bindings
    rw [← h₁.bound]
    exact .pure () m₁
  | release handle =>
    exact performs_operate_report dest (.release session handle.toNat)
      (f := fun s => s.release session handle.toNat) (fun a => a.map fun _ => []) m rfl
  | cancelLock handle =>
    exact performs_operate_report dest (.cancel session handle.toNat)
      (f := fun s => s.cancel session handle.toNat)
      (fun any => .ok [if any then 1 else 0]) m rfl
  | closeSession =>
    refine (performs_change (fun s => s.unbind dest.endpoint) m rfl).bind fun m₁ h₁ => ?_
    have hclose := performs_operate_report (w := w) dest (.closeSession session)
      (f := fun s => s.closeSession session)
      (fun a : Except Fault Unit => a.map fun _ => []) m₁ rfl
    rw [h₁.coordinator, h₁.bound] at hclose
    exact hclose
  | keepAlive => exact performs_respond dest [] m
  | openSession | attachSession | stats => cases hc

/-- What has been done to the state makes no difference for what is done with a lease. -/
theorem Exactly.timely (h : Exactly m [] own bindings m') (hm : Timely m) : Timely m' := by
  unfold Timely
  rw [h.clock, h.coordinator]
  exact hm

/-- A command that needs a session. -/
theorem performs_needing (dest : ReplyTo) (session : Option Nat) {c : Wire.Command}
    (hc : c.needsSession = true) (m : Loop κ η τ) :
    Performs w (match session with
      | some session => executeFor dest session c
      | none => reject dest .sessionExpired "no session bound to this connection") m (.ok ())
      (session.bind fun session => operation? dest session c).toList
      (match session with
        | some session => verdicts dest session m.world.coordinator c
        | none => [sessionless dest])
      (m.world.rebound dest.endpoint session m.clock c) := by
  cases session with
  | some session =>
    have hfor := performs_executeFor (w := w) dest session hc m
    cases c <;> first | exact hfor | cases hc
  | none =>
    have hreject := performs_sendResponse (w := w) dest.endpoint
      (.error dest.id FaultCode.sessionExpired.toStatus "no session bound to this connection") m
    cases c <;> first | exact hreject | cases hc

theorem performs_openSession (dest : ReplyTo) (session : Option Nat) (hm : Timely m) :
    Performs w (execute dest session .openSession) m (.ok ())
      (steps dest session m.clock .openSession)
      (m.world.responses dest session m.clock .openSession)
      (m.world.rebound dest.endpoint session m.clock .openSession) := by
  have hcreate := performs_createSession (w := w) m
  rw [createSession_of_timely hm] at hcreate
  refine hcreate.bind fun m₁ h₁ => ?_
  refine (performs_change (fun s => s.bind dest.endpoint m.world.coordinator.sessions.nextId)
    m₁ rfl).bind fun m₂ h₂ => (performs_world m₂).bind fun m₃ h₃ => ?_
  have hrespond := performs_respond (w := w) dest
    (Wire.SessionGrant.mk (UInt64.ofNat m.world.coordinator.sessions.nextId)
      (UInt64.ofNat (Time.toMillis m₂.world.config.lease))).encode m₃
  have hconfig : m₂.world.config = m.world.config := by rw [h₂.world, h₁.world]
  rw [h₃.bound, h₂.bound, h₁.bound] at hrespond
  show Performs w (respond dest (Wire.SessionGrant.mk _
    (UInt64.ofNat (Time.toMillis m₂.world.config.lease))).encode) m₃ _ _ _ _
  rw [hconfig] at hrespond ⊢
  exact hrespond

theorem performs_attachSession (dest : ReplyTo) (session : Option Nat) (id : UInt64)
    (hm : Timely m) :
    Performs w (execute dest session (.attachSession id)) m (.ok ())
      (steps dest session m.clock (.attachSession id))
      (m.world.responses dest session m.clock (.attachSession id))
      (m.world.rebound dest.endpoint session m.clock (.attachSession id)) := by
  have hrenew := performs_renew (w := w) id.toNat m
  rw [renewal_of_timely hm] at hrenew
  refine hrenew.bind fun m₁ h₁ => ?_
  by_cases hl : Leased m.world.coordinator id.toNat m.clock
  · rw [if_pos hl]
    refine (performs_change (fun s => s.bind dest.endpoint id.toNat) m₁ rfl).bind
      fun m₂ h₂ => ?_
    have hrespond := performs_respond (w := w) dest [] m₂
    rw [h₂.bound, h₁.bound] at hrespond
    show Performs w _ m₂ _ _ [verdict dest (if _ then _ else _)] (if _ then _ else _)
    rw [if_pos hl, if_pos hl]
    exact hrespond
  · have hreject := performs_rejectFault (w := w) dest (.sessionExpired id.toNat) m₁
    rw [h₁.bound] at hreject
    show Performs w _ m₁ _ _ [verdict dest (if _ then _ else _)] (if _ then _ else _)
    rw [if_neg hl, if_neg hl, if_neg hl]
    exact hreject

/-- A command whose sender stands for a session, or for none. -/
theorem performs_execute (dest : ReplyTo) (session : Option Nat) (command : Wire.Command)
    (hm : Timely m) :
    Performs w (execute dest session command) m (.ok ()) (steps dest session m.clock command)
      (m.world.responses dest session m.clock command)
      (m.world.rebound dest.endpoint session m.clock command) := by
  cases command with
  | openSession => exact performs_openSession dest session hm
  | attachSession id => exact performs_attachSession dest session id hm
  | stats =>
    refine (performs_world m).bind fun m₁ h₁ => ?_
    have hrespond := performs_respond (w := w) dest
      (Utf8.encode m.world.coordinator.snapshot.text) m₁
    rw [h₁.bound] at hrespond
    exact hrespond
  | «open» | close | lock | release | cancelLock | keepAlive | closeSession =>
    exact performs_needing dest session rfl m

/-! ## Commands over connections -/

/-- The state once the lease of a session has been renewed. -/
def State.renewed (s : State) (session now : Nat) : State :=
  { s with coordinator := s.coordinator.after [.renew session now] }

/-- Over a connection that is not bound. -/
theorem performs_onCommand_of_unbound (dest : ReplyTo) (command : Wire.Command) (hm : Timely m)
    (hs : m.world.sessionFor dest.endpoint = none) :
    Performs w (onCommand dest command) m (.ok ()) (steps dest none m.clock command)
      (m.world.responses dest none m.clock command)
      (m.world.rebound dest.endpoint none m.clock command) := by
  refine (performs_world m).bind fun m₁ h₁ => ?_
  have hworld : m₁.world = m.world := h₁.world
  rw [hs, ← hworld, ← h₁.clock]
  exact performs_execute dest none command (h₁.timely hm)

/-- Over a connection that is bound to a session which has its lease. -/
theorem performs_onCommand_of_leased (dest : ReplyTo) (command : Wire.Command) (hm : Timely m)
    {session : Nat} (hs : m.world.sessionFor dest.endpoint = some session)
    (hl : Leased m.world.coordinator session m.clock) :
    Performs w (onCommand dest command) m (.ok ())
      (.renew session m.clock :: steps dest (some session) m.clock command)
      ((m.world.renewed session m.clock).responses dest (some session) m.clock command)
      ((m.world.renewed session m.clock).rebound dest.endpoint (some session) m.clock command) := by
  refine (performs_world m).bind fun m₁ h₁ => ?_
  have hworld₁ : m₁.world = m.world := h₁.world
  have hrenew := performs_renew_of_leased (w := w) (h₁.timely hm) session
    (by rwa [hworld₁, h₁.clock])
  rw [h₁.clock, hworld₁] at hrenew
  rw [hs]
  show Performs w _ m₁ _ ([.renew session m.clock] ++ steps dest (some session) m.clock command) _ _
  refine hrenew.bind fun m₂ h₂ => ?_
  have hworld : m₂.world = m.world.renewed session m.clock := by
    rw [h₂.world, hworld₁]
    rfl
  have hclock : m₂.clock = m.clock := h₂.clock.trans h₁.clock
  have hm₂ : Timely m₂ := by
    unfold Timely
    rw [hclock, hworld]
    exact lt_of_eq_of_lt (congrArg (m.clock + ·) (Coordinator.State.lease_after _ _)) hm
  have hexecute := performs_execute (w := w) dest (some session) command hm₂
  rw [hworld, hclock] at hexecute
  exact hexecute

/-- Over a connection whose session has no lease any more: the binding is forgotten. -/
theorem performs_onCommand_of_lapsed (dest : ReplyTo) (command : Wire.Command) (hm : Timely m)
    {session : Nat} (hs : m.world.sessionFor dest.endpoint = some session)
    (hl : ¬ Leased m.world.coordinator session m.clock) :
    Performs w (onCommand dest command) m (.ok ()) (steps dest none m.clock command)
      (if command.needsSession then [verdict dest (.error (.sessionExpired session))]
        else (m.world.unbind dest.endpoint).responses dest none m.clock command)
      ((m.world.unbind dest.endpoint).rebound dest.endpoint none m.clock command) := by
  refine (performs_world m).bind fun m₁ h₁ => ?_
  have hworld₁ : m₁.world = m.world := h₁.world
  have hrenew := performs_renew_of_lapsed (w := w) (h₁.timely hm) session
    (by rwa [hworld₁, h₁.clock])
  rw [hs]
  refine hrenew.bind fun m₂ h₂ => ?_
  refine (performs_change (fun s => s.unbind dest.endpoint) m₂ rfl).bind fun m₃ h₃ => ?_
  have hworld : m₃.world = m.world.unbind dest.endpoint := by
    rw [h₃.world, h₂.world, hworld₁]
    rfl
  have hclock : m₃.clock = m.clock := h₃.clock.trans (h₂.clock.trans h₁.clock)
  split
  · rename_i hneeds
    have hreject := performs_rejectFault (w := w) dest (.sessionExpired session) m₃
    rw [hworld] at hreject
    cases command <;> first | exact hreject | cases hneeds
  · have hexecute := performs_execute (w := w) dest none command
      (h₃.timely (h₂.timely (h₁.timely hm)))
    rw [hworld, hclock] at hexecute
    exact hexecute

/-! ## Frames -/

/-- A frame that holds a command is carried out. -/
theorem onFrame_of_command {endpoint : Nat} {payload : Bytes} {command : Wire.Command}
    (hc : command? payload = some command) :
    (onFrame endpoint payload : Activity κ η Unit) =
      onCommand (origin endpoint payload) command := by
  unfold command? at hc
  unfold onFrame origin
  cases hr : Wire.Request.decode payload with
  | error fault =>
    rw [hr] at hc
    cases hc
  | ok request =>
    rw [hr] at hc
    dsimp only at hc ⊢
    cases hd : Wire.Command.decode request.command request.body with
    | error fault =>
      rw [hd] at hc
      cases hc
    | ok decoded =>
      rw [hd] at hc
      obtain rfl : decoded = some command := hc
      rfl

/-- The response to a frame that holds none. -/
def refusal (payload : Bytes) : Wire.Response :=
  match Wire.Request.decode payload with
  | .error fault => .error 0 fault.code.toStatus fault.message
  | .ok request =>
    match Wire.Command.decode request.command request.body with
    | .error fault => .error request.id fault.code.toStatus fault.message
    | .ok _ =>
      .error request.id FaultCode.unknownCommand.toStatus s!"unknown command {request.command}"

theorem performs_refusal (endpoint : Nat) {payload : Bytes} (m : Loop κ η τ)
    (hc : command? payload = none) : Performs w (onFrame endpoint payload) m (.ok ()) []
      [(endpoint, refusal payload)] m.world.bindings := by
  unfold command? at hc
  unfold onFrame refusal
  cases hr : Wire.Request.decode payload with
  | error fault => exact performs_rejectFault ⟨endpoint, 0⟩ fault m
  | ok request =>
    rw [hr] at hc
    dsimp only at hc ⊢
    cases hd : Wire.Command.decode request.command request.body with
    | error fault => exact performs_rejectFault ⟨endpoint, request.id⟩ fault m
    | ok decoded =>
      rw [hd] at hc
      obtain rfl : decoded = none := hc
      exact performs_sendResponse endpoint _ m

/-- A frame that holds none is refused. -/
theorem performs_onFrame_of_none (endpoint : Nat) {payload : Bytes} (m : Loop κ η τ)
    (hc : command? payload = none) : ∃ response, Performs w (onFrame endpoint payload) m (.ok ())
      [] [(endpoint, response)] m.world.bindings := ⟨_, performs_refusal endpoint m hc⟩

/-! ## Lapsed leases -/

/-- The sessions whose lease has ended are ended, and the bindings to them are forgotten. -/
theorem performs_expireSessions (now : Nat) (m : Loop κ η τ) :
    Performs w (expireSessions now) m (.ok (m.world.coordinator.expire now).1) [.expire now] []
      (m.world.unbindAll (m.world.coordinator.expire now).1).bindings := by
  refine (performs_operate (.expire now) (f := fun s => s.expire now) m rfl).bind fun m₁ h₁ => ?_
  refine (performs_change (fun s => s.unbindAll (m.world.coordinator.expire now).1) m₁ rfl).bind
    fun m₂ h₂ => ?_
  have hbound : m₂.world.bindings =
      (m.world.unbindAll (m.world.coordinator.expire now).1).bindings := by
    rw [h₂.bound, h₁.bound]
    rfl
  rw [← hbound]
  exact .pure _ m₂

/-- The next look for lapsed leases is scheduled. -/
theorem run_scheduleSweep (self : η) {m : Loop κ η τ}
    (htime : m.clock + m.world.sweepInterval < Time.limit) :
    ∃ queue trace, m.run w (scheduleSweep self) = (.ok (), { m with
      timers := (m.timers.prune.schedule (m.clock + m.world.sweepInterval) self).2
      world := { m.world with sweepTimer := some m.timers.nextId }
      queue, trace }) := by
  obtain ⟨trace₁, hworld⟩ := m.run_world_eq (w := w)
  obtain ⟨queue, trace₂, hschedule⟩ := Machine.run_scheduleAfter (w := w)
    (m := { m with trace := trace₁ }) htime self
  unfold scheduleSweep
  rw [Machine.run_bind_of_ok _ hworld, Machine.run_bind_of_ok _ hschedule]
  exact ⟨queue, _, rfl⟩

/-- If the clock cannot name the next instant, there is no next look, and that is all. -/
theorem run_scheduleSweep_of_late (self : η) {m : Loop κ η τ}
    (htime : ¬ m.clock + m.world.sweepInterval < Time.limit) :
    ∃ trace, m.run w (scheduleSweep self) = (.error .instantOverflow, { m with trace }) := by
  obtain ⟨trace₁, hworld⟩ := m.run_world_eq (w := w)
  obtain ⟨trace₂, hschedule⟩ := Machine.run_scheduleAfter_of_late (w := w)
    (m := { m with trace := trace₁ }) htime self
  unfold scheduleSweep
  rw [Machine.run_bind_of_ok _ hworld, Machine.run_bind_of_error _ hschedule]
  exact ⟨trace₂, rfl⟩

/-- A look for lapsed leases ends the lapsed sessions, and then schedules the next look. -/
theorem run_sweep (self : η) (m : Loop κ η τ) :
    ∃ m', m.run w (sweep self) = m'.run w (scheduleSweep self) ∧
      Exactly m [.expire m.clock] []
        (m.world.unbindAll (m.world.coordinator.expire m.clock).1).bindings m' := by
  obtain ⟨m₁, hrun₁, h₁⟩ := performs_now (w := w) m
  obtain ⟨m₂, hrun₂, h₂⟩ := performs_expireSessions (w := w) m.clock m₁
  rw [show m₁.world = m.world from h₁.world] at h₂
  unfold sweep
  rw [Machine.run_bind_of_ok _ hrun₁, Machine.run_bind_of_ok _ hrun₂]
  exact ⟨m₂, rfl, h₁.trans h₂⟩

end LeaseLock.Service
