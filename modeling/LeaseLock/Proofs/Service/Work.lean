import LeaseLock.Proofs.Coordinator.Bid
import LeaseLock.Proofs.Reactor
import LeaseLock.Server
import Mathlib.Data.List.Perm.Subperm

/-
  LeaseLock: what a handler of the lock service does.
  `Carries m ops own m'` says that the event loop gets from `m` to `m'` with the operations `ops`
  of the coordinator; what comes out of it are answers that these operations give, and the
  responses `own`.  `Work` adds what a handler leaves alone.  `Does` says so of a program together
  with its result; it goes through sequences (`Does.bind`), so that each program of the service gets
  one rule.
-/

namespace LeaseLock

open Reactor Coordinator Service

/-- The event loop of a lock server. -/
abbrev Server.Loop := Machine Unit Unit Service.State (List (Nat × Bytes)) LockEvent

namespace Service

/-! ## Frames -/

/-- The response that carries an answer, with its endpoint. -/
def posted (p : ReplyTo × Answer) : Nat × Wire.Response :=
  (p.1.endpoint, p.2.reply.response p.1.id)

/-- The address of a response. -/
def address (p : Nat × Wire.Response) : ReplyTo := ⟨p.1, p.2.id⟩

/-- The frame of a response, with its endpoint. -/
def frame (p : Nat × Wire.Response) : Nat × Bytes := (p.1, p.2.encode)

theorem address_posted (p : ReplyTo × Answer) : address (posted p) = p.1 := by
  obtain ⟨⟨endpoint, id⟩, a⟩ := p
  cases a <;> rfl

/-! ## Work -/

/-- The coordinator has carried out operations.  What is sent are their answers, and responses of
the service's own. -/
structure Carries (m : Server.Loop) (ops : List (Operation ReplyTo))
    (own : List (Nat × Wire.Response)) (m' : Server.Loop) : Prop where
  coordinator : m'.world.coordinator = m.world.coordinator.after ops
  links : ∃ out, m'.links = m.links ++ out ∧
    out.Subperm (((m.world.coordinator.told ops).map posted ++ own).map frame)

/-- The loop has carried out operations of the coordinator, in no time, and has made no
endpoint. -/
structure Work (m : Server.Loop) (ops : List (Operation ReplyTo)) (own : List (Nat × Wire.Response))
    (m' : Server.Loop) : Prop extends Carries m ops own m' where
  clock : m'.clock = m.clock
  endpoints : ∀ e x, m'.endpoints.get? e = some x → m.endpoints.get? e = some x
  nextEndpoint : m'.nextEndpoint = m.nextEndpoint

variable {m m' m'' : Server.Loop} {ops ops' : List (Operation ReplyTo)}
  {own own' : List (Nat × Wire.Response)}

namespace Work

/-- Nothing that concerns the coordinator is done. -/
theorem of_same (hclock : m'.clock = m.clock)
    (hendpoints : ∀ e x, m'.endpoints.get? e = some x → m.endpoints.get? e = some x)
    (hnext : m'.nextEndpoint = m.nextEndpoint)
    (hcoordinator : m'.world.coordinator = m.world.coordinator) (hlinks : m'.links = m.links) :
    Work m [] [] m' where
  clock := hclock
  endpoints := hendpoints
  nextEndpoint := hnext
  coordinator := hcoordinator
  links := ⟨[], by rw [hlinks, List.append_nil], List.nil_subperm⟩

theorem of_traced (ht : m.Traced m') : Work m [] [] m' :=
  of_same ht.clock (fun _ _ hx => ht.endpoints ▸ hx) ht.nextEndpoint
    (congrArg State.coordinator ht.world) ht.links

theorem coordinator_eq (hw : Work m [] own m') :
    m'.world.coordinator = m.world.coordinator := hw.coordinator

theorem trans (hw : Work m ops own m') (hw' : Work m' ops' own' m'') :
    Work m (ops ++ ops') (own ++ own') m'' where
  clock := hw'.clock.trans hw.clock
  endpoints := fun e x hx => hw.endpoints e x (hw'.endpoints e x hx)
  nextEndpoint := hw'.nextEndpoint.trans hw.nextEndpoint
  coordinator := by rw [hw'.coordinator, hw.coordinator, State.after_append]
  links := by
    obtain ⟨out, heq, hout⟩ := hw.links
    obtain ⟨out', heq', hout'⟩ := hw'.links
    rw [hw.coordinator] at hout'
    refine ⟨out ++ out', by rw [heq', heq, List.append_assoc], (hout.append hout').trans ?_⟩
    rw [State.told_append, ← List.map_append]
    refine (List.Perm.map _ ?_).subperm
    rw [List.map_append, List.append_assoc, List.append_assoc]
    refine List.Perm.append_left _ ?_
    rw [← List.append_assoc, ← List.append_assoc]
    exact List.perm_append_comm.append_right _

end Work

/-! ## Programs -/

variable {α β : Type} {r : Except Crash α}

/-- A program, started in the loop `m`, carries out operations and comes to a result. -/
def Does (p : Activity Unit Unit α) (m : Server.Loop) (ops : List (Operation ReplyTo))
    (own : List (Nat × Wire.Response)) (r : Except Crash α) : Prop :=
  ∃ m', m.run Server.wiring p = (r, m') ∧ Work m ops own m'

namespace Does

theorem pure (a : α) (m : Server.Loop) : Does (Pure.pure a) m [] [] (.ok a) :=
  ⟨m, rfl, .of_same rfl (fun _ _ hx => hx) rfl rfl rfl⟩

theorem crash (c : Crash) (m : Server.Loop) :
    Does (.crash c : Activity Unit Unit α) m [] [] (.error c) :=
  ⟨m, rfl, .of_same rfl (fun _ _ hx => hx) rfl rfl rfl⟩

/-- One program after another. -/
theorem bind {p : Activity Unit Unit α} {f : α → Activity Unit Unit β} {a : α}
    {r : Except Crash β} (hp : Does p m ops own (.ok a))
    (hf : ∀ m', Work m ops own m' → Does (f a) m' ops' own' r) :
    Does (p >>= f) m (ops ++ ops') (own ++ own') r := by
  obtain ⟨m', hrun, hw⟩ := hp
  obtain ⟨m'', hrun', hw'⟩ := hf m' hw
  exact ⟨m'', (Machine.run_bind_of_ok f hrun).trans hrun', hw.trans hw'⟩

/-- A program that does nothing to the coordinator comes first. -/
theorem bind_first {p : Activity Unit Unit α} {f : α → Activity Unit Unit β} {a : α}
    {r : Except Crash β} (hp : Does p m [] [] (.ok a))
    (hf : ∀ m', Work m [] [] m' → Does (f a) m' ops own r) : Does (p >>= f) m ops own r :=
  hp.bind hf

/-- A program that does nothing to the coordinator comes last. -/
theorem bind_last {p : Activity Unit Unit α} {f : α → Activity Unit Unit β} {a : α}
    {r : Except Crash β} (hp : Does p m ops own (.ok a))
    (hf : ∀ m', Work m ops own m' → Does (f a) m' [] [] r) : Does (p >>= f) m ops own r := by
  have hall := hp.bind hf
  rw [List.append_nil, List.append_nil] at hall
  exact hall

/-- What follows a crash is not done. -/
theorem bind_error {p : Activity Unit Unit α} {f : α → Activity Unit Unit β} {c : Crash}
    (hp : Does p m ops own (.error c)) : Does (p >>= f) m ops own (.error c) := by
  obtain ⟨m', hrun, hw⟩ := hp
  exact ⟨m', Machine.run_bind_of_error f hrun, hw⟩

/-- Whatever comes of the first program, what follows does nothing to the coordinator. -/
theorem bind_any {p : Activity Unit Unit α} {f : α → Activity Unit Unit β}
    (hp : ∃ r, Does p m ops own r)
    (hf : ∀ a m', Work m ops own m' → ∃ r, Does (f a) m' [] [] r) :
    ∃ r, Does (p >>= f) m ops own r := by
  obtain ⟨r, hp⟩ := hp
  cases r with
  | error c => exact ⟨_, hp.bind_error⟩
  | ok a =>
    obtain ⟨m', hrun, hw⟩ := hp
    obtain ⟨r, m'', hrun', hw'⟩ := hf a m' hw
    have hall := hw.trans hw'
    rw [List.append_nil, List.append_nil] at hall
    exact ⟨r, m'', (Machine.run_bind_of_ok f hrun).trans hrun', hall⟩

/-- A program that only reads something. -/
theorem of_traced {p : Activity Unit Unit α} (hp : ∃ m', m.run Server.wiring p = (r, m') ∧
    m.Traced m') : Does p m [] [] r := by
  obtain ⟨m', hrun, ht⟩ := hp
  exact ⟨m', hrun, .of_traced ht⟩

end Does

theorem does_now (m : Server.Loop) : Does Program.now m [] [] (.ok m.clock) :=
  .of_traced m.run_now

theorem does_world (m : Server.Loop) : Does Program.world m [] [] (.ok m.world) :=
  .of_traced m.run_world

/-- Bindings and timers are no concern of the coordinator. -/
theorem does_change (f : State → State) (m : Server.Loop)
    (hf : (f m.world).coordinator = m.world.coordinator) : Does (change f) m [] [] (.ok ()) := by
  obtain ⟨m', hrun, ht⟩ := m.run_update (w := Server.wiring) fun s => ((), f s)
  refine ⟨m', hrun, ?_⟩
  exact .of_same ht.clock (fun _ _ hx => ht.endpoints ▸ hx) ht.nextEndpoint
    ((congrArg State.coordinator ht.world).trans hf) ht.links

theorem send_cases (endpoint : Nat) (bytes : Bytes) (m : Server.Loop) :
    (m.send Server.wiring endpoint bytes).2 = m ∨
      (m.send Server.wiring endpoint bytes).2 =
        { m with links := m.links ++ [(endpoint, bytes)] } := by
  unfold Machine.send
  split
  · exact .inl rfl
  · exact .inr rfl

/-- A response is sent, unless the endpoint is gone. -/
theorem does_sendResponse (endpoint : Nat) (r : Wire.Response) (m : Server.Loop) :
    Does (sendResponse endpoint r) m [] [(endpoint, r)] (.ok ()) := by
  refine ⟨(m.send Server.wiring endpoint r.encode).2.record (.asked (.send endpoint r.encode) _),
    rfl, ?_⟩
  rcases send_cases endpoint r.encode m with heq | heq
  · rw [heq]
    exact ⟨⟨rfl, [], (List.append_nil _).symm, List.nil_subperm⟩, rfl, fun _ _ hx => hx, rfl⟩
  · rw [heq]
    exact ⟨⟨rfl, _, rfl, .refl _⟩, rfl, fun _ _ hx => hx, rfl⟩

theorem does_each_send (posts : List (ReplyTo × Answer)) (m : Server.Loop) :
    Does (Program.each
      (fun (dest, answer) => sendResponse dest.endpoint (answer.reply.response dest.id)) posts)
      m [] (posts.map posted) (.ok ()) := by
  induction posts generalizing m with
  | nil => exact .pure () m
  | cons p rest ih =>
    exact (does_sendResponse p.1.endpoint (p.2.reply.response p.1.id) m).bind fun m' _ => ih m'

/-- An operation is carried out, and its answers are sent. -/
theorem does_operate (op : Operation ReplyTo)
    {f : Coordinator.State ReplyTo → α × Turn ReplyTo} (m : Server.Loop)
    (hf : (f m.world.coordinator).2 = (m.world.coordinator.perform op).2) :
    Does (operate f) m [op] [] (.ok (f m.world.coordinator).1) := by
  obtain ⟨m₁, hrun₁, ht₁⟩ := m.run_update (w := Server.wiring) fun s =>
    (f s.coordinator, { s with coordinator := (f s.coordinator).2.state })
  obtain ⟨m₂, hrun₂, ht₂⟩ :=
    m₁.run_each_note (w := Server.wiring) (f m.world.coordinator).2.events
  obtain ⟨m₃, hrun₃, hw⟩ := does_each_send (f m.world.coordinator).2.answers m₂
  have hrun : m.run Server.wiring (operate f) = (.ok (f m.world.coordinator).1, m₃) :=
    (Machine.run_bind_of_ok _ hrun₁).trans ((Machine.run_bind_of_ok _ hrun₂).trans
      (Machine.run_bind_of_ok _ hrun₃))
  have htold : m.world.coordinator.told [op] = (f m.world.coordinator).2.answers := by
    rw [hf]
    exact List.append_nil _
  refine ⟨m₃, hrun, ⟨?_, ?_⟩, hw.clock.trans (ht₂.clock.trans ht₁.clock),
    fun e x hx => (ht₂.endpoints.trans ht₁.endpoints) ▸ hw.endpoints e x hx,
    hw.nextEndpoint.trans (ht₂.nextEndpoint.trans ht₁.nextEndpoint)⟩
  · rw [hw.coordinator, ht₂.world, ht₁.world]
    exact congrArg Turn.state hf
  · obtain ⟨out, heq, hout⟩ := hw.links
    refine ⟨out, heq.trans (congrArg (· ++ out) (ht₂.links.trans ht₁.links)), ?_⟩
    rw [htold, List.append_nil]
    exact hout

/-- An operation is carried out that gives no answers. -/
theorem does_consult (op : Operation ReplyTo)
    {f : Coordinator.State ReplyTo → α × Coordinator.State ReplyTo} (m : Server.Loop)
    (hf : (f m.world.coordinator).2 = (m.world.coordinator.perform op).2.state) :
    Does (consult f) m [op] [] (.ok (f m.world.coordinator).1) := by
  obtain ⟨m', hrun, ht⟩ := m.run_update (w := Server.wiring) fun s =>
    ((f s.coordinator).1, { s with coordinator := (f s.coordinator).2 })
  refine ⟨m', hrun, ⟨?_, [], ?_, List.nil_subperm⟩, ht.clock,
    fun _ _ hx => ht.endpoints ▸ hx, ht.nextEndpoint⟩
  · exact (congrArg State.coordinator ht.world).trans hf
  · rw [ht.links, List.append_nil]

end Service

end LeaseLock
