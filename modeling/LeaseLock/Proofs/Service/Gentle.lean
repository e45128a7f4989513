import LeaseLock.Proofs.Reactor.Pace
import LeaseLock.Proofs.Service.Effect
import LeaseLock.Proofs.TimerQueue

/-
  LeaseLock: what leaves the service's timer alone.
  `Apart me floor m m'` says that between two states of the loop the service's timers are as they
  were, and that no lease was started earlier than at the instant `floor`.  Others keep to that with
  every request (`Considerate`), and the service itself does as long as it handles a frame or the end
  of a connection.  Its programs are overtaken, and read a clock that moves; so what they keep to is
  said of the program that is left, whatever it is answered (`Gentle`), and holds pace by pace
  (`Gentle.pace`).
-/

namespace LeaseLock.Service

open Reactor Coordinator

variable {κ η τ α β : Type} {w : Wiring κ η State τ LockEvent} {me : η} {m m' : Loop κ η τ}
  {floor floor' : Nat}

/-! ## Changes -/

/-- The settings and the timer are the same; the coordinator has carried out operations that start
leases no earlier than at `floor`. -/
structure State.Goes (s : State) (floor : Nat) (s' : State) : Prop where
  config : s'.config = s.config
  sweepTimer : s'.sweepTimer = s.sweepTimer
  ops : ∃ ops : List (Operation ReplyTo), (∀ op ∈ ops, op.NotBefore floor) ∧
    s'.coordinator = s.coordinator.after ops

namespace State.Goes

variable {s s' : State}

theorem refl (s : State) (floor : Nat) : s.Goes floor s := ⟨rfl, rfl, [], nofun, rfl⟩

theorem mono (h : s.Goes floor s') (hle : floor' ≤ floor) : s.Goes floor' s' := by
  obtain ⟨ops, hops, hcoordinator⟩ := h.ops
  exact ⟨h.config, h.sweepTimer, ops, fun op hm => (hops op hm).mono hle, hcoordinator⟩

theorem sweepInterval (h : s.Goes floor s') : s'.sweepInterval = s.sweepInterval := by
  unfold State.sweepInterval
  rw [h.config]

end State.Goes

/-- The service's timers are the same, and its state has gone on. -/
structure Apart (me : η) (floor : Nat) (m m' : Loop κ η τ) : Prop where
  clock : m.clock ≤ m'.clock
  world : m.world.Goes floor m'.world
  wf : m'.timers.Wf
  pending : ∀ id deadline, m'.timers.Pending id deadline me ↔ m.timers.Pending id deadline me

namespace Apart

theorem mono (h : Apart me floor m m') (hle : floor' ≤ floor) : Apart me floor' m m' where
  clock := h.clock
  world := h.world.mono hle
  wf := h.wf
  pending := h.pending

/-- Neither the timers nor the clock change. -/
theorem of_timers (hq : m.timers.Wf) (hworld : m.world.Goes floor m'.world)
    (hclock : m'.clock = m.clock) (htimers : m'.timers = m.timers) : Apart me floor m m' where
  clock := Nat.le_of_eq hclock.symm
  world := hworld
  wf := htimers ▸ hq
  pending := fun id deadline => by rw [htimers]

/-- Neither the timers nor the state nor the clock change. -/
theorem of_same (hq : m.timers.Wf) (hclock : m'.clock = m.clock) (hworld : m'.world = m.world)
    (htimers : m'.timers = m.timers) : Apart me floor m m' :=
  .of_timers hq (hworld ▸ .refl _ _) hclock htimers

end Apart

/-! ## Requests of others -/

/-- What others may ask of the loop: they neither schedule timers of the service nor cancel its own,
and they change its state only by operations of the coordinator, which start leases no earlier than
the clock shows. -/
def Considerate (me : η) (m : Loop κ η τ) : Request κ η State LockEvent → Prop
  | .schedule _ handler => handler ≠ me
  | .cancel timer => m.timers.live.get? timer ≠ some me
  | .remember s => m.world.Goes m.clock s
  | _ => True

/-- A frame is sent, whatever becomes of it. -/
theorem apart_send (hq : m.timers.Wf) (endpoint : Nat) (frame : Bytes) :
    Apart me floor m (m.perform w (.send endpoint frame)).2 := by
  obtain ⟨links, queue, heq⟩ := m.send_eq (w := w) endpoint frame
  have hm : (m.perform w (.send endpoint frame)).2 =
      { m with links, queue }.record (.asked (.send endpoint frame) (m.send w endpoint frame).1) :=
    congrArg (Machine.record · _) heq
  rw [hm]
  exact .of_same hq rfl rfl rfl

/-- A considerate request leaves the service's timer alone. -/
theorem apart_perform (hq : m.timers.Wf) {r : Request κ η State LockEvent}
    (hr : Considerate me m r) : Apart me m.clock m (m.perform w r).2 := by
  cases r with
  | send endpoint frame => exact apart_send hq endpoint frame
  | deliver event =>
    obtain ⟨queue, heq⟩ := m.deliver_eq event
    have hm : (m.perform w (.deliver event)).2 =
        { m with queue }.record (.asked (.deliver event) (m.deliver event).1) :=
      congrArg (Machine.record · _) heq
    rw [hm]
    exact .of_same hq rfl rfl rfl
  | schedule deadline handler =>
    have hanswered := m.traced_schedule deadline handler
    have hpruned := m.timers.trimmed_prune
    have hwf := hpruned.wf hq
    have htimers : (m.perform w (.schedule deadline handler)).2.timers =
        (m.timers.prune.schedule deadline handler).2 := by
      show (m.schedule deadline handler).2.timers = _
      unfold Machine.schedule
      dsimp only
      split <;> rfl
    refine ⟨Nat.le_of_eq hanswered.clock.symm, ?_, ?_, fun id d => ?_⟩
    · show m.world.Goes m.clock (m.schedule deadline handler).2.world
      rw [hanswered.world]
      exact .refl _ _
    · rw [htimers]
      exact TimerQueue.wf_schedule hwf deadline handler
    · rw [htimers, TimerQueue.pending_schedule hwf, hpruned.pending,
        or_iff_right fun h => hr h.2.2.symm]
  | cancel timer =>
    refine ⟨Nat.le_refl _, .refl _ _, TimerQueue.wf_cancel hq timer, fun id d => ?_⟩
    refine TimerQueue.pending_cancel.trans ⟨fun h => h.2, fun h => ⟨?_, h⟩⟩
    rintro rfl
    exact hr h.1
  | elapse duration =>
    dsimp only [Machine.perform, Machine.answer]
    split
    · rename_i clock hadd
      exact ⟨Time.le_of_add? hadd, .refl _ _, hq, fun _ _ => .rfl⟩
    · exact .of_same hq rfl rfl rfl
  | remember s => exact .of_timers hq hr rfl rfl
  | register | deregister | link | now | shutdown | isShutdown | pendingTimers | endpointCount
  | world | note => exact .of_same hq rfl rfl rfl

/-! ## Programs of the service -/

/-- Whatever it is answered, a program leaves the service's timer alone, and starts leases no
earlier than at `floor`, provided that the clock shows no earlier instants.  It may crash only if it
is brittle. -/
inductive Gentle (floor : Nat) (brittle : Prop) : Activity κ η α → Prop
  | done (a : α) : Gentle floor brittle (.done a)
  | crash (may : brittle) (c : Crash) : Gentle floor brittle (.crash c)
  | now {next : Nat → Activity κ η α} (rest : ∀ t, floor ≤ t → Gentle floor brittle (next t)) :
    Gentle floor brittle (.ask .now next)
  | world {next : State → Activity κ η α} (rest : ∀ s, Gentle floor brittle (next s)) :
    Gentle floor brittle (.ask .world next)
  /-- A change of the state. -/
  | update {f : State → State} {next : State → Activity κ η α} (goes : ∀ s : State, s.Goes floor (f s))
    (rest : ∀ s, Gentle floor brittle (next s)) :
    Gentle floor brittle (.ask .world fun s => .ask (.remember (f s)) fun _ => next s)
  | send (endpoint : Nat) (frame : Bytes) {next : Sending κ → Activity κ η α}
    (rest : ∀ answer, Gentle floor brittle (next answer)) :
    Gentle floor brittle (.ask (.send endpoint frame) next)
  | note (event : LockEvent) {next : Unit → Activity κ η α}
    (rest : Gentle floor brittle (next ())) : Gentle floor brittle (.ask (.note event) next)

namespace Gentle

variable {brittle : Prop} {p : Activity κ η α} {f : α → Activity κ η β}

/-- One program after another. -/
theorem bind (hp : Gentle floor brittle p) (hf : ∀ a, Gentle floor brittle (f a)) :
    Gentle floor brittle (p >>= f) := by
  show Gentle floor brittle (p.bind f)
  induction hp with
  | done a => exact hf a
  | crash may c => exact .crash may c
  | now rest ih => exact .now fun t ht => ih t ht
  | world rest ih => exact .world fun s => ih s
  | update goes rest ih => exact .update goes fun s => ih s
  | send endpoint frame rest ih => exact .send endpoint frame fun answer => ih answer
  | note event rest ih => exact .note event ih

/-- A gentle program changes the state under a lock only, so it is calm with what follows it. -/
theorem calm_bind (hp : Gentle floor brittle p) (hf : ∀ a, (f a).Calm) : (p.bind f).Calm := by
  cases hp with
  | done a => exact hf a
  | crash | now | world | update | send | note => exact nofun

/-- A pace of a gentle program leaves the service's timer alone, and a gentle program is left. -/
theorem pace (hp : Gentle floor brittle p) (me : η) (hends : p.ended = false)
    (hf : ∀ a, (f a).Calm) (hq : m.timers.Wf) (hfloor : floor ≤ m.clock) :
    ∃ p', Gentle floor brittle p' ∧ (m.pace w (p >>= f)).1 = p' >>= f ∧
      Apart me floor m (m.pace w (p >>= f)).2 := by
  cases hp with
  | done | crash => cases hends
  | @now next rest =>
    exact ⟨next m.clock, rest m.clock hfloor, rfl, .of_same hq rfl rfl rfl⟩
  | @world next rest =>
    have hpace : m.pace w (Program.ask .world next >>= f) =
        ((next m.world).bind f, (m.perform w .world).2) :=
      Machine.conclude_of_calm ((rest m.world).calm_bind hf)
    rw [hpace]
    exact ⟨next m.world, rest m.world, rfl, .of_same hq rfl rfl rfl⟩
  | @update change next goes rest =>
    exact ⟨next m.world, rest m.world, rfl, .of_timers hq (goes m.world) rfl rfl⟩
  | @send endpoint frame next rest =>
    exact ⟨next (m.send w endpoint frame).1, rest _, rfl, apart_send hq endpoint frame⟩
  | @note event next rest => exact ⟨next (), rest, rfl, .of_same hq rfl rfl rfl⟩

/-- So is one that has nothing behind it. -/
theorem pace_self (hp : Gentle floor brittle p) (me : η) (hq : m.timers.Wf)
    (hfloor : floor ≤ m.clock) :
    Gentle floor brittle (m.pace w p).1 ∧ Apart me floor m (m.pace w p).2 := by
  cases hends : p.ended with
  | true =>
    cases hp with
    | done a => exact ⟨.done a, .of_same hq rfl rfl rfl⟩
    | crash may c => exact ⟨.crash may c, .of_same hq rfl rfl rfl⟩
    | now | world | update | send | note => cases hends
  | false =>
    obtain ⟨p', hp', hleft, hapart⟩ := hp.pace (w := w) (f := Program.done) me hends
      (fun _ => nofun) hq hfloor
    have hself : p >>= Program.done = p := p.bind_done
    rw [hself] at hleft hapart
    rw [hleft]
    exact ⟨hp'.bind Gentle.done, hapart⟩

/-! ### The pieces of a program -/

/-- What is done with the state as it was read. -/
theorem read {f : State → Activity κ η α} (hf : ∀ s, Gentle floor brittle (f s)) :
    Gentle floor brittle (Program.world >>= f) := .world hf

theorem update_pure {g : State → α × State} (goes : ∀ s : State, s.Goes floor (g s).2) :
    Gentle floor brittle (Program.update g : Activity κ η α) :=
  .update goes fun s => .done (g s).1

/-- The bindings change. -/
theorem change {f : State → State} (hf : ∀ s, ∃ bindings, f s = { s with bindings }) :
    Gentle floor brittle (Service.change f : Activity κ η Unit) := by
  refine update_pure fun s => ?_
  obtain ⟨bindings, heq⟩ := hf s
  show s.Goes floor (f s)
  rw [heq]
  exact ⟨rfl, rfl, [], nofun, rfl⟩

theorem sendResponse (endpoint : Nat) (response : Wire.Response) :
    Gentle floor brittle (Service.sendResponse endpoint response : Activity κ η Unit) :=
  .send _ _ fun _ => .done _

theorem each {f : β → Activity κ η Unit} (hf : ∀ b, Gentle floor brittle (f b)) (bs : List β) :
    Gentle floor brittle (Program.each f bs) := by
  induction bs with
  | nil => exact .done ()
  | cons b rest ih => exact (hf b).bind fun _ => ih

/-- An operation that gives no answers. -/
theorem consult {f : Coordinator.State ReplyTo → α × Coordinator.State ReplyTo}
    (op : Operation ReplyTo) (hop : op.NotBefore floor)
    (hf : ∀ s, (f s).2 = (s.perform op).2.state) :
    Gentle floor brittle (Service.consult f : Activity κ η α) :=
  update_pure fun s => ⟨rfl, rfl, [op], fun _ hm => List.mem_singleton.1 hm ▸ hop,
    hf s.coordinator⟩

/-- What is left of an operation once it has been carried out. -/
theorem rest_operate (turn : Turn ReplyTo) (a : α) :
    Gentle floor brittle (do
      Program.each Program.note turn.events
      Program.each (fun (dest, answer) =>
        Service.sendResponse dest.endpoint (answer.reply.response dest.id)) turn.answers
      return a : Activity κ η α) :=
  (each (fun event => .note event (.done ())) _).bind fun _ =>
    (each (fun _ => sendResponse _ _) _).bind fun _ => .done a

/-- An operation with its events and answers. -/
theorem operate {f : Coordinator.State ReplyTo → α × Turn ReplyTo}
    (op : Operation ReplyTo) (hop : op.NotBefore floor)
    (hf : ∀ s, (f s).2 = (s.perform op).2) :
    Gentle floor brittle (Service.operate f : Activity κ η α) := by
  refine (update_pure fun s => ⟨rfl, rfl, [op], fun _ hm => List.mem_singleton.1 hm ▸ hop,
    ?_⟩).bind fun r => rest_operate r.2 r.1
  show (f s.coordinator).2.state = _
  rw [hf]
  rfl

theorem report (dest : ReplyTo) (r : Except Fault Bytes) :
    Gentle floor brittle (Service.report dest r : Activity κ η Unit) := by
  cases r <;> exact sendResponse _ _

/-! ### Frames -/

theorem renew (session : Nat) :
    Gentle floor True (Service.renew session : Activity κ η (Except Fault Unit)) := by
  refine .now fun t ht => ?_
  refine (consult (f := fun s => s.renew session t) (.renew session t) ht fun _ => rfl).bind
    fun r => ?_
  cases r with
  | ok expiry => exact .done _
  | error failure =>
    cases failure with
    | refused fault => exact .done _
    | crashed c => exact .crash trivial c

theorem createSession : Gentle floor True (Service.createSession : Activity κ η Nat) := by
  refine .now fun t ht => ?_
  refine (consult (f := fun s => s.createSession t) (.createSession t) ht fun _ => rfl).bind
    fun r => ?_
  cases r with
  | ok id => exact .done _
  | error c => exact .crash trivial c

theorem executeFor (dest : ReplyTo) (session : Nat) (command : Wire.Command) :
    Gentle floor True (Service.executeFor dest session command : Activity κ η Unit) := by
  cases command with
  | «open» name =>
    exact (consult (f := fun s => s.openHandle session name) (.openHandle session name) trivial
      fun _ => rfl).bind fun r => report _ _
  | close handle =>
    exact (operate (f := fun s => s.closeHandle session handle.toNat)
      (.closeHandle session handle.toNat) trivial fun _ => rfl).bind fun r => report _ _
  | lock payload =>
    exact (operate (f := fun s => s.dispatch session payload dest)
      (.dispatch session payload dest) trivial fun _ => rfl).bind fun _ => .done ()
  | release handle =>
    exact (operate (f := fun s => s.release session handle.toNat)
      (.release session handle.toNat) trivial fun _ => rfl).bind fun r => report _ _
  | cancelLock handle =>
    exact (operate (f := fun s => s.cancel session handle.toNat)
      (.cancel session handle.toNat) trivial fun _ => rfl).bind fun r => sendResponse _ _
  | closeSession =>
    exact (change fun s => ⟨_, rfl⟩).bind fun _ =>
      (operate (f := fun s => s.closeSession session) (.closeSession session) trivial
        fun _ => rfl).bind fun r => report _ _
  | openSession | attachSession | keepAlive | stats => exact sendResponse _ _

theorem execute (dest : ReplyTo) (session : Option Nat) (command : Wire.Command) :
    Gentle floor True (Service.execute dest session command : Activity κ η Unit) := by
  have hfor : ∀ session, Gentle floor True
      (Service.executeFor dest session command : Activity κ η Unit) :=
    fun session => executeFor dest session command
  cases command with
  | openSession =>
    exact createSession.bind fun id => (change fun s => ⟨_, rfl⟩).bind fun _ =>
      .world fun s => sendResponse _ _
  | attachSession id =>
    refine (renew id.toNat).bind fun r => ?_
    cases r with
    | ok => exact (change fun s => ⟨_, rfl⟩).bind fun _ => sendResponse _ _
    | error fault => exact sendResponse _ _
  | stats => exact .world fun s => sendResponse _ _
  | «open» | close | lock | release | cancelLock | closeSession | keepAlive =>
    cases session with
    | none => exact sendResponse _ _
    | some session => exact hfor session

theorem onCommand (dest : ReplyTo) (command : Wire.Command) :
    Gentle floor True (Service.onCommand dest command : Activity κ η Unit) := by
  refine read fun s => ?_
  cases s.sessionFor dest.endpoint with
  | none => exact execute dest none command
  | some session =>
    refine (renew session).bind fun r => ?_
    cases r with
    | ok => exact execute dest (some session) command
    | error fault =>
      refine (change fun s => ⟨_, rfl⟩).bind fun _ => ?_
      split
      · exact sendResponse _ _
      · exact execute dest none command

theorem onFrame (endpoint : Nat) (payload : Bytes) :
    Gentle floor True (Service.onFrame endpoint payload : Activity κ η Unit) := by
  unfold Service.onFrame
  split
  · exact sendResponse _ _
  · dsimp only
    split
    · exact sendResponse _ _
    · exact sendResponse _ _
    · exact onCommand _ _

/-- Frames and connections have nothing to do with the timer. -/
theorem handle {e : Event} (he : ∀ id, e ≠ .timer id) :
    Gentle floor True (Service.handle me e : Activity κ η Unit) := by
  cases e with
  | data endpoint payload => exact onFrame endpoint payload
  | state endpoint state =>
    unfold Service.handle
    dsimp only
    split
    · exact change fun s => ⟨_, rfl⟩
    · exact .done ()
  | timer id => exact absurd rfl (he id)

end Gentle

end LeaseLock.Service
