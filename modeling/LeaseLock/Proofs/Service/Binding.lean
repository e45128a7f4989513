import LeaseLock.Proofs.Coordinator.Bystander
import LeaseLock.Proofs.Service.Answering
import LeaseLock.Proofs.Service.Effect
import Mathlib.Logic.Function.Basic

/-
  LeaseLock: for which session a connection acts.
  A ledger is kept beside the loop: for each endpoint the session that was last opened or attached
  over it, unless the endpoint has been unbound since (`Ledger.event`).  The bindings of the service
  are that ledger at every point of a run (`Run.sound`).  A command renews the lease of the session
  in the ledger and acts for it alone; if that lease is over, the command is refused, and as ids are
  not used again, it will be for good (`only_live_sessions_act`).
-/

namespace LeaseLock.Service

open Reactor Coordinator

variable {κ η τ : Type} {w : Wiring κ η State τ LockEvent} {m m' m'' : Loop κ η τ}

/-! ## The ledger -/

/-- For each endpoint, the session that was last opened or attached over it, unless the endpoint
has been unbound since. -/
abbrev Ledger := Nat → Option Nat

namespace Ledger

/-- The session of an endpoint, as long as it has its lease. -/
def leased (g : Ledger) (s : Coordinator.State ReplyTo) (endpoint now : Nat) : Option Nat :=
  (g endpoint).filter fun session => Leased s session now

/-- The coordinator once the lease of the session of an endpoint has been renewed, if it can be. -/
def renewed (g : Ledger) (s : Coordinator.State ReplyTo) (endpoint now : Nat) :
    Coordinator.State ReplyTo :=
  s.after ((g.leased s endpoint now).map fun session => .renew session now).toList

/-- A command comes over an endpoint: a session is opened or attached, or ended; a session that has
no lease any more is forgotten. -/
def command (g : Ledger) (s : Coordinator.State ReplyTo) (endpoint now : Nat)
    (c : Wire.Command) : Ledger :=
  Function.update g endpoint <| match c with
    | .openSession => some (g.renewed s endpoint now).sessions.nextId
    | .attachSession id =>
      if Leased (g.renewed s endpoint now) id.toNat now then some id.toNat
      else g.leased s endpoint now
    | .closeSession => none
    | _ => g.leased s endpoint now

/-- The sessions whose lease has ended are ended, and forgotten. -/
def sweep (g : Ledger) (s : Coordinator.State ReplyTo) (now : Nat) : Ledger :=
  fun endpoint => (g endpoint).filter fun session =>
    !(s.sessions.get? session).any fun o => o.lapsed now

/-- An event is handed to the service. -/
def event (g : Ledger) (m : Loop κ η τ) : Event → Ledger
  | .data endpoint payload =>
    match command? payload with
    | some c => g.command m.world.coordinator endpoint m.clock c
    | none => g
  | .state endpoint state => if state.isTerminal then Function.update g endpoint none else g
  | .timer id =>
    if m.world.sweepTimer == some id then g.sweep m.world.coordinator m.clock else g

variable {g : Ledger} {s : Coordinator.State ReplyTo} {endpoint session now : Nat}

theorem leased_of_unbound (h : g endpoint = none) : g.leased s endpoint now = none := by
  unfold leased
  rw [h]
  rfl

theorem leased_of_leased (h : g endpoint = some session) (hl : Leased s session now) :
    g.leased s endpoint now = some session := by
  unfold leased
  rw [h, Option.filter_some, if_pos (decide_eq_true hl)]

theorem leased_of_lapsed (h : g endpoint = some session) (hl : ¬ Leased s session now) :
    g.leased s endpoint now = none := by
  unfold leased
  rw [h, Option.filter_some, if_neg fun hd => hl (of_decide_eq_true hd)]

end Ledger

/-! ## Bindings -/

theorem sessionFor_insert (b : Table Nat) (endpoint session : Nat) :
    (b.insert endpoint session).get? = Function.update b.get? endpoint (some session) := by
  funext e
  rw [Table.get?_insert, Function.update_apply]

theorem sessionFor_erase (b : Table Nat) (endpoint : Nat) :
    (b.erase endpoint).get? = Function.update b.get? endpoint none := by
  funext e
  rw [Table.get?_erase, Function.update_apply]

/-- The bindings after a command, if its sender stands for a session that the endpoint is bound to,
or for none and the endpoint is not bound. -/
theorem sessionFor_rebound (s : State) (endpoint now : Nat) {session : Option Nat}
    (hs : s.sessionFor endpoint = session) (c : Wire.Command) :
    (s.rebound endpoint session now c).get? = Function.update s.sessionFor endpoint (match c with
      | .openSession => some s.coordinator.sessions.nextId
      | .attachSession id => if Leased s.coordinator id.toNat now then some id.toNat else session
      | .closeSession => none
      | _ => session) := by
  have hsame : s.sessionFor = Function.update s.sessionFor endpoint session := by
    rw [← hs, Function.update_eq_self]
  cases c with
  | openSession => exact sessionFor_insert _ _ _
  | attachSession id =>
    show (if _ then _ else s.bindings).get? = Function.update _ _ (if _ then _ else _)
    split
    · exact sessionFor_insert _ _ _
    · exact hsame
  | closeSession =>
    cases session with
    | some session => exact sessionFor_erase _ _
    | none => exact hsame
  | keepAlive | «open» | close | lock | release | cancelLock | stats => exact hsame

/-! ## Commands -/

/-- What a command does, if the bindings are the ledger. -/
structure Obeyed (g : Ledger) (m : Loop κ η τ) (dest : ReplyTo) (c : Wire.Command)
    (m' : Loop κ η τ) : Prop where
  /-- The lease of the session is renewed first, and the command acts for it. -/
  coordinator : m'.world.coordinator =
    (g.renewed m.world.coordinator dest.endpoint m.clock).after
      (steps dest (g.leased m.world.coordinator dest.endpoint m.clock) m.clock c)
  /-- The bindings are the ledger again. -/
  bound : m'.world.sessionFor = g.command m.world.coordinator dest.endpoint m.clock c
  /-- Without a session with a lease, the command is refused. -/
  refused : g.leased m.world.coordinator dest.endpoint m.clock = none → c.needsSession = true →
    ∃ message, m'.sent = m.sent ++
      [frame (dest.endpoint, .error dest.id FaultCode.sessionExpired.toStatus message)]
  clock : m'.clock = m.clock

theorem steps_none (dest : ReplyTo) (now : Nat) {c : Wire.Command} (hc : c.needsSession = true) :
    steps dest none now c = [] := by
  cases c <;> first | rfl | cases hc

theorem responses_none (s : State) (dest : ReplyTo) (now : Nat) {c : Wire.Command}
    (hc : c.needsSession = true) : s.responses dest none now c = [sessionless dest] := by
  cases c <;> first | rfl | cases hc

theorem obeyed_onCommand {g : Ledger} (hg : m.world.sessionFor = g) (hm : Timely m)
    (dest : ReplyTo) (c : Wire.Command) :
    ∃ m', m.run w (onCommand dest c) = (.ok (), m') ∧ Obeyed g m dest c m' := by
  subst hg
  cases hs : m.world.sessionFor dest.endpoint with
  | none =>
    obtain ⟨m', hrun, h⟩ := performs_onCommand_of_unbound (w := w) dest c hm hs
    have hleased : Ledger.leased m.world.sessionFor m.world.coordinator dest.endpoint m.clock =
        none := Ledger.leased_of_unbound hs
    refine ⟨m', hrun, ?_, ?_, fun _ hneeds => ⟨"no session bound to this connection", ?_⟩,
      h.clock⟩
    · unfold Ledger.renewed
      rw [h.coordinator, hleased]
      rfl
    · show m'.world.bindings.get? = _
      unfold Ledger.command Ledger.renewed
      rw [h.bound, sessionFor_rebound _ _ _ hs, hleased]
      rfl
    · rw [h.sent, steps_none dest m.clock hneeds, responses_none _ dest m.clock hneeds]
      rfl
  | some session =>
    by_cases hl : Leased m.world.coordinator session m.clock
    · obtain ⟨m', hrun, h⟩ := performs_onCommand_of_leased (w := w) dest c hm hs hl
      have hleased := Ledger.leased_of_leased hs hl
      refine ⟨m', hrun, ?_, ?_, fun hnone => ?_, h.clock⟩
      · unfold Ledger.renewed
        rw [h.coordinator, hleased]
        rfl
      · show m'.world.bindings.get? = _
        unfold Ledger.command Ledger.renewed
        rw [h.bound, sessionFor_rebound (m.world.renewed session m.clock) _ _ hs, hleased]
        rfl
      · rw [hleased] at hnone
        cases hnone
    · obtain ⟨m', hrun, h⟩ := performs_onCommand_of_lapsed (w := w) dest c hm hs hl
      have hleased := Ledger.leased_of_lapsed hs hl
      have hunbound : (m.world.unbind dest.endpoint).sessionFor =
          Function.update m.world.sessionFor dest.endpoint none := sessionFor_erase _ _
      refine ⟨m', hrun, ?_, ?_, fun _ hneeds => ⟨(Fault.sessionExpired session).message, ?_⟩,
        h.clock⟩
      · unfold Ledger.renewed
        rw [h.coordinator, hleased]
        rfl
      · show m'.world.bindings.get? = _
        unfold Ledger.command Ledger.renewed
        rw [h.bound, sessionFor_rebound (m.world.unbind dest.endpoint) _ _
          (hunbound ▸ Function.update_self ..), hunbound, Function.update_idem, hleased]
        rfl
      · rw [h.sent, steps_none dest m.clock hneeds, if_pos hneeds]
        rfl

/-! ## Runs -/

/-- The loop goes from one state to another, with the ledger: the service is told of events, and
elsewhere time passes and operations of the coordinator are carried out, which start leases no
earlier than the clock shows. -/
inductive Run (w : Wiring κ η State τ LockEvent) (m : Loop κ η τ) (g : Ledger) :
    Loop κ η τ → Ledger → Prop where
  | refl : Run w m g m g
  /-- The service is told of an event; when it is a frame, the clock can name the end of a lease. -/
  | event {m' : Loop κ η τ} {g' : Ledger} (h : Run w m g m' g') (self : η) {handler : η}
    (serves : w.handle handler = handle self) (e : Event)
    (timely : (∃ endpoint payload, e = .data endpoint payload) → Timely m') :
    Run w m g (m'.invoke w handler e) (g'.event m' e)
  /-- Something else happens. -/
  | elsewhere {m' m'' : Loop κ η τ} {g' : Ledger} (h : Run w m g m' g')
    (ops : List (Operation ReplyTo)) (current : ∀ op ∈ ops, op.NotBefore m'.clock)
    (coordinator : m''.world.coordinator = m'.world.coordinator.after ops)
    (bindings : m''.world.bindings = m'.world.bindings) (clock : m'.clock ≤ m''.clock) :
    Run w m g m'' g'

theorem Obeyed.onward {g : Ledger} {dest : ReplyTo} {c : Wire.Command} (h : Obeyed g m dest c m') :
    Onward m m' := by
  refine ⟨Nat.le_of_eq h.clock.symm, _, fun op hm => ?_,
    h.coordinator.trans (Coordinator.State.after_append _ _ _).symm⟩
  rcases List.mem_append.1 hm with hm | hm
  · obtain ⟨session, -, rfl⟩ := Option.map_eq_some_iff.1 (Option.mem_toList.1 hm)
    exact Nat.le_refl _
  · exact notBefore_steps _ _ _ _ op hm

theorem sessionFor_unbindAll (s : State) (now : Nat) :
    (s.unbindAll (s.coordinator.expire now).1).sessionFor =
      Ledger.sweep s.sessionFor s.coordinator now := by
  funext endpoint
  show (s.bindings.filter _).get? endpoint = (s.bindings.get? endpoint).filter _
  rw [Table.get?_filter]
  refine congrArg (fun p => Option.filter p (s.bindings.get? endpoint)) (funext fun session => ?_)
  refine congrArg (!·) (Bool.eq_iff_iff.2 ?_)
  refine Coordinator.State.contains_lapsed.trans ?_
  cases s.coordinator.sessions.get? session <;> simp

/-! ## Sessions in the ledger -/

/-- Every session in the ledger has had its id from the coordinator. -/
def Ledger.Known (g : Ledger) (s : Coordinator.State ReplyTo) : Prop :=
  ∀ endpoint session, g endpoint = some session → session < s.sessions.nextId

theorem Leased.used {s : Coordinator.State ReplyTo} {session now : Nat}
    (h : Leased s session now) (hs : Coherent [] (fun _ _ => False) s) :
    session < s.sessions.nextId := hs.session_lt session (Sessions.Live.contains h)

theorem Ledger.leased_eq_some {g : Ledger} {s : Coordinator.State ReplyTo}
    {endpoint now session : Nat} : g.leased s endpoint now = some session ↔
      g endpoint = some session ∧ Leased s session now := by
  unfold Ledger.leased
  rw [Option.filter_eq_some_iff, decide_eq_true_iff]

theorem Ledger.Known.command {g : Ledger} {s : Coordinator.State ReplyTo}
    (hg : g.Known s) (hs : Coherent [] (fun _ _ => False) s) (dest : ReplyTo) (now : Nat)
    (c : Wire.Command) : (g.command s dest.endpoint now c).Known
      ((g.renewed s dest.endpoint now).after
        (steps dest (g.leased s dest.endpoint now) now c)) := by
  have hrenewed : s.sessions.nextId ≤ (g.renewed s dest.endpoint now).sessions.nextId :=
    Coordinator.State.nextId_le_after _ _
  have hafter : (g.renewed s dest.endpoint now).sessions.nextId ≤
      ((g.renewed s dest.endpoint now).after
        (steps dest (g.leased s dest.endpoint now) now c)).sessions.nextId :=
    Coordinator.State.nextId_le_after _ _
  have hold : ∀ {endpoint session}, g endpoint = some session → session <
      ((g.renewed s dest.endpoint now).after
        (steps dest (g.leased s dest.endpoint now) now c)).sessions.nextId :=
    fun h => Nat.lt_of_lt_of_le (hg _ _ h) (Nat.le_trans hrenewed hafter)
  intro endpoint session h
  unfold Ledger.command at h
  rw [Function.update_apply] at h
  split at h
  · cases c with
    | openSession =>
      cases h
      exact Nat.lt_of_lt_of_eq (Nat.lt_succ_self _) (Sessions.nextId_create _).symm
    | attachSession id =>
      dsimp only at h
      split at h
      · rename_i hl
        cases h
        exact Nat.lt_of_lt_of_le (hl.used (hs.after _)) hafter
      · exact hold (Ledger.leased_eq_some.1 h).1
    | closeSession => cases h
    | keepAlive | «open» | close | lock | release | cancelLock | stats =>
      exact hold (Ledger.leased_eq_some.1 h).1
  · exact hold h

/-- The bindings are the ledger, in a state that operations have led to. -/
structure Sound (m : Loop κ η τ) (g : Ledger) : Prop where
  bound : m.world.sessionFor = g
  operated : ∃ lease ops, m.world.coordinator = (Coordinator.State.empty lease).after ops
  known : g.Known m.world.coordinator

namespace Sound

variable {g g' : Ledger}

theorem coherent (h : Sound m g) : Coherent [] (fun _ _ => False) m.world.coordinator := by
  obtain ⟨lease, ops, hops⟩ := h.operated
  rw [hops]
  exact coherent_after lease ops

theorem operated_onward (h : Sound m g) (ho : Onward m m') :
    ∃ lease ops, m'.world.coordinator = (Coordinator.State.empty lease).after ops := by
  obtain ⟨lease, ops, hops⟩ := h.operated
  obtain ⟨ops', -, hops'⟩ := ho.ops
  exact ⟨lease, ops ++ ops', by rw [hops', hops, Coordinator.State.after_append]⟩

/-- Sessions are forgotten at most. -/
theorem forget (h : Sound m g) (ho : Onward m m') (hbound : m'.world.sessionFor = g')
    (hsub : ∀ endpoint session, g' endpoint = some session → g endpoint = some session) :
    Sound m' g' where
  bound := hbound
  operated := h.operated_onward ho
  known := fun endpoint session hs =>
    Nat.lt_of_lt_of_le (h.known endpoint session (hsub endpoint session hs)) ho.nextId

/-- A command is carried out. -/
theorem obeyed {dest : ReplyTo} {c : Wire.Command} (h : Sound m g) (ho : Obeyed g m dest c m') :
    Sound m' (g.command m.world.coordinator dest.endpoint m.clock c) where
  bound := ho.bound
  operated := h.operated_onward ho.onward
  known := by
    rw [ho.coordinator]
    exact h.known.command h.coherent dest m.clock c

/-- A session that has no lease any more is over. -/
theorem over_of_not_leased (h : Sound m g) {endpoint session : Nat} (hs : g endpoint = some session)
    (hl : ¬ Leased m.world.coordinator session m.clock) :
    m.world.coordinator.Over session m.clock := ⟨h.known endpoint session hs, hl⟩

end Sound

/-! ## Events -/

/-- A look for lapsed leases. -/
theorem Sound.sweep {g : Ledger} (h : Sound m g) (self : η) :
    Sound (m.run w (Service.sweep self)).2 (g.sweep m.world.coordinator m.clock) ∧
      Onward m (m.run w (Service.sweep self)).2 := by
  obtain ⟨m₁, hrun, h₁⟩ := run_sweep (w := w) self m
  have honward : Onward m m₁ := h₁.onward fun op hm => by
    obtain rfl := List.mem_singleton.1 hm
    trivial
  have hbound : m₁.world.sessionFor = g.sweep m.world.coordinator m.clock := by
    rw [← h.bound, ← sessionFor_unbindAll]
    exact congrArg Table.get? h₁.bound
  have hsub : ∀ endpoint session, g.sweep m.world.coordinator m.clock endpoint = some session →
      g endpoint = some session := fun _ _ hs => (Option.filter_eq_some_iff.1 hs).1
  have hsound : ∀ m' : Loop κ η τ, m'.clock = m₁.clock →
      m'.world.coordinator = m₁.world.coordinator → m'.world.sessionFor = m₁.world.sessionFor →
      Sound m' (g.sweep m.world.coordinator m.clock) ∧ Onward m m' := by
    intro m' hclock hcoordinator hsame
    have ho : Onward m m' := ⟨hclock ▸ honward.clock, hcoordinator ▸ honward.ops⟩
    exact ⟨h.forget ho (hsame.trans hbound) hsub, ho⟩
  rw [hrun]
  by_cases htime : m₁.clock + m₁.world.sweepInterval < Time.limit
  · obtain ⟨queue, trace, hschedule⟩ := run_scheduleSweep (w := w) self htime
    rw [hschedule]
    exact hsound _ rfl rfl rfl
  · obtain ⟨trace, hschedule⟩ := run_scheduleSweep_of_late (w := w) self htime
    rw [hschedule]
    exact hsound _ rfl rfl rfl

theorem Sound.handle_data {g : Ledger} (h : Sound m g) (self : η) (endpoint : Nat)
    (payload : Bytes) (htime : Timely m) :
    Sound (m.run w (Service.handle self (.data endpoint payload))).2
        (g.event m (.data endpoint payload)) ∧
      Onward m (m.run w (Service.handle self (.data endpoint payload))).2 := by
  show Sound _ (match command? payload with | some c => _ | none => _) ∧ _
  cases hc : command? payload with
  | none =>
    obtain ⟨response, m', hrun, h'⟩ := performs_onFrame_of_none (w := w) endpoint m hc
    have hm' : (m.run w (Service.handle self (.data endpoint payload))).2 = m' :=
      congrArg Prod.snd hrun
    rw [hm']
    have ho := h'.onward nofun
    exact ⟨h.forget ho ((congrArg Table.get? h'.bound).trans h.bound) fun _ _ hs => hs, ho⟩
  | some c =>
    obtain ⟨m', hrun, h'⟩ := obeyed_onCommand (w := w) h.bound htime (origin endpoint payload) c
    rw [← onFrame_of_command hc] at hrun
    have hm' : (m.run w (Service.handle self (.data endpoint payload))).2 = m' :=
      congrArg Prod.snd hrun
    have hsound := h.obeyed h'
    rw [endpoint_origin] at hsound
    rw [hm']
    exact ⟨hsound, h'.onward⟩

theorem Sound.handle_state {g : Ledger} (h : Sound m g) (self : η) (endpoint : Nat)
    (state : LinkState) :
    Sound (m.run w (Service.handle self (.state endpoint state))).2
        (g.event m (.state endpoint state)) ∧
      Onward m (m.run w (Service.handle self (.state endpoint state))).2 := by
  unfold Service.handle Ledger.event
  dsimp only
  split
  · have ho : Onward m (m.run w (change fun s => s.unbind endpoint)).2 :=
      ⟨Nat.le_refl _, [], nofun, rfl⟩
    refine ⟨h.forget ho ?_ ?_, ho⟩
    · rw [← h.bound]
      exact sessionFor_erase _ _
    · intro e session hs
      rw [Function.update_apply] at hs
      split at hs
      · cases hs
      · exact hs
  · exact ⟨h, .refl m⟩

theorem Sound.handle_timer {g : Ledger} (h : Sound m g) (self : η) (id : Nat) :
    Sound (m.run w (Service.handle self (.timer id))).2 (g.event m (.timer id)) ∧
      Onward m (m.run w (Service.handle self (.timer id))).2 := by
  obtain ⟨trace, hworld⟩ := Machine.run_world_eq (w := w) m
  have ho : Onward m { m with trace } := ⟨Nat.le_refl _, [], nofun, rfl⟩
  have hm : Sound { m with trace } g := h.forget ho h.bound fun _ _ hs => hs
  unfold Service.handle Ledger.event
  rw [Machine.run_bind_of_ok _ hworld]
  dsimp only
  split
  · obtain ⟨hsound, honward⟩ := hm.sweep (w := w) self
    exact ⟨hsound, ho.trans honward⟩
  · exact ⟨hm, ho⟩

/-- Whatever the service does with an event, the bindings are the ledger afterwards. -/
theorem Sound.handle {g : Ledger} (h : Sound m g) (self : η) (e : Event)
    (htime : (∃ endpoint payload, e = .data endpoint payload) → Timely m) :
    Sound (m.run w (Service.handle self e)).2 (g.event m e) ∧
      Onward m (m.run w (Service.handle self e)).2 := by
  cases e with
  | data endpoint payload =>
    exact h.handle_data self endpoint payload (htime ⟨endpoint, payload, rfl⟩)
  | state endpoint state => exact h.handle_state self endpoint state
  | timer id => exact h.handle_timer self id

/-- Whatever the service is told of, the bindings are the ledger afterwards. -/
theorem Sound.invoke {g : Ledger} (h : Sound m g) {self handler : η}
    (hserves : w.handle handler = Service.handle self) (e : Event)
    (htime : (∃ endpoint payload, e = .data endpoint payload) → Timely m) :
    Sound (m.invoke w handler e) (g.event m e) ∧ Onward m (m.invoke w handler e) := by
  have ho : Onward m (m.record (.invoked handler e)) := ⟨Nat.le_refl _, [], nofun, rfl⟩
  obtain ⟨hsound, honward⟩ :=
    (h.forget ho h.bound fun _ _ hs => hs).handle (w := w) self e htime
  unfold Machine.invoke
  rw [hserves]
  exact ⟨hsound, ho.trans honward⟩

/-- The bindings are the ledger at every point of a run. -/
theorem Run.sound {g g' : Ledger} (h : Run w m g m' g') (hm : Sound m g) :
    Sound m' g' ∧ Onward m m' := by
  induction h with
  | refl => exact ⟨hm, .refl m⟩
  | event _ _ serves e timely ih =>
    obtain ⟨hsound, honward⟩ := ih.1.invoke serves e timely
    exact ⟨hsound, ih.2.trans honward⟩
  | elsewhere _ ops current coordinator bindings clock ih =>
    have ho := Onward.mk clock ⟨ops, current, coordinator⟩
    exact ⟨ih.1.forget ho ((congrArg Table.get? bindings).trans ih.1.bound) fun _ _ hs => hs,
      ih.2.trans ho⟩

/-! ## Who acts -/

/-- A command acts for a session, whose lease starts anew before. -/
structure ActsFor (session : Nat) (m : Loop κ η τ) (dest : ReplyTo) (c : Wire.Command)
    (m' : Loop κ η τ) : Prop where
  /-- The lease of the session starts anew. -/
  lease : (m.world.renewed session m.clock).coordinator.sessions.leaseEnd? session =
    some (m.clock + m.world.coordinator.sessions.lease)
  /-- Then the command is carried out, on behalf of the session. -/
  coordinator : m'.world.coordinator = (m.world.renewed session m.clock).coordinator.after
    (steps dest (some session) m.clock c)
  /-- A session command is about no other session, and takes nothing from any. -/
  alone : c.needsSession = true → ∀ op ∈ steps dest (some session) m.clock c,
    (∀ sid, (m.world.renewed session m.clock).coordinator.Acts op sid → sid = session) ∧
    (m.world.renewed session m.clock).coordinator.Spares op
      ((m.world.renewed session m.clock).coordinator.perform op).2

/-- A command is answered with an error that says that there is no session, and that is all. -/
structure TurnedAway (m : Loop κ η τ) (dest : ReplyTo) (m' : Loop κ η τ) : Prop where
  coordinator : m'.world.coordinator = m.world.coordinator
  answered : ∃ message, m'.sent = m.sent ++
    [frame (dest.endpoint, .error dest.id FaultCode.sessionExpired.toStatus message)]

theorem acts_of_mem_steps {s : Coordinator.State ReplyTo} {dest : ReplyTo} {session now sid : Nat}
    {c : Wire.Command} (hc : c.needsSession = true) {op : Operation ReplyTo}
    (hm : op ∈ steps dest (some session) now c) (ha : s.Acts op sid) : sid = session := by
  cases c with
  | openSession | attachSession | stats => cases hc
  | keepAlive => cases hm
  | «open» | close | lock | release | cancelLock | closeSession =>
    obtain rfl := List.mem_singleton.1 hm
    exact ha

theorem Sound.actsFor {g : Ledger} (h : Sound m g) (hm : Timely m) {dest : ReplyTo}
    {c : Wire.Command} (ho : Obeyed g m dest c m') {session : Nat}
    (hs : g dest.endpoint = some session)
    (hl : Leased m.world.coordinator session m.clock) : ActsFor session m dest c m' where
  lease := Sessions.leaseEnd?_renew hl hm
  coordinator := by
    have hleased := Ledger.leased_eq_some.2 ⟨hs, hl⟩
    have hcoordinator := ho.coordinator
    unfold Ledger.renewed at hcoordinator
    rw [hleased] at hcoordinator
    exact hcoordinator
  alone := fun hc op hmem => by
    obtain ⟨lease, ops, hops⟩ := h.operated
    have hrenewed : (m.world.renewed session m.clock).coordinator =
        (Coordinator.State.empty lease).after (ops ++ [.renew session m.clock]) := by
      rw [Coordinator.State.after_append, ← hops]
      rfl
    refine ⟨fun sid => acts_of_mem_steps hc hmem, ?_⟩
    rw [hrenewed]
    exact spares_others lease _ op

theorem Sound.turnedAway {g : Ledger} {dest : ReplyTo} {c : Wire.Command}
    (ho : Obeyed g m dest c m') (hc : c.needsSession = true)
    (hl : ∀ session, g dest.endpoint = some session →
      ¬ Leased m.world.coordinator session m.clock) : TurnedAway m dest m' := by
  have hnone : g.leased m.world.coordinator dest.endpoint m.clock = none :=
    Option.eq_none_iff_forall_ne_some.2 fun session hs =>
      hl session (Ledger.leased_eq_some.1 hs).1 (Ledger.leased_eq_some.1 hs).2
  have hcoordinator := ho.coordinator
  unfold Ledger.renewed at hcoordinator
  rw [hnone, steps_none dest m.clock hc] at hcoordinator
  exact ⟨hcoordinator, ho.refused hnone hc⟩

/-- A frame with a command is handed to the service. -/
theorem Sound.obeyed_invoke {g : Ledger} (h : Sound m g) (hm : Timely m) {self handler : η}
    (hserves : w.handle handler = Service.handle self) (endpoint : Nat) {payload : Bytes}
    {c : Wire.Command} (hc : command? payload = some c) :
    Obeyed g m (origin endpoint payload) c (m.invoke w handler (.data endpoint payload)) := by
  obtain ⟨m', hrun, ho⟩ := obeyed_onCommand (w := w) (g := g)
    (m := m.record (.invoked handler (.data endpoint payload))) h.bound hm
    (origin endpoint payload) c
  rw [← onFrame_of_command hc] at hrun
  have hm' : m.invoke w handler (.data endpoint payload) = m' := by
    unfold Machine.invoke
    rw [hserves]
    exact congrArg Prod.snd hrun
  rw [hm']
  exact ⟨ho.coordinator, ho.bound, ho.refused, ho.clock⟩

/-- Nothing is bound at the start. -/
theorem sound_start (config : Config) (links : τ) :
    Sound (.start (.empty config) links : Loop κ η τ) fun _ => none where
  bound := rfl
  operated := ⟨config.lease, [], rfl⟩
  known := nofun

/-- At any point of a run of the service, a command that comes over an endpoint acts for the session
that was last opened or attached over it, if the endpoint has not been unbound since and the session
has its lease: the lease starts anew, and a session command acts for this session alone.  Otherwise
every session command is turned away.  A session whose lease is over has none ever after, whatever
endpoint may still stand for it. -/
theorem only_live_sessions_act {config : Config} {links : τ} {g : Ledger}
    (h : Run w (.start (.empty config) links) (fun _ => none) m g) (hm : Timely m)
    (self handler : η) (hserves : w.handle handler = handle self) (endpoint : Nat)
    {payload : Bytes} {c : Wire.Command} (hc : command? payload = some c) :
    (∀ session, g endpoint = some session → Leased m.world.coordinator session m.clock →
      ActsFor session m (origin endpoint payload) c
        (m.invoke w handler (.data endpoint payload))) ∧
    (c.needsSession = true → (∀ session, g endpoint = some session →
        ¬ Leased m.world.coordinator session m.clock) →
      TurnedAway m (origin endpoint payload) (m.invoke w handler (.data endpoint payload))) ∧
    ∀ session, g endpoint = some session → ¬ Leased m.world.coordinator session m.clock →
      ∀ m' g', Run w m g m' g' → Timely m' → ∀ endpoint' payload' c',
        g' endpoint' = some session → command? payload' = some c' → c'.needsSession = true →
          TurnedAway m' (origin endpoint' payload')
            (m'.invoke w handler (.data endpoint' payload')) := by
  obtain ⟨hsound, -⟩ := h.sound (sound_start config links)
  have hobeyed := hsound.obeyed_invoke hm hserves endpoint hc
  refine ⟨fun session hs hl => ?_, fun hneeds hl => ?_, ?_⟩
  · exact hsound.actsFor hm hobeyed (by rwa [endpoint_origin]) hl
  · refine Sound.turnedAway hobeyed hneeds fun session hs => hl session ?_
    rwa [endpoint_origin] at hs
  · intro session hs hl m' g' hrun hm' endpoint' payload' c' hs' hc' hneeds
    obtain ⟨hsound', honward⟩ := hrun.sound hsound
    have hover := honward.stays_over (hsound.over_of_not_leased hs hl)
    refine Sound.turnedAway (hsound'.obeyed_invoke hm' hserves endpoint' hc') hneeds
      fun session' hs'' => ?_
    rw [endpoint_origin, hs'] at hs''
    cases hs''
    exact hover.ended

/-- Frames that come one after another make a run. -/
theorem run_feed (config : Config) (frames : List (Nat × Bytes))
    (htime : ∀ i < frames.length, Timely (feed (.start (.empty config) ()) (frames.take i))) :
    ∃ g, Run (wiring fun _ _ _ links => (true, [], links)) (.start (.empty config) ())
      (fun _ => none) (feed (.start (.empty config) ()) frames) g := by
  induction frames using List.reverseRecOn with
  | nil => exact ⟨_, .refl⟩
  | append_singleton frames p ih =>
    obtain ⟨g, hrun⟩ := ih fun i hi => by
      have hi' := htime i (by simp; omega)
      rwa [List.take_append_of_le_length (by omega)] at hi'
    rw [feed, List.foldl_append]
    refine ⟨_, hrun.event () rfl (.data p.1 p.2) fun _ => ?_⟩
    have hlast := htime frames.length (by simp)
    rwa [List.take_left'] at hlast
    rfl

/-- A session is opened over one connection, attached to over a second and ended over the first;
then a session is opened over a third. -/
def leftover : List (Nat × Bytes) :=
  [(1, (Wire.Command.openSession.request 1).encode),
    (2, ((Wire.Command.attachSession 1).request 1).encode),
    (1, (Wire.Command.closeSession.request 2).encode),
    (3, (Wire.Command.openSession.request 1).encode)]

/-- The second connection is still bound to the session that has ended, and is turned away; the
third acts for its own. -/
theorem only_live_sessions_act_leftover :
    let w : Wiring Unit Unit State Unit LockEvent := wiring fun _ _ _ links => (true, [], links)
    let m := feed (.start (.empty .default) ()) leftover
    let payload := ((Wire.Command.open "a").request 7).encode
    m.world.sessionFor 2 = some 1 ∧ m.world.sessionFor 3 = some 2 ∧ Timely m ∧
      ActsFor 2 m (origin 3 payload) (.open "a") (m.invoke w () (.data 3 payload)) ∧
      TurnedAway m (origin 2 payload) (m.invoke w () (.data 2 payload)) := by
  intro w m payload
  obtain ⟨g, hrun⟩ := run_feed .default leftover (by decide +kernel)
  have hg : g = m.world.sessionFor := (hrun.sound (sound_start .default ())).1.bound.symm
  have hm : Timely m := by decide +kernel
  have hc : command? payload = some (.open "a") := by decide +kernel
  have hsecond : m.world.sessionFor 2 = some 1 := by decide +kernel
  have hthird : m.world.sessionFor 3 = some 2 := by decide +kernel
  subst hg
  obtain ⟨hacts, -, -⟩ := only_live_sessions_act hrun hm () () rfl 3 hc
  obtain ⟨-, -, hover⟩ := only_live_sessions_act hrun hm () () rfl 2 hc
  exact ⟨hsecond, hthird, hm, hacts 2 hthird (by decide +kernel),
    hover 1 hsecond (by decide +kernel) m _ .refl hm 2 payload (.open "a") hsecond hc rfl⟩

end LeaseLock.Service
