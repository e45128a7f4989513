import LeaseLock.Proofs.Coordinator.Parting
import LeaseLock.Proofs.Service.Binding
import LeaseLock.Proofs.Service.Run

/-
  LeaseLock: what a server sends arrives at its connections.
  A connection takes every frame that the service hands over for it, as long as its endpoint is
  registered (`Delivers`); and an endpoint that is bound to a session is registered
  (`Reached.bound`), as a frame binds no other endpoint than its own (`Confined.onFrame`).  Whatever
  a server is told, it carries out operations that take nothing from anybody and at most one other,
  and hands over exactly their answers (`Input.Accounts`); a frame for which no lease can be renewed
  any more takes nothing from anybody (`harmless_of_late`).  So a request that leaves its queue is
  answered just then (`Input.Accounts.parted`).
-/

namespace LeaseLock.Server

open Reactor Coordinator Service

variable {m m' m'' : Loop} {endpoint handle : Nat} {i : Input}

/-! ## Connections -/

/-- The frames for an endpoint. -/
def toward (endpoint : Nat) (frames : List (Nat × Bytes)) : List Bytes :=
  (frames.filter fun p => p.1 == endpoint).map (·.2)

theorem toward_append (endpoint : Nat) (l l' : List (Nat × Bytes)) :
    toward endpoint (l ++ l') = toward endpoint l ++ toward endpoint l' := by
  unfold toward
  rw [List.filter_append, List.map_append]

theorem toward_singleton (endpoint other : Nat) (bytes : Bytes) :
    toward endpoint [(other, bytes)] = if other = endpoint then [bytes] else [] := by
  unfold toward
  by_cases h : other = endpoint <;> simp [h]

theorem mem_toward {frames : List (Nat × Bytes)} {bytes : Bytes}
    (h : (endpoint, bytes) ∈ frames) : bytes ∈ toward endpoint frames :=
  List.mem_map.2 ⟨_, List.mem_filter.2 ⟨h, beq_self_eq_true endpoint⟩, rfl⟩

/-- The connection of an endpoint has taken what has been handed over for it. -/
def Delivers (endpoint : Nat) (m m' : Loop) : Prop :=
  ∃ frames, m'.sent = m.sent ++ frames ∧
    toward endpoint m'.links = toward endpoint m.links ++ toward endpoint frames

namespace Delivers

theorem of_same (hsent : m'.sent = m.sent) (hlinks : m'.links = m.links) :
    Delivers endpoint m m' :=
  ⟨[], by rw [hsent, List.append_nil], by rw [hlinks]; exact (List.append_nil _).symm⟩

theorem trans (h : Delivers endpoint m m') (h' : Delivers endpoint m' m'') :
    Delivers endpoint m m'' := by
  obtain ⟨frames, hsent, hlinks⟩ := h
  obtain ⟨frames', hsent', hlinks'⟩ := h'
  refine ⟨frames ++ frames', ?_, ?_⟩
  · rw [hsent', hsent, List.append_assoc]
  · rw [hlinks', hlinks, toward_append, List.append_assoc]

/-- What has been handed over is known. -/
theorem links (h : Delivers endpoint m m') {frames : List (Nat × Bytes)}
    (hsent : m'.sent = m.sent ++ frames) :
    toward endpoint m'.links = toward endpoint m.links ++ toward endpoint frames := by
  obtain ⟨frames', hsent', hlinks⟩ := h
  rw [hlinks, List.append_cancel_left (hsent'.symm.trans hsent)]

end Delivers

/-- A frame is handed over while its endpoint is registered, or is for another endpoint. -/
theorem delivers_send (other : Nat) (bytes : Bytes)
    (hopen : m.endpoints.contains endpoint = true) :
    Delivers endpoint m (m.perform wiring (.send other bytes)).2 := by
  have hsent : ∀ m' : Loop, ∀ a, (m'.record (.asked (.send other bytes) a)).sent =
      m'.sent ++ [(other, bytes)] := fun m' a => Machine.sent_record m' _
  show Delivers endpoint m ((m.send wiring other bytes).2.record (.asked (.send other bytes) _))
  generalize (m.perform wiring (.send other bytes)).1 = a
  unfold Machine.send
  cases ho : m.endpoints.get? other with
  | none =>
    refine ⟨[(other, bytes)], hsent m _, ?_⟩
    rw [toward_singleton, if_neg, List.append_nil]
    · rfl
    · rintro rfl
      rw [Table.contains, ho] at hopen
      cases hopen
  | some e =>
    refine ⟨[(other, bytes)], hsent { m with links := m.links ++ [(other, bytes)] } _, ?_⟩
    exact toward_append _ _ _

/-- Nothing but sending a frame changes what connections remember. -/
theorem delivers_perform (r : Request Unit Unit Service.State LockEvent)
    (hopen : m.endpoints.contains endpoint = true) :
    Delivers endpoint m (m.perform wiring r).2 := by
  have hrecord : ∀ {m' : Loop} {a}, Entry.sent? (.asked r a) = none →
      m'.trace = m.trace → m'.links = m.links →
        Delivers endpoint m (m'.record (.asked r a)) := by
    intro m' a hnone htrace hlinks
    refine .of_same ?_ hlinks
    rw [Machine.sent_record, hnone]
    exact (List.append_nil _).trans (by unfold Machine.sent; rw [htrace])
  cases r with
  | send other bytes => exact delivers_send other bytes hopen
  | deliver e =>
    obtain ⟨queue, heq⟩ := m.deliver_eq e
    show Delivers endpoint m ((m.deliver e).2.record _)
    rw [heq]
    exact hrecord rfl rfl rfl
  | schedule deadline handler =>
    have heq : ∃ timers queue, (m.schedule deadline handler).2 = { m with timers, queue } := by
      unfold Machine.schedule
      dsimp only
      split
      · exact ⟨_, _, rfl⟩
      · exact ⟨_, m.queue, rfl⟩
    obtain ⟨timers, queue, heq⟩ := heq
    show Delivers endpoint m ((m.schedule deadline handler).2.record _)
    rw [heq]
    exact hrecord rfl rfl rfl
  | elapse duration =>
    have heq : ∃ clock, (m.answer wiring (.elapse duration)).2 = { m with clock } := by
      dsimp only [Machine.answer]
      split
      · exact ⟨_, rfl⟩
      · exact ⟨m.clock, rfl⟩
    obtain ⟨clock, heq⟩ := heq
    show Delivers endpoint m ((m.answer wiring (.elapse duration)).2.record _)
    rw [heq]
    exact hrecord rfl rfl rfl
  | register | deregister | link | cancel | now | shutdown | isShutdown | pendingTimers
  | endpointCount | world | remember | note => exact hrecord rfl rfl rfl

theorem contains_erase {t : Table (Endpoint Unit Unit)} {other : Nat} :
    (t.erase other).contains endpoint = true ↔ endpoint ≠ other ∧ t.contains endpoint = true := by
  rw [Table.contains, Table.contains, Table.get?_erase]
  split
  · rename_i heq
    exact iff_of_false Bool.false_ne_true fun h => h.1 heq
  · rename_i hne
    exact (and_iff_right hne).symm

theorem contains_insert {t : Table (Endpoint Unit Unit)} {other : Nat} {e : Endpoint Unit Unit} :
    (t.insert other e).contains endpoint = true ↔
      endpoint = other ∨ t.contains endpoint = true := by
  rw [Table.contains, Table.contains, Table.get?_insert]
  split
  · rename_i heq
    exact iff_of_true rfl (.inl heq)
  · rename_i hne
    exact (or_iff_right hne).symm

/-- An endpoint that has been given up does not come back. -/
theorem contains_of_perform (endpoint : Nat) (r : Request Unit Unit Service.State LockEvent) :
    m.nextEndpoint ≤ (m.perform wiring r).2.nextEndpoint ∧
      (endpoint < m.nextEndpoint →
        (m.perform wiring r).2.endpoints.contains endpoint = true →
          m.endpoints.contains endpoint = true) := by
  have hsame : ∀ {m' : Loop}, m'.nextEndpoint = m.nextEndpoint → m'.endpoints = m.endpoints →
      m.nextEndpoint ≤ m'.nextEndpoint ∧ (endpoint < m.nextEndpoint →
        m'.endpoints.contains endpoint = true → m.endpoints.contains endpoint = true) := by
    intro m' hnext hendpoints
    rw [hnext, hendpoints]
    exact ⟨Nat.le_refl _, fun _ h => h⟩
  cases r with
  | register link handler =>
    exact ⟨Nat.le_succ _, fun hlt h => (contains_insert.1 h).resolve_left (Nat.ne_of_lt hlt)⟩
  | deregister other =>
    exact ⟨Nat.le_refl _, fun _ h => (contains_erase.1 h).2⟩
  | send other bytes =>
    obtain ⟨links, queue, heq⟩ := m.send_eq (w := wiring) other bytes
    have hm : (m.perform wiring (.send other bytes)).2 =
        Machine.record { m with links, queue } _ := congrArg (Machine.record · _) heq
    rw [hm]
    exact hsame rfl rfl
  | deliver e =>
    obtain ⟨queue, heq⟩ := m.deliver_eq e
    have hm : (m.perform wiring (.deliver e)).2 = Machine.record { m with queue } _ :=
      congrArg (Machine.record · _) heq
    rw [hm]
    exact hsame rfl rfl
  | schedule deadline handler =>
    obtain ⟨id, m', hrun, ht⟩ := m.run_schedule (w := wiring) deadline handler
    have hm : (m.perform wiring (.schedule deadline handler)).2 = m' := congrArg Prod.snd hrun
    rw [hm]
    exact hsame ht.nextEndpoint ht.endpoints
  | elapse duration =>
    have hm : (m.perform wiring (.elapse duration)).2.nextEndpoint = m.nextEndpoint ∧
        (m.perform wiring (.elapse duration)).2.endpoints = m.endpoints := by
      dsimp only [Machine.perform, Machine.answer, Machine.record]
      split <;> exact ⟨rfl, rfl⟩
    exact hsame hm.1 hm.2
  | link | cancel | now | shutdown | isShutdown | pendingTimers | endpointCount | world | remember
  | note => exact hsame rfl rfl

/-- Whatever a program does, a connection takes what is handed over for it, if its endpoint is
registered in the end. -/
theorem delivers_run {α : Type} (p : Activity Unit Unit α) (hlt : endpoint < m.nextEndpoint)
    (hopen : (m.run wiring p).2.endpoints.contains endpoint = true) :
    m.endpoints.contains endpoint = true ∧ Delivers endpoint m (m.run wiring p).2 := by
  induction p generalizing m with
  | done a => exact ⟨hopen, .of_same rfl rfl⟩
  | crash c => exact ⟨hopen, .of_same rfl rfl⟩
  | ask r next ih =>
    obtain ⟨hnext, hback⟩ := contains_of_perform (m := m) endpoint r
    obtain ⟨hmid, hrest⟩ := ih (m.perform wiring r).1 (Nat.lt_of_lt_of_le hlt hnext) hopen
    have hfirst := hback hlt hmid
    exact ⟨hfirst, (delivers_perform r hfirst).trans hrest⟩

theorem delivers_invoke (event : Event) (hlt : endpoint < m.nextEndpoint)
    (hopen : (m.invoke wiring () event).endpoints.contains endpoint = true) :
    m.endpoints.contains endpoint = true ∧ Delivers endpoint m (m.invoke wiring () event) := by
  obtain ⟨hfirst, hrun⟩ := delivers_run (m := m.record (.invoked () event)) (handle () event) hlt
    hopen
  have hrecord : (m.record (.invoked () event)).sent = m.sent := by
    rw [Machine.sent_record]
    exact List.append_nil _
  exact ⟨hfirst, (Delivers.of_same hrecord rfl).trans hrun⟩

/-! ## Events -/

/-- A frame is handed to the service, unless its endpoint is gone. -/
theorem dispatch_data (m : Loop) (endpoint : Nat) (payload : Bytes) :
    m.endpoints.contains endpoint = false ∧ m.dispatch wiring (.data endpoint payload) = m ∨
      m.endpoints.contains endpoint = true ∧ m.dispatch wiring (.data endpoint payload) =
        m.invoke wiring () (.data endpoint payload) := by
  unfold Machine.dispatch Table.contains
  dsimp only
  cases m.endpoints.get? endpoint with
  | none => exact .inl ⟨rfl, rfl⟩
  | some e => exact .inr ⟨rfl, rfl⟩

/-- The service is told of the state of a connection, unless its endpoint is gone; the endpoint goes
before it is told of a state that is final. -/
theorem dispatch_state (m : Loop) (endpoint : Nat) (state : LinkState) :
    m.dispatch wiring (.state endpoint state) = m ∨
      (m.endpoints.contains endpoint = true ∧ state.isTerminal = true ∧
        m.dispatch wiring (.state endpoint state) =
          { m with endpoints := m.endpoints.erase endpoint }.invoke wiring ()
            (.state endpoint state)) ∨
      (state.isTerminal = false ∧ m.dispatch wiring (.state endpoint state) =
        m.invoke wiring () (.state endpoint state)) := by
  unfold Machine.dispatch Table.contains
  dsimp only
  cases m.endpoints.get? endpoint with
  | none => exact .inl rfl
  | some e =>
    cases state.isTerminal with
    | true => exact .inr (.inl ⟨rfl, rfl, rfl⟩)
    | false => exact .inr (.inr ⟨rfl, rfl⟩)

/-- Whatever a server is told, a connection takes what is handed over for it, if its endpoint is
registered afterwards. -/
theorem Input.delivers (hlt : endpoint < m.nextEndpoint)
    (hopen : (i.apply m).endpoints.contains endpoint = true) :
    m.endpoints.contains endpoint = true ∧ Delivers endpoint m (i.apply m) := by
  cases i with
  | accept =>
    exact ⟨(contains_insert.1 hopen).resolve_left (Nat.ne_of_lt hlt), .of_same rfl rfl⟩
  | tick instant => exact ⟨hopen, .of_same rfl rfl⟩
  | event e =>
    cases e with
    | timer id => exact delivers_invoke (.timer id) hlt hopen
    | data other payload =>
      have hm : (Input.event (.data other payload)).apply m =
          m.dispatch wiring (.data other payload) := rfl
      rw [hm] at hopen ⊢
      rcases dispatch_data m other payload with ⟨-, heq⟩ | ⟨-, heq⟩
      · rw [heq] at hopen ⊢
        exact ⟨hopen, .of_same rfl rfl⟩
      · rw [heq] at hopen ⊢
        exact delivers_invoke _ hlt hopen
    | state other state =>
      have hm : (Input.event (.state other state)).apply m =
          m.dispatch wiring (.state other state) := rfl
      rw [hm] at hopen ⊢
      rcases dispatch_state m other state with heq | ⟨-, -, heq⟩ | ⟨-, heq⟩
      · rw [heq] at hopen ⊢
        exact ⟨hopen, .of_same rfl rfl⟩
      · rw [heq] at hopen ⊢
        obtain ⟨hfirst, h⟩ := delivers_invoke
          (m := { m with endpoints := m.endpoints.erase other }) (.state other state) hlt hopen
        exact ⟨(contains_erase.1 hfirst).2, (Delivers.of_same rfl rfl).trans h⟩
      · rw [heq] at hopen ⊢
        exact delivers_invoke _ hlt hopen

/-! ## Operations -/

/-- What a server does when it is told this: operations that take nothing from anybody, and then at
most one other.  Their answers and then responses of the service's own are handed over to be sent,
and nothing else is. -/
structure Input.Accounts (m : Loop) (quiet : List (Operation ReplyTo))
    (main : Option (Operation ReplyTo)) (own : List (Nat × Wire.Response)) (i : Input) : Prop where
  harmless : ∀ op ∈ quiet, op.Harmless
  coordinator : (i.apply m).world.coordinator = m.world.coordinator.after (quiet ++ main.toList)
  sent : (i.apply m).sent = m.sent ++
    ((m.world.coordinator.told (quiet ++ main.toList)).map posted ++ own).map frame
  /-- No lease is started later than now. -/
  times : ∀ op ∈ quiet ++ main.toList, op.NotAfter m.clock
  /-- Whoever asks for a lock has sent a frame just then. -/
  asker : ∀ op ∈ main, ∀ reply, op.reply? = some reply →
    ∃ payload, i = event (.data reply.endpoint payload) ∧ origin reply.endpoint payload = reply

/-- A command comes to one operation at most. -/
theorem steps_eq (dest : ReplyTo) (session : Option Nat) (now : Nat) (c : Wire.Command) :
    steps dest session now c = (steps dest session now c).head?.toList := by
  cases c <;> cases session <;> rfl

theorem reply?_of_mem_steps {dest : ReplyTo} {session : Option Nat} {now : Nat} {c : Wire.Command}
    {op : Operation ReplyTo} (hm : op ∈ (steps dest session now c).head?) {reply : ReplyTo}
    (hr : op.reply? = some reply) : reply = dest := by
  cases c <;> cases session <;> cases hm <;> cases hr
  rfl

/-- A frame is handed to the service while the clock can name the end of a lease. -/
theorem exists_performs_onFrame (endpoint : Nat) (payload : Bytes) (ht : Timely m) :
    ∃ (quiet : List (Operation ReplyTo)) (main : Option (Operation ReplyTo))
      (own : List (Nat × Wire.Response)) (bindings : Table Nat),
      (∀ op ∈ quiet, op.Harmless) ∧ (∀ op ∈ quiet ++ main.toList, op.NotAfter m.clock) ∧
      (∀ op ∈ main, ∀ reply, op.reply? = some reply → reply = origin endpoint payload) ∧
      Performs wiring (onFrame endpoint payload) m (.ok ()) (quiet ++ main.toList) own
        bindings := by
  cases hc : command? payload with
  | none =>
    obtain ⟨response, h⟩ := performs_onFrame_of_none (w := wiring) endpoint m hc
    exact ⟨[], none, _, _, nofun, nofun, nofun, h⟩
  | some c =>
    rw [onFrame_of_command hc]
    have hreply : ∀ session, ∀ op ∈ (steps (origin endpoint payload) session m.clock c).head?,
        ∀ reply, op.reply? = some reply → reply = origin endpoint payload :=
      fun _ _ hm _ hr => reply?_of_mem_steps hm hr
    have htimes : ∀ session,
        ∀ op ∈ (steps (origin endpoint payload) session m.clock c).head?.toList,
          op.NotAfter m.clock := fun session => by
      rw [← steps_eq]
      exact notAfter_steps _ session m.clock c
    cases hs : m.world.sessionFor (origin endpoint payload).endpoint with
    | none =>
      have h := performs_onCommand_of_unbound (w := wiring) (origin endpoint payload) c ht hs
      rw [steps_eq] at h
      exact ⟨[], _, _, _, nofun, htimes none, hreply none, h⟩
    | some session =>
      by_cases hl : Leased m.world.coordinator session m.clock
      · have h := performs_onCommand_of_leased (w := wiring) (origin endpoint payload) c ht hs hl
        rw [steps_eq] at h
        refine ⟨[.renew session m.clock], _, _, _, Operation.harmless_renew session m.clock, ?_,
          hreply (some session), h⟩
        exact List.forall_mem_cons.2 ⟨Nat.le_refl _, htimes (some session)⟩
      · have h := performs_onCommand_of_lapsed (w := wiring) (origin endpoint payload) c ht hs hl
        rw [steps_eq] at h
        exact ⟨[], _, _, _, nofun, htimes none, hreply none, h⟩

theorem sent_invoked (m : Loop) (event : Event) : (m.record (.invoked () event)).sent = m.sent := by
  rw [Machine.sent_record]
  exact List.append_nil _

theorem Input.accounts_nothing {i : Input}
    (hcoordinator : (i.apply m).world.coordinator = m.world.coordinator)
    (hsent : (i.apply m).sent = m.sent) : i.Accounts m [] none [] :=
  ⟨nofun, hcoordinator, hsent.trans (List.append_nil _).symm, nofun, nofun⟩

theorem Input.accounts_timer (m : Loop) (id : Nat) :
    ∃ main, (event (.timer id)).Accounts m [] main [] := by
  obtain ⟨ops, r, ⟨m', hrun, h⟩, hops⟩ := makes_timer (t := wiring.transmit) () id
    (m.record (.invoked () (.timer id)))
  have hm : (Input.event (.timer id)).apply m = m' := congrArg Prod.snd hrun
  have hsent := h.sent.trans (congrArg (· ++ _) (sent_invoked m (.timer id)))
  rcases hops with rfl | rfl
  · exact ⟨none, nofun, hm ▸ h.coordinator, hm ▸ hsent, nofun, nofun⟩
  · refine ⟨some (.expire m.clock), nofun, hm ▸ h.coordinator, hm ▸ hsent, ?_, ?_⟩
    · rintro op hop
      obtain rfl := List.mem_singleton.1 hop
      trivial
    · rintro op hop reply hr
      cases hop
      cases hr

theorem Input.accounts_data (endpoint : Nat) (payload : Bytes) (ht : Timely m) :
    ∃ quiet main own, (event (.data endpoint payload)).Accounts m quiet main own := by
  have hm : (Input.event (.data endpoint payload)).apply m =
      m.dispatch wiring (.data endpoint payload) := rfl
  rcases dispatch_data m endpoint payload with ⟨-, heq⟩ | ⟨-, heq⟩
  · rw [heq] at hm
    exact ⟨_, _, _, accounts_nothing (by rw [hm]) (by rw [hm])⟩
  · obtain ⟨quiet, main, own, bindings, hquiet, htimes, hreply, m', hrun, h⟩ :=
      exists_performs_onFrame (m := m.record (.invoked () (.data endpoint payload))) endpoint
        payload ht
    have hm' : m.invoke wiring () (.data endpoint payload) = m' := congrArg Prod.snd hrun
    rw [heq, hm'] at hm
    refine ⟨quiet, main, own, hquiet, hm ▸ h.coordinator, hm ▸ h.sent.trans
      (congrArg (· ++ _) (sent_invoked m (.data endpoint payload))), htimes,
      fun op hop reply hr => ?_⟩
    obtain rfl := hreply op hop reply hr
    rw [endpoint_origin]
    exact ⟨payload, rfl, rfl⟩

/-- The state of a connection sets off nothing. -/
theorem Input.accounts_state (m : Loop) (endpoint : Nat) (state : LinkState) :
    (event (.state endpoint state)).Accounts m [] none [] := by
  have hsilent : ∀ m : Loop, (m.invoke wiring () (.state endpoint state)).world.coordinator =
      m.world.coordinator ∧ (m.invoke wiring () (.state endpoint state)).sent = m.sent := by
    intro m
    obtain ⟨m', hrun, h⟩ := makes_state (t := wiring.transmit) () endpoint state
      (m.record (.invoked () (.state endpoint state)))
    have hm : m.invoke wiring () (.state endpoint state) = m' := congrArg Prod.snd hrun
    rw [hm]
    exact ⟨h.coordinator, h.sent.trans ((List.append_nil _).trans (sent_invoked m _))⟩
  have hm : (Input.event (.state endpoint state)).apply m =
      m.dispatch wiring (.state endpoint state) := rfl
  rcases dispatch_state m endpoint state with heq | ⟨-, -, heq⟩ | ⟨-, heq⟩
  · rw [heq] at hm
    exact accounts_nothing (by rw [hm]) (by rw [hm])
  · rw [heq] at hm
    obtain ⟨hcoordinator, hsent⟩ := hsilent { m with endpoints := m.endpoints.erase endpoint }
    exact accounts_nothing (by rw [hm, hcoordinator]) (by rw [hm, hsent]; rfl)
  · rw [heq] at hm
    obtain ⟨hcoordinator, hsent⟩ := hsilent m
    exact accounts_nothing (by rw [hm, hcoordinator]) (by rw [hm, hsent])

/-- Whatever a server is told, if it is not a frame while the clock can not name the end of a
lease. -/
theorem Input.accounts (i : Input)
    (ht : ∀ endpoint payload, i = event (.data endpoint payload) → Timely m) :
    ∃ quiet main own, i.Accounts m quiet main own := by
  cases i with
  | accept => exact ⟨_, _, _, accounts_nothing rfl rfl⟩
  | tick instant => exact ⟨_, _, _, accounts_nothing rfl rfl⟩
  | event e =>
    cases e with
    | timer id =>
      obtain ⟨main, h⟩ := accounts_timer m id
      exact ⟨_, main, _, h⟩
    | data endpoint payload => exact accounts_data endpoint payload (ht endpoint payload rfl)
    | state endpoint state => exact ⟨_, _, _, accounts_state m endpoint state⟩

/-! ## Frames that come too late -/

theorem renewal_of_late {session : Nat} (hlate : ¬ Timely m) :
    renewal (m.world.coordinator.renew session m.clock).1 ≠ .ok (.ok ()) := by
  have hadd := Time.add?_eq_none_iff.2 (Nat.le_of_not_lt hlate)
  unfold Coordinator.State.renew Sessions.renew
  dsimp only
  cases m.world.coordinator.sessions.get? session with
  | none => exact nofun
  | some o =>
    dsimp only
    split
    · exact nofun
    · rw [hadd]
      exact nofun

/-- As no lease can be renewed, nothing is done for a session. -/
theorem serves_onFrame_of_late (endpoint : Nat) (payload : Bytes) (hlate : ¬ Timely m) :
    Serves (origin endpoint payload) none (onFrame endpoint payload) m :=
  serves_onFrame_of fun _ _ => serves_onCommand_of fun _ _ hr => absurd hr (renewal_of_late hlate)

/-- Once the clock cannot name the end of a lease any more, frames take nothing from anybody. -/
theorem harmless_of_late (endpoint : Nat) (payload : Bytes) (hlate : ¬ Timely m) :
    ∃ quiet : List (Operation ReplyTo), (∀ op ∈ quiet, op.Harmless) ∧
      ((Input.event (.data endpoint payload)).apply m).world.coordinator =
        m.world.coordinator.after quiet := by
  have hm : (Input.event (.data endpoint payload)).apply m =
      m.dispatch wiring (.data endpoint payload) := rfl
  rw [hm]
  rcases dispatch_data m endpoint payload with ⟨-, heq⟩ | ⟨-, heq⟩
  · rw [heq]
    exact ⟨[], nofun, rfl⟩
  · obtain ⟨ops, own, r, hp, hlicit, -⟩ := serves_onFrame_of_late
      (m := m.record (.invoked () (.data endpoint payload))) endpoint payload hlate
    rw [heq]
    have hwork : Work m ops own (m.invoke wiring () (.data endpoint payload)) := work_invoke hp
    exact ⟨ops, fun op hop => (hlicit op hop).resolve_right nofun, hwork.coordinator⟩

/-! ## Requests that leave their queues -/

section Parted

variable {s : Coordinator.State ReplyTo} {w : Waiter ReplyTo} {quiet : List (Operation ReplyTo)}

/-- Operations that take nothing from anybody leave a request in its queue. -/
theorem mem_line_after_quiet (hs : Coherent [] (fun _ _ => False) s) (hw : w ∈ s.line handle)
    (hsole : ∀ p ∈ s.queue, p.2.reply = w.reply → p = (handle, w))
    (hquiet : ∀ op ∈ quiet, op.Harmless) :
    w ∈ (s.after quiet).line handle ∧
      ∀ p ∈ (s.after quiet).queue, p.2.reply = w.reply → p = (handle, w) := by
  induction quiet generalizing s with
  | nil => exact ⟨hw, hsole⟩
  | cons op rest ih =>
    have hop := hquiet op List.mem_cons_self
    have hstays : w ∈ (s.perform op).2.state.line handle := by
      by_contra hleft
      obtain ⟨a, ha, -⟩ := State.parted_perform hs hw hsole (hop.reply? ▸ nofun) hleft
      have hharmless : ∀ o ∈ [op], o.Harmless := fun o ho => List.mem_singleton.1 ho ▸ hop
      have htold : (s.perform op).2.answers ++ [] = [] := told_of_harmless hharmless
      rw [List.append_nil] at htold
      rw [htold] at ha
      cases ha
    rw [State.after_cons]
    refine ih (hs.perform op) hstays (fun p hp hreply => ?_)
      fun o ho => hquiet o (List.mem_cons_of_mem _ ho)
    rcases State.mem_queue_perform hs hp with hold | hnew
    · exact hsole p hold hreply
    · cases hop.request?.symm.trans hnew

/-- A request that leaves its queue is answered, and the lock agrees with the answer. -/
theorem Input.Accounts.parted {main : Option (Operation ReplyTo)}
    {own : List (Nat × Wire.Response)} (h : i.Accounts m quiet main own)
    (hs : Coherent [] (fun _ _ => False) m.world.coordinator)
    (hw : w ∈ m.world.coordinator.line handle)
    (hsole : ∀ p ∈ m.world.coordinator.queue, p.2.reply = w.reply → p = (handle, w))
    (hreply : ∀ op ∈ main, op.reply? ≠ some w.reply)
    (hleft : w ∉ (i.apply m).world.coordinator.line handle) :
    ∃ a, (w.reply, a) ∈ m.world.coordinator.told (quiet ++ main.toList) ∧
      Parted (i.apply m).world.coordinator handle w a := by
  obtain ⟨hw', hsole'⟩ := mem_line_after_quiet hs hw hsole h.harmless
  rw [h.coordinator] at hleft ⊢
  rw [State.after_append] at hleft ⊢
  cases main with
  | none => exact absurd hw' hleft
  | some op =>
    obtain ⟨a, ha, hparted⟩ :=
      State.parted_perform (hs.after quiet) hw' hsole' (hreply op rfl) hleft
    rw [State.told_append]
    refine ⟨a, List.mem_append_right _ ?_, hparted⟩
    exact List.mem_append_left _ ha

end Parted

/-! ## Bindings -/

/-- A program leaves the endpoints as they are, and the bindings of all but one. -/
def Confined {α : Type} (endpoint : Nat) (p : Activity Unit Unit α) : Prop :=
  ∀ m : Loop, (m.run wiring p).2.endpoints = m.endpoints ∧
    ∀ e, e ≠ endpoint → (m.run wiring p).2.world.sessionFor e = m.world.sessionFor e

namespace Confined

variable {α β : Type}

theorem pure (a : α) : Confined endpoint (Pure.pure a) := fun _ => ⟨rfl, fun _ _ => rfl⟩

theorem crash (c : Crash) : Confined endpoint (.crash c : Activity Unit Unit α) :=
  fun _ => ⟨rfl, fun _ _ => rfl⟩

theorem bind {p : Activity Unit Unit α} {f : α → Activity Unit Unit β} (hp : Confined endpoint p)
    (hf : ∀ a, Confined endpoint (f a)) : Confined endpoint (p >>= f) := by
  intro m
  obtain ⟨hendpoints, hbindings⟩ := hp m
  rcases hrun : m.run wiring p with ⟨result, m₁⟩
  rw [hrun] at hendpoints hbindings
  cases result with
  | error c =>
    rw [Machine.run_bind_of_error _ hrun]
    exact ⟨hendpoints, hbindings⟩
  | ok a =>
    rw [Machine.run_bind_of_ok _ hrun]
    obtain ⟨hsame, hrest⟩ := hf a m₁
    exact ⟨hsame.trans hendpoints, fun e he => (hrest e he).trans (hbindings e he)⟩

theorem world : Confined endpoint Program.world := fun _ => ⟨rfl, fun _ _ => rfl⟩

theorem now : Confined endpoint Program.now := fun _ => ⟨rfl, fun _ _ => rfl⟩

theorem update {f : Service.State → α × Service.State}
    (hf : ∀ s e, e ≠ endpoint → (f s).2.sessionFor e = s.sessionFor e) :
    Confined endpoint (Program.update f) := fun m => ⟨rfl, hf m.world⟩

theorem each {f : α → Activity Unit Unit Unit} (hf : ∀ x, Confined endpoint (f x)) (l : List α) :
    Confined endpoint (Program.each f l) := by
  induction l with
  | nil => exact pure ()
  | cons x rest ih => exact (hf x).bind fun _ => ih

theorem sendResponse (other : Nat) (response : Wire.Response) :
    Confined endpoint (Service.sendResponse other response) := by
  intro m
  obtain ⟨links, queue, heq⟩ := m.send_eq (w := wiring) other response.encode
  show (m.send wiring other response.encode).2.endpoints = _ ∧
    ∀ e, e ≠ endpoint → (m.send wiring other response.encode).2.world.sessionFor e = _
  rw [heq]
  exact ⟨rfl, fun _ _ => rfl⟩

theorem consult (f : Coordinator.State ReplyTo → α × Coordinator.State ReplyTo) :
    Confined endpoint (Service.consult f) := update fun _ _ _ => rfl

theorem operate (f : Coordinator.State ReplyTo → α × Turn ReplyTo) :
    Confined endpoint (Service.operate f) := by
  refine (update (fun _ _ _ => rfl)).bind fun x => ?_
  refine (each (fun _ _ => ⟨rfl, fun _ _ => rfl⟩) _).bind fun _ => ?_
  exact (each (fun _ => sendResponse _ _) _).bind fun _ => pure x.1

theorem unbind : Confined endpoint (change fun s => s.unbind endpoint) :=
  update fun s _ he => Table.get?_erase_of_ne s.bindings he

theorem bindTo (session : Nat) : Confined endpoint (change fun s => s.bind endpoint session) :=
  update fun s _ he => Table.get?_insert_of_ne s.bindings session he

theorem report (dest : ReplyTo) (result : Except Fault Bytes) :
    Confined endpoint (Service.report dest result) := by
  cases result with
  | ok body => exact sendResponse _ _
  | error fault => exact sendResponse _ _

theorem renew (session : Nat) : Confined endpoint (Service.renew session) := by
  refine now.bind fun t => (consult _).bind fun result => ?_
  match result with
  | .ok _ => exact pure _
  | .error (.refused _) => exact pure _
  | .error (.crashed _) => exact crash _

theorem createSession : Confined endpoint Service.createSession := by
  refine now.bind fun t => (consult _).bind fun result => ?_
  cases result with
  | ok _ => exact pure _
  | error _ => exact crash _

theorem executeFor (dest : ReplyTo) (session : Nat) (command : Wire.Command) :
    Confined dest.endpoint (Service.executeFor dest session command) := by
  cases command with
  | «open» name => exact (consult _).bind fun _ => report dest _
  | close | release => exact (operate _).bind fun _ => report dest _
  | lock payload => exact (operate _).bind fun _ => pure ()
  | cancelLock handle => exact (operate _).bind fun _ => sendResponse _ _
  | closeSession => exact unbind.bind fun _ => (operate _).bind fun _ => report dest _
  | openSession | attachSession | keepAlive | stats => exact sendResponse _ _

theorem execute (dest : ReplyTo) (session : Option Nat) (command : Wire.Command) :
    Confined dest.endpoint (Service.execute dest session command) := by
  have hfor := fun session => executeFor dest session command
  cases command with
  | openSession =>
    exact createSession.bind fun id => (bindTo id).bind fun _ => world.bind fun _ =>
      sendResponse _ _
  | attachSession id =>
    refine (renew id.toNat).bind fun result => ?_
    cases result with
    | ok _ => exact (bindTo id.toNat).bind fun _ => sendResponse _ _
    | error fault => exact sendResponse _ _
  | stats => exact world.bind fun _ => sendResponse _ _
  | keepAlive | «open» | close | lock | release | cancelLock | closeSession =>
    cases session with
    | some session => exact hfor session
    | none => exact sendResponse _ _

theorem onCommand (dest : ReplyTo) (command : Wire.Command) :
    Confined dest.endpoint (Service.onCommand dest command) := by
  refine world.bind fun s => ?_
  cases s.sessionFor dest.endpoint with
  | none => exact execute dest none command
  | some session =>
    refine (renew session).bind fun result => ?_
    cases result with
    | ok _ => exact execute dest (some session) command
    | error fault =>
      refine unbind.bind fun _ => ?_
      split
      · exact sendResponse _ _
      · exact execute dest none command

/-- A frame binds no other endpoint than its own. -/
theorem onFrame (endpoint : Nat) (payload : Bytes) :
    Confined endpoint (Service.onFrame endpoint payload) := by
  unfold Service.onFrame
  cases Wire.Request.decode payload with
  | error fault => exact sendResponse _ _
  | ok request =>
    dsimp only
    cases Wire.Command.decode request.command request.body with
    | error fault => exact sendResponse _ _
    | ok command =>
      cases command with
      | none => exact sendResponse _ _
      | some command => exact onCommand ⟨endpoint, request.id⟩ command

end Confined

/-! ## Bound endpoints -/

/-- Every endpoint that is bound to a session is registered. -/
def Bound (m : Loop) : Prop :=
  ∀ endpoint session, m.world.sessionFor endpoint = some session →
    m.endpoints.contains endpoint = true

/-- Endpoints stay registered, and no other is bound than before. -/
theorem Bound.of_same (hm : Bound m)
    (hendpoints : ∀ e, m.endpoints.contains e = true → m'.endpoints.contains e = true)
    (hbindings : ∀ e session, m'.world.sessionFor e = some session →
      m.world.sessionFor e = some session) : Bound m' :=
  fun e session hs => hendpoints e (hm e session (hbindings e session hs))

theorem Bound.invoke_data (hm : Bound m) (endpoint : Nat) (payload : Bytes)
    (hopen : m.endpoints.contains endpoint = true) :
    Bound (m.invoke wiring () (.data endpoint payload)) := by
  obtain ⟨hendpoints, hother⟩ :=
    Confined.onFrame endpoint payload (m.record (.invoked () (.data endpoint payload)))
  intro e session hs
  have hcontains : (m.invoke wiring () (.data endpoint payload)).endpoints.contains e =
      m.endpoints.contains e := congrArg (·.contains e) hendpoints
  rw [hcontains]
  by_cases he : e = endpoint
  · rw [he]
    exact hopen
  · exact hm e session ((hother e he).symm.trans hs)

theorem Bound.invoke_timer (hm : Bound m) (id : Nat) : Bound (m.invoke wiring () (.timer id)) := by
  obtain ⟨trace, hworld⟩ := Machine.run_world_eq (w := wiring) (m.record (.invoked () (.timer id)))
  have hrun : m.invoke wiring () (.timer id) =
      (Machine.run wiring (if m.world.sweepTimer == some id then sweep () else return ())
        { m.record (.invoked () (.timer id)) with trace }).2 :=
    congrArg Prod.snd (Machine.run_bind_of_ok _ hworld)
  rw [hrun]
  split
  · obtain ⟨m₁, hsweep, h₁⟩ :=
      run_sweep (w := wiring) () { m.record (.invoked () (.timer id)) with trace }
    have hm₁ : Bound m₁ := by
      refine hm.of_same (fun e he => ?_) fun e session hs => ?_
      · rw [h₁.endpoints]
        exact he
      · have hs : m₁.world.bindings.get? e = some session := hs
        rw [h₁.bound] at hs
        have hs : (m.world.unbindAll _).bindings.get? e = some session := hs
        unfold State.unbindAll at hs
        rw [Table.get?_filter] at hs
        exact (Option.filter_eq_some_iff.1 hs).1
    rw [hsweep]
    by_cases htime : m₁.clock + m₁.world.sweepInterval < Time.limit
    · obtain ⟨queue, trace, hschedule⟩ := run_scheduleSweep (w := wiring) () htime
      rw [hschedule]
      exact hm₁
    · obtain ⟨trace, hschedule⟩ := run_scheduleSweep_of_late (w := wiring) () htime
      rw [hschedule]
      exact hm₁
  · exact hm

/-- A state that is final undoes the binding, and that is all. -/
theorem invoke_state (m : Loop) (endpoint : Nat) (state : LinkState) :
    (m.invoke wiring () (.state endpoint state)).endpoints = m.endpoints ∧
      (m.invoke wiring () (.state endpoint state)).world =
        if state.isTerminal then m.world.unbind endpoint else m.world := by
  unfold Machine.invoke
  show (Machine.run wiring (handle () (.state endpoint state)) _).2.endpoints = _ ∧
    (Machine.run wiring (handle () (.state endpoint state)) _).2.world = _
  unfold handle
  dsimp only
  split <;> exact ⟨rfl, rfl⟩

theorem Bound.apply (hm : Bound m) (i : Input) : Bound (i.apply m) := by
  cases i with
  | accept =>
    exact hm.of_same (fun e he => contains_insert.2 (.inr he)) fun _ _ hs => hs
  | tick instant => exact hm
  | event e =>
    cases e with
    | timer id => exact hm.invoke_timer id
    | data endpoint payload =>
      show Bound (m.dispatch wiring (.data endpoint payload))
      rcases dispatch_data m endpoint payload with ⟨-, heq⟩ | ⟨hopen, heq⟩
      · rw [heq]
        exact hm
      · rw [heq]
        exact hm.invoke_data endpoint payload hopen
    | state endpoint state =>
      show Bound (m.dispatch wiring (.state endpoint state))
      rcases dispatch_state m endpoint state with heq | ⟨-, hterminal, heq⟩ | ⟨hterminal, heq⟩
      · rw [heq]
        exact hm
      · -- the endpoint is gone, and so is its binding
        rw [heq]
        intro e session hs
        obtain ⟨hendpoints, hworld⟩ :=
          invoke_state { m with endpoints := m.endpoints.erase endpoint } endpoint state
        rw [hendpoints]
        rw [hworld, if_pos hterminal] at hs
        have hs : (m.world.bindings.erase endpoint).get? e = some session := hs
        rw [Table.get?_erase] at hs
        split at hs
        · cases hs
        · rename_i hne
          exact contains_erase.2 ⟨hne, hm e session hs⟩
      · obtain ⟨hendpoints, hworld⟩ := invoke_state m endpoint state
        rw [hterminal, if_neg Bool.false_ne_true] at hworld
        rw [heq]
        refine hm.of_same (fun e he => ?_) fun e session hs => ?_
        · rw [hendpoints]
          exact he
        · rw [hworld] at hs
          exact hs

/-! ## The clock -/

theorem Input.clock_le (i : Input) (m : Loop) : m.clock ≤ (i.apply m).clock := by
  cases i with
  | accept => exact Nat.le_refl _
  | tick instant => exact Nat.le_max_left _ _
  | event e =>
    cases e with
    | timer id =>
      obtain ⟨ops, hw, -⟩ := worked_timer id m
      exact Nat.le_of_eq hw.clock.symm
    | data endpoint payload =>
      obtain ⟨ops, own, hw, -⟩ := worked_data endpoint payload m
      exact Nat.le_of_eq hw.clock.symm
    | state endpoint state => exact Nat.le_of_eq (worked_state endpoint state m).clock.symm

/-- If the clock can name the end of a lease, it always could. -/
theorem Input.timely_of_apply (i : Input) (h : Timely (i.apply m)) : Timely m := by
  obtain ⟨ops, own, hy⟩ := i.yields m
  unfold Timely at h ⊢
  rw [hy.carries.coordinator, State.lease_after] at h
  exact Nat.lt_of_le_of_lt (Nat.add_le_add_right (i.clock_le m) _) h

/-! ## What holds of all servers in time -/

/-- What a server keeps as long as its clock can name the end of a lease: bound endpoints are
registered, and no lease ends later than one that starts now. -/
structure Regular (m : Loop) : Prop where
  bound : Bound m
  leases : m.world.coordinator.LeasesTo (m.clock + m.world.coordinator.sessions.lease)

theorem Regular.apply (hm : Regular m) (ht : Timely m) (i : Input) : Regular (i.apply m) := by
  refine ⟨hm.bound.apply i, ?_⟩
  obtain ⟨quiet, main, own, h⟩ := i.accounts fun _ _ _ => ht
  rw [h.coordinator, State.lease_after]
  exact (hm.leases.after h.times (Nat.le_refl _)).mono (Nat.add_le_add_right (i.clock_le m) _)

theorem regular_start (config : Config) : Regular (start config).loop := by
  have hstart : Regular (.start (.empty config) []) := ⟨nofun, nofun⟩
  show Regular ((Machine.start (.empty config) [] : Loop).run wiring (scheduleSweep ())).2
  by_cases htime : (Machine.start (.empty config) [] : Loop).clock +
      (Machine.start (.empty config) [] : Loop).world.sweepInterval < Time.limit
  · obtain ⟨queue, trace, hschedule⟩ := run_scheduleSweep (w := wiring) () htime
    rw [hschedule]
    exact ⟨hstart.bound, hstart.leases⟩
  · obtain ⟨trace, hschedule⟩ := run_scheduleSweep_of_late (w := wiring) () htime
    rw [hschedule]
    exact ⟨hstart.bound, hstart.leases⟩

theorem Reached.bound (hm : Reached m) : Bound m := by
  obtain ⟨config, inputs, rfl⟩ := hm
  induction inputs using List.reverseRecOn with
  | nil => exact (regular_start config).bound
  | append_singleton inputs i ih =>
    rw [List.foldl_append]
    exact ih.apply i

theorem Reached.regular (hm : Reached m) (ht : Timely m) : Regular m := by
  obtain ⟨config, inputs, rfl⟩ := hm
  induction inputs using List.reverseRecOn with
  | nil => exact regular_start config
  | append_singleton inputs i ih =>
    rw [List.foldl_append] at ht ⊢
    have ht' := i.timely_of_apply ht
    exact (ih ht').apply ht' i

end LeaseLock.Server
