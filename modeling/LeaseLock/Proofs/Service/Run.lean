import LeaseLock.Proofs.Service.Handler

/-
  LeaseLock: a server in the course of events.
  A server is told that a connection has been made, that time has passed, or of an event
  (`Server.Input`).  With each of these its coordinator carries out operations, and whoever is
  answered for one of them has sent a frame just then (`Server.Input.Yields`).  So every server
  that comes about from its start is sound: its coordinator is coherent, and nobody waits for an
  answer over an endpoint that is still to be made (`Server.Reached.sound`).
-/

namespace LeaseLock

open Reactor Coordinator Service

namespace Server

/-- What a server can be told. -/
inductive Input where
  /-- A connection has been made. -/
  | accept
  /-- The clock shows this instant, unless it is past it. -/
  | tick (instant : Nat)
  /-- An event. -/
  | event (e : Event)

variable {m m' : Loop} {ops : List (Operation ReplyTo)} {own : List (Nat × Wire.Response)}
  {session handle : Nat}

namespace Input

/-- What a server does when it is told this. -/
def apply (m : Loop) : Input → Loop
  | accept => (m.answer wiring (.register () ())).2
  | tick instant => { m with clock := max m.clock instant }
  | event (.timer id) => m.invoke wiring () (.timer id)
  | event e => m.dispatch wiring e

/-- No frame asks for something that a session does with a handle. -/
def Spares (m : Loop) (session handle : Nat) : Input → Prop
  | event (.data endpoint payload) =>
    ∀ op, m.world.asked? endpoint payload = some op → ¬ op.Touches session handle
  | _ => True

instance (m : Loop) (session handle : Nat) (i : Input) : Decidable (i.Spares m session handle) :=
  match i with
  | .event (.data endpoint payload) =>
    inferInstanceAs (Decidable (∀ op ∈ m.world.asked? endpoint payload,
      ¬ op.Touches session handle))
  | .event (.timer _) => isTrue trivial
  | .event (.state _ _) => isTrue trivial
  | .accept => isTrue trivial
  | .tick _ => isTrue trivial

/-- What comes of an input: operations, and responses of the service's own. -/
structure Yields (m : Loop) (ops : List (Operation ReplyTo)) (own : List (Nat × Wire.Response))
    (i : Input) : Prop where
  carries : Carries m ops own (i.apply m)
  /-- Whoever is answered has sent a frame. -/
  senders : ∀ dest ∈ own.map address ++ ops.filterMap Operation.reply?,
    ∃ payload x, i = event (.data dest.endpoint payload) ∧
      m.endpoints.get? dest.endpoint = some x
  /-- A session that has its lease acts only through a frame. -/
  idle : ∀ session handle, Leased m.world.coordinator session m.clock →
    i.Spares m session handle → m.world.coordinator.Idle session handle ops
  endpoints : (∀ e x, m.endpoints.get? e = some x → e < m.nextEndpoint) →
    ∀ e x, (i.apply m).endpoints.get? e = some x → e < (i.apply m).nextEndpoint
  nextEndpoint : m.nextEndpoint ≤ (i.apply m).nextEndpoint

end Input

/-! ## Idle sessions -/

theorem idle_of_forall {s : State ReplyTo}
    (h : ∀ op ∈ ops, ∀ s : State ReplyTo, ¬ s.ActsOn op session handle) :
    s.Idle session handle ops := by
  induction ops generalizing s with
  | nil => trivial
  | cons op rest ih =>
    exact ⟨h op List.mem_cons_self s, ih fun op hm => h op (List.mem_cons_of_mem _ hm)⟩

/-- No frame asks to look for lapsed leases. -/
theorem not_actsOn_of_asks {endpoint sid : Nat} {payload : Bytes} {op : Operation ReplyTo}
    (ha : asks endpoint sid payload = some op) (ht : ¬ op.Touches session handle)
    (s : State ReplyTo) : ¬ s.ActsOn op session handle := by
  rintro (htouches | ⟨now, o, rfl, -⟩)
  · exact ht htouches
  · obtain ⟨command, -, hc⟩ := Option.bind_eq_some_iff.1 ha
    cases command <;> cases hc

/-- Whoever asks for a lock with a frame acts on the handle. -/
theorem touches_of_request? {endpoint sid : Nat} {payload : Bytes} {op : Operation ReplyTo}
    {v : Waiter ReplyTo} (ha : asks endpoint sid payload = some op)
    (hr : op.request? = some (handle, v)) : op.Touches sid handle := by
  obtain ⟨command, -, hc⟩ := Option.bind_eq_some_iff.1 ha
  cases command with
  | lock payload =>
    cases hc
    cases hread : State.readRequest payload with
    | ok p =>
      rw [Operation.request?, hread] at hr
      cases hr
      exact ⟨rfl, p.1, p.2, hread, rfl⟩
    | error fault =>
      rw [Operation.request?, hread] at hr
      cases hr
  | _ => cases hc <;> cases hr

theorem not_actsOn_of_asked {endpoint : Nat} {payload : Bytes} {op : Operation ReplyTo}
    (ha : m.world.asked? endpoint payload = some op) (ht : ¬ op.Touches session handle)
    (s : State ReplyTo) : ¬ s.ActsOn op session handle := by
  obtain ⟨sid, -, ha⟩ := Option.bind_eq_some_iff.1 ha
  exact not_actsOn_of_asks ha ht s

/-- Whoever sends a frame acts with what it asks for at most. -/
theorem idle_of_handles {dest : ReplyTo} {asked : Option (Operation ReplyTo)}
    (hh : Handles dest asked ops own)
    (hasked : ∀ op, asked = some op → ∀ s : State ReplyTo, ¬ s.ActsOn op session handle)
    (s : State ReplyTo) : s.Idle session handle ops := by
  refine idle_of_forall fun op hm s => ?_
  rcases hh.licit op hm with hharmless | heq
  · exact hharmless.not_actsOn s session handle
  · exact hasked op heq s

/-- A look for lapsed leases does not concern a session that has its lease. -/
theorem idle_expire (hl : Leased m.world.coordinator session m.clock) :
    m.world.coordinator.Idle session handle [.expire m.clock] := by
  refine ⟨?_, trivial⟩
  rintro (ht | ⟨now, o, heq, ho, hexpiry⟩)
  · exact ht
  · cases heq
    obtain ⟨o', ho', hlapsed⟩ := hl
    obtain rfl := Option.some.inj (ho.symm.trans ho')
    exact ne_true_of_eq_false hlapsed (decide_eq_true hexpiry)

/-! ## Inputs -/

theorem bounded_of_work (hw : Work m ops own m')
    (hm : ∀ e x, m.endpoints.get? e = some x → e < m.nextEndpoint) (e : Nat)
    (x : Endpoint Unit Unit) (hx : m'.endpoints.get? e = some x) : e < m'.nextEndpoint := by
  rw [hw.nextEndpoint]
  exact hm e x (hw.endpoints e x hx)

theorem yields_accept (m : Loop) : Input.accept.Yields m [] [] where
  carries := ⟨rfl, [], (List.append_nil _).symm, List.nil_subperm⟩
  senders := nofun
  idle := fun _ _ _ _ => trivial
  endpoints := fun hm e x hx => by
    have hx : (m.endpoints.insert m.nextEndpoint ⟨(), ()⟩).get? e = some x := hx
    show e < m.nextEndpoint + 1
    rw [Table.get?_insert] at hx
    split at hx
    · omega
    · exact Nat.lt_succ_of_lt (hm e x hx)
  nextEndpoint := Nat.le_succ _

theorem yields_tick (instant : Nat) (m : Loop) : (Input.tick instant).Yields m [] [] where
  carries := ⟨rfl, [], (List.append_nil _).symm, List.nil_subperm⟩
  senders := nofun
  idle := fun _ _ _ _ => trivial
  endpoints := fun hm => hm
  nextEndpoint := Nat.le_refl _

theorem yields_timer (id : Nat) (m : Loop) :
    ∃ ops, (Input.event (.timer id)).Yields m ops [] := by
  obtain ⟨ops, hw, hops⟩ := worked_timer id m
  refine ⟨ops, hw.toCarries, ?_, ?_, bounded_of_work hw, Nat.le_of_eq hw.nextEndpoint.symm⟩
  · rcases hops with rfl | rfl <;> exact nofun
  · intro session handle hl _
    rcases hops with rfl | rfl
    · trivial
    · exact idle_expire hl

theorem yields_state (endpoint : Nat) (state : LinkState) (m : Loop) :
    (Input.event (.state endpoint state)).Yields m [] [] := by
  have hw := worked_state endpoint state m
  exact ⟨hw.toCarries, nofun, fun _ _ _ _ => trivial, bounded_of_work hw,
    Nat.le_of_eq hw.nextEndpoint.symm⟩

/-- A frame over an endpoint that is gone is dropped. -/
theorem dispatch_data_of_none {endpoint : Nat} (he : m.endpoints.get? endpoint = none)
    (payload : Bytes) : m.dispatch wiring (.data endpoint payload) = m := by
  unfold Machine.dispatch
  dsimp only
  rw [he]

theorem yields_data (endpoint : Nat) (payload : Bytes) (m : Loop) :
    ∃ ops own, (Input.event (.data endpoint payload)).Yields m ops own := by
  cases he : m.endpoints.get? endpoint with
  | none =>
    have hm : (Input.event (.data endpoint payload)).apply m = m :=
      dispatch_data_of_none he payload
    refine ⟨[], [], ?_, nofun, fun _ _ _ _ => trivial, ?_, ?_⟩
    · rw [hm]
      exact ⟨rfl, [], (List.append_nil _).symm, List.nil_subperm⟩
    · rw [hm]
      exact fun hbounded => hbounded
    · exact Nat.le_of_eq (congrArg Machine.nextEndpoint hm).symm
  | some x =>
    obtain ⟨ops, own, hw, hh⟩ := worked_data endpoint payload m
    refine ⟨ops, own, hw.toCarries, fun dest hdest => ?_, fun session handle _ hspares => ?_,
      bounded_of_work hw, Nat.le_of_eq hw.nextEndpoint.symm⟩
    · obtain rfl := List.mem_singleton.1 (hh.addresses.subset hdest)
      have hendpoint : (origin endpoint payload).endpoint = endpoint := by
        unfold origin
        cases Wire.Request.decode payload <;> rfl
      rw [hendpoint]
      exact ⟨payload, x, rfl, he⟩
    · exact idle_of_handles hh (fun op hasked => not_actsOn_of_asked hasked (hspares op hasked)) _

/-- Whatever a server is told comes to operations. -/
theorem Input.yields (i : Input) (m : Loop) : ∃ ops own, i.Yields m ops own := by
  cases i with
  | accept => exact ⟨[], [], yields_accept m⟩
  | tick instant => exact ⟨[], [], yields_tick instant m⟩
  | event e =>
    cases e with
    | data endpoint payload => exact yields_data endpoint payload m
    | state endpoint state => exact ⟨[], [], yields_state endpoint state m⟩
    | timer id =>
      obtain ⟨ops, hy⟩ := yields_timer id m
      exact ⟨ops, [], hy⟩

/-! ## Runs -/

/-- A server comes about from its start. -/
def Reached (m : Loop) : Prop :=
  ∃ (config : Config) (inputs : List Input), m = inputs.foldl Input.apply (start config).loop

/-- What holds of every server. -/
structure Sound (m : Loop) : Prop where
  coherent : Coherent [] (fun _ _ => False) m.world.coordinator
  endpoints : ∀ e x, m.endpoints.get? e = some x → e < m.nextEndpoint
  /-- Whoever waits for an answer waits at an endpoint that has been made. -/
  queue : ∀ p ∈ m.world.coordinator.queue, p.2.reply.endpoint < m.nextEndpoint

theorem Sound.yields {i : Input} (hm : Sound m) (hy : i.Yields m ops own) :
    Sound (i.apply m) := by
  refine ⟨?_, hy.endpoints hm.endpoints, fun p hp => Nat.lt_of_lt_of_le ?_ hy.nextEndpoint⟩
  · rw [hy.carries.coordinator]
    exact hm.coherent.after ops
  · rw [hy.carries.coordinator] at hp
    have hmem := (Coordinator.State.told_perm hm.coherent ops).subset
      (List.mem_append_right _ (List.mem_map.2 ⟨p, hp, rfl⟩))
    rcases List.mem_append.1 hmem with hold | hnew
    · obtain ⟨q, hq, heq⟩ := List.mem_map.1 hold
      exact heq ▸ hm.queue q hq
    · obtain ⟨payload, x, -, hx⟩ := hy.senders _ (List.mem_append_right _ hnew)
      exact hm.endpoints _ x hx

theorem sound_start (config : Config) : Sound (start config).loop := by
  obtain ⟨r, m, hrun, hw⟩ := does_scheduleSweep (Machine.start (.empty config) [])
  have hm : (start config).loop = m := congrArg Prod.snd hrun
  have hcoordinator : m.world.coordinator = .empty config.lease := hw.coordinator
  rw [hm]
  refine ⟨?_, fun e x hx => ?_, fun p hp => ?_⟩
  · rw [hcoordinator]
    exact coherent_empty config.lease
  · cases hw.endpoints e x hx
  · rw [hcoordinator] at hp
    cases hp

theorem Sound.foldl (hm : Sound m) (inputs : List Input) :
    Sound (inputs.foldl Input.apply m) := by
  induction inputs generalizing m with
  | nil => exact hm
  | cons i rest ih =>
    obtain ⟨ops, own, hy⟩ := i.yields m
    exact ih (hm.yields hy)

theorem Reached.sound (hm : Reached m) : Sound m := by
  obtain ⟨config, inputs, rfl⟩ := hm
  exact (sound_start config).foldl inputs

end Server

end LeaseLock
