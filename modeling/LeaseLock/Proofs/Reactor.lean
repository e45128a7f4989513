import LeaseLock.Reactor.Machine

/-
  LeaseLock: how programs run in the event loop.
  A program in sequence runs its first part and, unless that crashes, the rest
  (`run_bind_of_ok`, `run_bind_of_error`).  Reading and changing what handlers remember, reading
  the clock and writing into the trace have one rule each; they leave everything else alone, but
  for the trace.
-/

namespace LeaseLock.Reactor.Machine

variable {κ η σ τ ν α β : Type} {w : Wiring κ η σ τ ν} {m m' : Machine κ η σ τ ν}

/-! ## Sequences -/

theorem run_bind_of_ok {p : Program κ η σ ν α} {a : α} (f : α → Program κ η σ ν β)
    (hp : m.run w p = (.ok a, m')) : m.run w (p >>= f) = m'.run w (f a) := by
  show m.run w (p.bind f) = _
  induction p generalizing m with
  | done b =>
    cases hp
    rfl
  | crash c => cases hp
  | ask request next ih => exact ih _ hp

theorem run_bind_of_error {p : Program κ η σ ν α} {c : Crash} (f : α → Program κ η σ ν β)
    (hp : m.run w p = (.error c, m')) : m.run w (p >>= f) = (.error c, m') := by
  show m.run w (p.bind f) = _
  induction p generalizing m with
  | done b => cases hp
  | crash d =>
    cases hp
    rfl
  | ask request next ih => exact ih _ hp

/-! ## Requests -/

/-- Everything but the trace is the same. -/
structure Traced (m m' : Machine κ η σ τ ν) : Prop where
  clock : m'.clock = m.clock
  endpoints : m'.endpoints = m.endpoints
  nextEndpoint : m'.nextEndpoint = m.nextEndpoint
  world : m'.world = m.world
  links : m'.links = m.links

theorem Traced.refl (m : Machine κ η σ τ ν) : m.Traced m := ⟨rfl, rfl, rfl, rfl, rfl⟩

theorem Traced.trans {m'' : Machine κ η σ τ ν} (h : m.Traced m') (h' : m'.Traced m'') :
    m.Traced m'' where
  clock := h'.clock.trans h.clock
  endpoints := h'.endpoints.trans h.endpoints
  nextEndpoint := h'.nextEndpoint.trans h.nextEndpoint
  world := h'.world.trans h.world
  links := h'.links.trans h.links

theorem run_now (m : Machine κ η σ τ ν) :
    ∃ m', m.run w Program.now = (.ok m.clock, m') ∧ m.Traced m' :=
  ⟨_, rfl, ⟨rfl, rfl, rfl, rfl, rfl⟩⟩

theorem run_world (m : Machine κ η σ τ ν) :
    ∃ m', m.run w Program.world = (.ok m.world, m') ∧ m.Traced m' :=
  ⟨_, rfl, ⟨rfl, rfl, rfl, rfl, rfl⟩⟩

theorem run_update (f : σ → α × σ) (m : Machine κ η σ τ ν) :
    ∃ m', m.run w (Program.update f) = (.ok (f m.world).1, m') ∧
      { m with world := (f m.world).2 }.Traced m' :=
  ⟨_, rfl, ⟨rfl, rfl, rfl, rfl, rfl⟩⟩

theorem run_each_note (notes : List ν) (m : Machine κ η σ τ ν) :
    ∃ m', m.run w (Program.each Program.note notes) = (.ok (), m') ∧ m.Traced m' := by
  induction notes generalizing m with
  | nil => exact ⟨m, rfl, .refl m⟩
  | cons n rest ih =>
    obtain ⟨m', hrun, htraced⟩ := ih (m.record (.asked (.note n) ()))
    have hfirst : m.Traced (m.record (.asked (.note n) ())) := ⟨rfl, rfl, rfl, rfl, rfl⟩
    exact ⟨m', hrun, hfirst.trans htraced⟩

theorem traced_schedule (deadline : Nat) (handler : η) (m : Machine κ η σ τ ν) :
    m.Traced (m.schedule deadline handler).2 := by
  unfold schedule
  dsimp only
  split <;> exact ⟨rfl, rfl, rfl, rfl, rfl⟩

theorem run_schedule (deadline : Nat) (handler : η) (m : Machine κ η σ τ ν) :
    ∃ id m', m.run w (Program.schedule deadline handler) = (.ok id, m') ∧ m.Traced m' := by
  have hrecord : (m.schedule deadline handler).2.Traced ((m.schedule deadline handler).2.record
      (.asked (.schedule deadline handler) (m.schedule deadline handler).1)) :=
    ⟨rfl, rfl, rfl, rfl, rfl⟩
  exact ⟨_, _, rfl, (traced_schedule deadline handler m).trans hrecord⟩

/-! ## Deliveries -/

/-- Only the queue takes an event. -/
theorem deliver_eq (m : Machine κ η σ τ ν) (e : Event) :
    ∃ queue, (m.deliver e).2 = { m with queue } := by
  unfold deliver
  split
  · exact ⟨_, rfl⟩
  · exact ⟨m.queue, rfl⟩

theorem deliverAll_eq (m : Machine κ η σ τ ν) (events : List Event) :
    ∃ queue, (m.deliverAll events).2 = { m with queue } := by
  induction events generalizing m with
  | nil => exact ⟨m.queue, rfl⟩
  | cons e rest ih =>
    obtain ⟨queue₁, h₁⟩ := m.deliver_eq e
    obtain ⟨queue₂, h₂⟩ := ih { m with queue := queue₁ }
    refine ⟨queue₂, ?_⟩
    show ((m.deliver e).2.deliverAll rest).2 = _
    rw [h₁]
    exact h₂

/-- Only the connection takes a frame, and the queue what comes of it. -/
theorem send_eq (m : Machine κ η σ τ ν) (endpoint : Nat) (frame : Bytes) :
    ∃ links queue, (m.send w endpoint frame).2 = { m with links, queue } := by
  unfold send
  split
  · exact ⟨m.links, m.queue, rfl⟩
  · rename_i e _
    obtain ⟨queue, heq⟩ := deliverAll_eq
      { m with links := (w.transmit e.link endpoint frame m.links).2.2 }
      (w.transmit e.link endpoint frame m.links).2.1
    exact ⟨_, queue, heq⟩

/-! ## Timers and frames -/

theorem nextId_cancel (q : TimerQueue η) (timer : Nat) : (q.cancel timer).2.nextId = q.nextId := by
  unfold TimerQueue.cancel TimerQueue.compact
  dsimp only
  split
  · rfl
  · split <;> rfl

theorem run_update_eq (f : σ → α × σ) (m : Machine κ η σ τ ν) :
    ∃ trace, m.run w (Program.update f) =
      (.ok (f m.world).1, { m with world := (f m.world).2, trace }) := ⟨_, rfl⟩

theorem run_world_eq (m : Machine κ η σ τ ν) :
    ∃ trace, m.run w Program.world = (.ok m.world, { m with trace }) := ⟨_, rfl⟩

/-- A timer is scheduled as long as the clock can name the instant. -/
theorem run_scheduleAfter {m : Machine κ η σ τ ν} {delay : Nat}
    (htimely : m.clock + delay < Time.limit) (handler : η) :
    ∃ queue trace, m.run w (Program.scheduleAfter delay handler) = (.ok m.timers.nextId, { m with
      timers := (m.timers.prune.schedule (m.clock + delay) handler).2, queue, trace }) := by
  have hnow : m.run w Program.now = (.ok m.clock, m.record (.asked .now m.clock)) := rfl
  unfold Program.scheduleAfter
  rw [run_bind_of_ok _ hnow, Time.add?_eq_some_iff.2 ⟨rfl, htimely⟩]
  dsimp only [Program.schedule, Program.request, run, perform, answer, schedule]
  split <;> exact ⟨_, _, rfl⟩

theorem run_scheduleAfter_of_late {m : Machine κ η σ τ ν} {delay : Nat}
    (hlate : ¬ m.clock + delay < Time.limit) (handler : η) :
    ∃ trace, m.run w (Program.scheduleAfter delay handler) =
      (.error .instantOverflow, { m with trace }) := by
  have hnow : m.run w Program.now = (.ok m.clock, m.record (.asked .now m.clock)) := rfl
  unfold Program.scheduleAfter
  rw [run_bind_of_ok _ hnow, Time.add?_eq_none_iff.2 (Nat.le_of_not_lt hlate)]
  exact ⟨_, rfl⟩

end LeaseLock.Reactor.Machine
