import LeaseLock.Proofs.Reactor

/-
  LeaseLock: the errands of programs.
  A program runs an errand when it schedules a timer, cancels one, or sends a frame.  The trace
  keeps the errands in order (`Machine.errands`), and the timers after them follow from the timers
  before (`Winds`).  `Did m es m'` says that these and no other errands have been run between `m`
  and `m'`, and that nothing else has happened to the timers.  Each request has its rule, and a
  program does the errands of its parts one after another.
-/

namespace LeaseLock.Reactor

variable {κ η σ τ ν α β : Type} {w : Wiring κ η σ τ ν} {m m' m'' : Machine κ η σ τ ν}

/-! ## Errands -/

/-- Something that is done with timers or with connections. -/
inductive Errand (η : Type) where
  /-- A timer was scheduled, and got this id. -/
  | scheduled (id deadline : Nat) (handler : η)
  /-- A timer was cancelled. -/
  | cancelled (id : Nat)
  /-- A frame was sent, or at least that was tried. -/
  | sent (endpoint : Nat) (frame : Bytes)
deriving DecidableEq, Repr

namespace Errand

/-- The id of the timer that was scheduled. -/
def scheduled? : Errand η → Option Nat
  | scheduled id _ _ => some id
  | _ => none

/-- The frame that was sent, and where. -/
def sent? : Errand η → Option (Nat × Bytes)
  | sent endpoint frame => some (endpoint, frame)
  | _ => none

end Errand

/-- The errand of an entry of the trace, if it is one. -/
def Entry.errand? : Entry κ η σ ν → Option (Errand η)
  | .asked (.schedule deadline handler) (id : Nat) => some (.scheduled id deadline handler)
  | .asked (.cancel id) _ => some (.cancelled id)
  | .asked (.send endpoint frame) _ => some (.sent endpoint frame)
  | _ => none

/-- The errands that have been run, oldest first. -/
def Machine.errands (m : Machine κ η σ τ ν) : List (Errand η) :=
  (m.trace.filterMap Entry.errand?).reverse

/-- The errands of a program that is started in the loop `m`. -/
def Machine.errandsOf (w : Wiring κ η σ τ ν) (m : Machine κ η σ τ ν)
    (p : Program κ η σ ν α) : List (Errand η) :=
  (m.run w p).2.errands.drop m.errands.length

variable {q q' q'' : TimerQueue η} {es es' : List (Errand η)}

/-! ## What errands do -/

/-- Errands turn the timers `q` into `q'`. -/
inductive Winds : TimerQueue η → List (Errand η) → TimerQueue η → Prop
  | nil {q : TimerQueue η} : Winds q [] q
  /-- A timer gets the next id. -/
  | scheduled {q q' : TimerQueue η} {es : List (Errand η)} (deadline : Nat) (handler : η)
      (rest : Winds (q.prune.schedule deadline handler).2 es q') :
      Winds q (.scheduled q.nextId deadline handler :: es) q'
  /-- A timer is cancelled. -/
  | cancelled {q q' : TimerQueue η} {es : List (Errand η)} (id : Nat)
      (rest : Winds (q.cancel id).2 es q') : Winds q (.cancelled id :: es) q'
  /-- Frames do nothing to timers. -/
  | sent {q q' : TimerQueue η} {es : List (Errand η)} (endpoint : Nat) (frame : Bytes)
      (rest : Winds q es q') : Winds q (.sent endpoint frame :: es) q'

theorem Winds.append (h : Winds q es q') (h' : Winds q' es' q'') : Winds q (es ++ es') q'' := by
  induction h with
  | nil => exact h'
  | scheduled deadline handler rest ih => exact .scheduled deadline handler (ih h')
  | cancelled id rest ih => exact .cancelled id (ih h')
  | sent endpoint frame rest ih => exact .sent endpoint frame (ih h')

/-- Each timer that is scheduled uses up an id. -/
theorem Winds.nextId (h : Winds q es q') :
    q'.nextId = q.nextId + (es.filterMap Errand.scheduled?).length := by
  induction h with
  | nil => rfl
  | @scheduled q q' es deadline handler rest ih =>
    have hlength : ((Errand.scheduled q.nextId deadline handler :: es).filterMap
        Errand.scheduled?).length = (es.filterMap Errand.scheduled?).length + 1 := rfl
    have hnext : (q.prune.schedule deadline handler).2.nextId = q.nextId + 1 := rfl
    rw [ih, hlength, hnext]
    omega
  | cancelled id rest ih =>
    rw [Machine.nextId_cancel] at ih
    exact ih
  | sent endpoint frame rest ih => exact ih

namespace Machine

/-- Between two states of the loop exactly these errands have been run. -/
structure Did (m : Machine κ η σ τ ν) (es : List (Errand η)) (m' : Machine κ η σ τ ν) : Prop where
  errands : m'.errands = m.errands ++ es
  timers : Winds m.timers es m'.timers

namespace Did

theorem refl (m : Machine κ η σ τ ν) : m.Did [] m := ⟨(List.append_nil _).symm, .nil⟩

theorem trans (h : m.Did es m') (h' : m'.Did es' m'') : m.Did (es ++ es') m'' where
  errands := by rw [h'.errands, h.errands, List.append_assoc]
  timers := h.timers.append h'.timers

/-- The errands of a program are those that it did. -/
theorem errandsOf_eq {p : Program κ η σ ν α} (h : m.Did es (m.run w p).2) :
    m.errandsOf w p = es := by
  rw [errandsOf, h.errands, List.drop_left]

end Did

/-! ## Requests -/

theorem did_update (f : σ → α × σ) (m : Machine κ η σ τ ν) :
    ∃ trace, m.run w (Program.update f) =
      (.ok (f m.world).1, { m with world := (f m.world).2, trace }) ∧
      m.Did [] { m with world := (f m.world).2, trace } :=
  ⟨_, rfl, (List.append_nil _).symm, .nil⟩

theorem did_world (m : Machine κ η σ τ ν) :
    ∃ trace, m.run w Program.world = (.ok m.world, { m with trace }) ∧
      m.Did [] { m with trace } :=
  ⟨_, rfl, (List.append_nil _).symm, .nil⟩

theorem did_cancel (timer : Nat) (m : Machine κ η σ τ ν) :
    ∃ cancelled trace, m.run w (Program.cancel timer) =
      (.ok cancelled, { m with timers := (m.timers.cancel timer).2, trace }) ∧
      m.Did [.cancelled timer] { m with timers := (m.timers.cancel timer).2, trace } :=
  ⟨_, _, rfl, List.reverse_cons, .cancelled timer .nil⟩

theorem did_schedule (deadline : Nat) (handler : η) (m : Machine κ η σ τ ν) :
    ∃ timers queue trace, m.run w (Program.schedule deadline handler) =
      (.ok m.timers.nextId, { m with timers, queue, trace }) ∧
      m.Did [.scheduled m.timers.nextId deadline handler] { m with timers, queue, trace } := by
  dsimp only [Program.schedule, Program.request, run, perform, answer, schedule]
  split <;> exact ⟨_, _, _, rfl, List.reverse_cons, .scheduled _ _ .nil⟩

theorem did_scheduleAfter {delay : Nat} (htimely : m.clock + delay < Time.limit) (handler : η) :
    ∃ timers queue trace, m.run w (Program.scheduleAfter delay handler) =
      (.ok m.timers.nextId, { m with timers, queue, trace }) ∧
      m.Did [.scheduled m.timers.nextId (m.clock + delay) handler]
        { m with timers, queue, trace } := by
  have hnow : m.run w Program.now = (.ok m.clock, m.record (.asked .now m.clock)) := rfl
  have hread : m.Did [] (m.record (.asked .now m.clock)) := ⟨(List.append_nil _).symm, .nil⟩
  obtain ⟨timers, queue, trace, hrun, hdid⟩ := did_schedule (w := w) (m.clock + delay) handler
    (m.record (.asked .now m.clock))
  unfold Program.scheduleAfter
  rw [run_bind_of_ok _ hnow, Time.add?_eq_some_iff.2 ⟨rfl, htimely⟩]
  exact ⟨timers, queue, trace, hrun, hread.trans hdid⟩

theorem did_send (endpoint : Nat) (frame : Bytes) (m : Machine κ η σ τ ν) :
    ∃ links queue trace, m.run w (Program.send endpoint frame) =
      (.ok (m.send w endpoint frame).1.fault?, { m with links, queue, trace }) ∧
      m.Did [.sent endpoint frame] { m with links, queue, trace } := by
  obtain ⟨links, queue, hsend⟩ := send_eq (w := w) m endpoint frame
  refine ⟨links, queue, .asked (.send endpoint frame) (m.send w endpoint frame).1 :: m.trace, ?_,
    List.reverse_cons, .sent endpoint frame .nil⟩
  show (Except.ok (m.send w endpoint frame).1.fault?, (m.send w endpoint frame).2.record _) = _
  rw [hsend]
  rfl

end Machine

end LeaseLock.Reactor
