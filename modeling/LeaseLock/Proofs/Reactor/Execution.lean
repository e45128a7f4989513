import LeaseLock.Proofs.Reactor

/-
  LeaseLock: the event loop in the course of time.
  An `Execution` is any sequence of the things that the loop does one at a time, and of requests
  that are answered at any point between them, whoever makes them: handlers of whatever kind,
  crashed or not, connections, or others beside the loop.  It keeps what has happened as a list of
  `Moment`s, oldest first.  Programs, hand-overs, rounds and the loop left to itself make up such
  executions (`Execution.program` to `Execution.settle`).  What has happened up to some moment is an
  execution too, and the moment fits the loop as it was then (`Execution.split`); so a fact about a
  moment comes from an invariant of the loop just before it.
-/

namespace LeaseLock.Reactor

variable {κ η σ τ ν α : Type} {w : Wiring κ η σ τ ν} {m : Machine κ η σ τ ν}

/-! ## Events and signals -/

/-- The endpoint that an event is about. -/
def Event.endpoint? : Event → Option Nat
  | .data endpoint _ => some endpoint
  | .state endpoint _ => some endpoint
  | .timer _ => none

/-- The endpoint whose connection has ended, if an event tells of that. -/
def Event.closes? : Event → Option Nat
  | .state endpoint s => if s.isTerminal then some endpoint else none
  | _ => none

/-- The event of a signal. -/
def Signal.event? : Signal → Option Event
  | .event e => some e
  | .wake => none

/-! ## Moments -/

/-- A thing that happens in the loop. -/
inductive Moment (κ η σ ν : Type) where
  /-- A request was answered; these events joined the queue with it. -/
  | asked (request : Request κ η σ ν) (answer : request.Answer) (arrivals : List Event)
  /-- The timers that were due at an instant were taken out. -/
  | collected (now : Nat) (batch : List (Nat × η))
  /-- A timer was handed to its handler, when the clock showed this. -/
  | fired (clock timer : Nat) (handler : η)
  /-- An event was taken off the queue and handed to this handler, or dropped. -/
  | taken (event : Event) (handler : Option η)
  /-- The loop ended. -/
  | ended

namespace Machine

/-- The events that join the queue when a request is answered. -/
def arrivals (w : Wiring κ η σ τ ν) (m : Machine κ η σ τ ν) (r : Request κ η σ ν) : List Event :=
  ((m.answer w r).2.queue.drop m.queue.length).filterMap Signal.event?

/-- The handler of the endpoint that an event is about. -/
def receiver? (m : Machine κ η σ τ ν) (e : Event) : Option η :=
  (e.endpoint?.bind m.endpoints.get?).map (·.handler)

/-- The loop when an event has been handed to a handler that has done nothing yet. -/
def handOver (m : Machine κ η σ τ ν) (e : Event) (handler : η) : Machine κ η σ τ ν :=
  { m with endpoints := match e.closes? with
      | some endpoint => m.endpoints.erase endpoint
      | none => m.endpoints }.record (.invoked handler e)

/-- An endpoint is gone when the event of its end is handed over. -/
theorem get?_handOver (m : Machine κ η σ τ ν) (e : Event) (handler : η) (endpoint : Nat) :
    (m.handOver e handler).endpoints.get? endpoint =
      if e.closes? == some endpoint then none else m.endpoints.get? endpoint := by
  unfold handOver record
  dsimp only
  cases e.closes? with
  | none => rfl
  | some closed =>
    dsimp only
    rw [Table.get?_erase]
    by_cases hclosed : endpoint = closed
    · simp [hclosed]
    · simp [hclosed, Ne.symm hclosed]

/-- An event is handed to its receiver, who does what he does with it, or it is dropped. -/
theorem dispatch_eq (m : Machine κ η σ τ ν) (e : Event) : m.dispatch w e =
    match m.receiver? e with
    | some handler => ((m.handOver e handler).run w (w.handle handler e)).2
    | none => m := by
  cases e with
  | timer id => rfl
  | data endpoint payload =>
    unfold dispatch receiver?
    dsimp only [Event.endpoint?, Option.bind_some]
    cases m.endpoints.get? endpoint <;> rfl
  | state endpoint s =>
    unfold dispatch receiver? handOver invoke
    dsimp only [Event.endpoint?, Event.closes?, Option.bind_some]
    cases m.endpoints.get? endpoint with
    | none => rfl
    | some x => cases s.isTerminal <;> rfl

end Machine

/-! ## Executions -/

/-- Where the loop is: at its head, or in a round with these timers left to hand over. -/
inductive Duty (η : Type) where
  /-- At its head, between two rounds. -/
  | head
  /-- In a round. -/
  | round (batch : List (Nat × η))

/-- The timers that have been taken out and are still to be handed over. -/
def Duty.batch : Duty η → List (Nat × η)
  | .head => []
  | .round batch => batch

/-- The loop has come this far, through these moments. -/
inductive Execution (w : Wiring κ η σ τ ν) :
    List (Moment κ η σ ν) → Duty η → Machine κ η σ τ ν → Prop
  /-- At the start. -/
  | start (world : σ) (links : τ) : Execution w [] .head (.start world links)
  /-- Somebody makes a request. -/
  | ask {hs : List (Moment κ η σ ν)} {duty : Duty η} {m : Machine κ η σ τ ν}
      (before : Execution w hs duty m) (r : Request κ η σ ν) :
      Execution w (hs ++ [.asked r (m.answer w r).1 (m.arrivals w r)]) duty (m.perform w r).2
  /-- A round begins: the timers that were due when the loop looked at the clock are taken out.  The
  clock may have moved since. -/
  | collect {hs : List (Moment κ η σ ν)} {m : Machine κ η σ τ ν} {now : Nat}
      (before : Execution w hs .head m) (running : m.phase = .running) (read : now ≤ m.clock) :
      Execution w (hs ++ [.collected now (m.timers.popDue now).1])
        (.round (m.timers.popDue now).1) { m with timers := (m.timers.popDue now).2 }
  /-- The next of them is handed over. -/
  | fire {hs : List (Moment κ η σ ν)} {id : Nat} {handler : η} {batch : List (Nat × η)}
      {m : Machine κ η σ τ ν} (before : Execution w hs (.round ((id, handler) :: batch)) m) :
      Execution w (hs ++ [.fired m.clock id handler]) (.round batch)
        (m.record (.invoked handler (.timer id)))
  /-- The queue is empty; the round ends. -/
  | idle {hs : List (Moment κ η σ ν)} {m : Machine κ η σ τ ν}
      (before : Execution w hs (.round []) m) (empty : m.queue = []) : Execution w hs .head m
  /-- The next signal is a call to look at the timers again; the round ends. -/
  | wake {hs : List (Moment κ η σ ν)} {m : Machine κ η σ τ ν} {rest : List Signal}
      (before : Execution w hs (.round []) m) (next : m.queue = .wake :: rest) :
      Execution w hs .head { m with queue := rest }
  /-- The next signal is an event that is handed to the handler of its endpoint. -/
  | take {hs : List (Moment κ η σ ν)} {m : Machine κ η σ τ ν} {e : Event} {rest : List Signal}
      {handler : η} (before : Execution w hs (.round []) m) (next : m.queue = .event e :: rest)
      (receiver : m.receiver? e = some handler) :
      Execution w (hs ++ [.taken e (some handler)]) .head
        ({ m with queue := rest }.handOver e handler)
  /-- The next signal is an event that nobody is there for. -/
  | drop {hs : List (Moment κ η σ ν)} {m : Machine κ η σ τ ν} {e : Event} {rest : List Signal}
      (before : Execution w hs (.round []) m) (next : m.queue = .event e :: rest)
      (nobody : m.receiver? e = none) :
      Execution w (hs ++ [.taken e none]) .head { m with queue := rest }
  /-- The loop was asked to end, and ends. -/
  | finish {hs : List (Moment κ η σ ν)} {m : Machine κ η σ τ ν}
      (before : Execution w hs .head m) (stopping : m.phase = .stopping) :
      Execution w (hs ++ [.ended]) .head m.finish

/-! ## Answers -/

namespace Machine

/-- The endpoints when a request has been answered. -/
def endpointsAfter (m : Machine κ η σ τ ν) : Request κ η σ ν → Table (Endpoint κ η)
  | .register link handler => m.endpoints.insert m.nextEndpoint ⟨link, handler⟩
  | .deregister endpoint => m.endpoints.erase endpoint
  | _ => m.endpoints

/-- The id of the next endpoint when a request has been answered. -/
def nextEndpointAfter (m : Machine κ η σ τ ν) : Request κ η σ ν → Nat
  | .register _ _ => m.nextEndpoint + 1
  | _ => m.nextEndpoint

/-- The timers when a request has been answered. -/
def timersAfter (m : Machine κ η σ τ ν) : Request κ η σ ν → TimerQueue η
  | .schedule deadline handler => (m.timers.prune.schedule deadline handler).2
  | .cancel timer => (m.timers.cancel timer).2
  | _ => m.timers

/-- What a request changes: `m'` is the loop that has answered it. -/
structure Answered (m : Machine κ η σ τ ν) (r : Request κ η σ ν) (m' : Machine κ η σ τ ν) :
    Prop where
  endpoints : m'.endpoints = m.endpointsAfter r
  nextEndpoint : m'.nextEndpoint = m.nextEndpointAfter r
  timers : m'.timers = m.timersAfter r
  /-- The clock does not go back. -/
  clock : m.clock ≤ m'.clock
  /-- Signals join the queue at its end; events join it only before the loop is asked to end. -/
  queue : ∃ new, m'.queue = m.queue ++ new ∧
    (m.phase ≠ .running → new.filterMap Signal.event? = [])
  /-- No request ends the loop, or starts it again. -/
  stopped : m'.phase = .stopped ↔ m.phase = .stopped

theorem deliverAll_queue (m : Machine κ η σ τ ν) (events : List Event) :
    (m.deliverAll events).2 =
      { m with queue := m.queue ++ if m.phase = .running then events.map .event else [] } := by
  induction events generalizing m with
  | nil => simp [deliverAll]
  | cons e rest ih =>
    show ((m.deliver e).2.deliverAll rest).2 = _
    rw [ih]
    unfold deliver signal
    cases hphase : m.phase <;> simp [hphase]

theorem filterMap_event?_queued (m : Machine κ η σ τ ν) (events : List Event)
    (hphase : m.phase ≠ .running) : (if m.phase = .running then events.map Signal.event
      else []).filterMap Signal.event? = [] := by
  rw [if_neg hphase]
  rfl

theorem answered_answer (w : Wiring κ η σ τ ν) (m : Machine κ η σ τ ν) (r : Request κ η σ ν) :
    m.Answered r (m.answer w r).2 := by
  have hnone : ∃ new, m.queue = m.queue ++ new ∧
      (m.phase ≠ .running → new.filterMap Signal.event? = []) :=
    ⟨[], (List.append_nil _).symm, fun _ => rfl⟩
  cases r with
  | send endpoint frame =>
    show m.Answered _ (m.send w endpoint frame).2
    unfold send
    split
    · exact ⟨rfl, rfl, rfl, Nat.le_refl _, hnone, .rfl⟩
    · dsimp only
      rw [deliverAll_queue]
      exact ⟨rfl, rfl, rfl, Nat.le_refl _, ⟨_, rfl, m.filterMap_event?_queued _⟩, .rfl⟩
  | deliver event =>
    have hone : (m.deliver event).2 = (m.deliverAll [event]).2 := rfl
    show m.Answered _ (m.deliver event).2
    rw [hone, deliverAll_queue]
    exact ⟨rfl, rfl, rfl, Nat.le_refl _, ⟨_, rfl, m.filterMap_event?_queued _⟩, .rfl⟩
  | schedule deadline handler =>
    show m.Answered _ (m.schedule deadline handler).2
    unfold schedule
    dsimp only
    split
    · exact ⟨rfl, rfl, rfl, Nat.le_refl _, ⟨[.wake], rfl, fun _ => rfl⟩, .rfl⟩
    · exact ⟨rfl, rfl, rfl, Nat.le_refl _, hnone, .rfl⟩
  | elapse duration =>
    dsimp only [answer]
    split
    · rename_i clock hadd
      exact ⟨rfl, rfl, rfl, Time.le_of_add? hadd, hnone, .rfl⟩
    · exact ⟨rfl, rfl, rfl, Nat.le_refl _, hnone, .rfl⟩
  | shutdown =>
    refine ⟨rfl, rfl, rfl, Nat.le_refl _, ⟨[.wake], rfl, fun _ => rfl⟩, ?_⟩
    dsimp only [answer, shutdown, signal]
    cases m.phase <;> simp
  | register | deregister | link | cancel | now | isShutdown | pendingTimers | endpointCount
  | world | remember | note => exact ⟨rfl, rfl, rfl, Nat.le_refl _, hnone, .rfl⟩

/-- The queue grows by what arrives. -/
theorem events_answer (w : Wiring κ η σ τ ν) (m : Machine κ η σ τ ν) (r : Request κ η σ ν) :
    (m.answer w r).2.queue.filterMap Signal.event? =
      m.queue.filterMap Signal.event? ++ m.arrivals w r := by
  obtain ⟨new, hqueue, -⟩ := (m.answered_answer w r).queue
  unfold arrivals
  rw [hqueue, List.drop_left, List.filterMap_append]

/-- Nothing arrives once the loop was asked to end. -/
theorem arrivals_of_not_running (w : Wiring κ η σ τ ν) (hphase : m.phase ≠ .running)
    (r : Request κ η σ ν) : m.arrivals w r = [] := by
  obtain ⟨new, hqueue, hnew⟩ := (m.answered_answer w r).queue
  unfold arrivals
  rw [hqueue, List.drop_left]
  exact hnew hphase

end Machine

/-- The end of the loop, but for the trace. -/
theorem Machine.finish_eq (m : Machine κ η σ τ ν) : ∃ trace, m.finish =
    { m with endpoints := ∅, timers := .empty, queue := [], phase := .stopped, trace } := by
  have hfold : ∀ (es : List (Nat × Endpoint κ η)) (m : Machine κ η σ τ ν), ∃ trace,
      es.foldl (fun m e => m.record (.closed e.1 e.2.link)) m = { m with trace } := by
    intro es
    induction es with
    | nil => exact fun m => ⟨m.trace, rfl⟩
    | cons e rest ih => exact fun m => ih (m.record (.closed e.1 e.2.link))
  exact hfold _ _

/-! ## Moments in an execution -/

/-- A moment fits the loop `m` just before it. -/
def Moment.Fits (w : Wiring κ η σ τ ν) (duty : Duty η) (m : Machine κ η σ τ ν) :
    Moment κ η σ ν → Prop
  | .asked r answer arrivals => answer = (m.answer w r).1 ∧ arrivals = m.arrivals w r
  | .collected now batch => now ≤ m.clock ∧ batch = (m.timers.popDue now).1 ∧ duty = .head
  | .fired clock id handler => clock = m.clock ∧ ∃ rest, duty = .round ((id, handler) :: rest)
  | .taken e handler => handler = m.receiver? e
  | .ended => m.phase = .stopping

theorem filterMap_concat {β γ : Type} (f : β → Option γ) (l : List β) (a : β) :
    (l ++ [a]).filterMap f = l.filterMap f ++ (f a).toList := by
  rw [List.filterMap_append]
  cases h : f a <;> simp [h]

theorem eq_or_mem_of_concat_eq {β : Type} {hs before after : List β} {x y : β}
    (h : hs ++ [y] = before ++ x :: after) :
    hs = before ∧ y = x ∨ ∃ after', hs = before ++ x :: after' := by
  rcases List.eq_nil_or_concat after with rfl | ⟨after', z, rfl⟩
  · obtain ⟨hbefore, hlast⟩ := List.append_inj' h rfl
    exact .inl ⟨hbefore, (List.cons.inj hlast).1⟩
  · rw [List.concat_eq_append, ← List.cons_append, ← List.append_assoc] at h
    exact .inr ⟨after', (List.append_inj' h rfl).1⟩

namespace Execution

variable {hs before after : List (Moment κ η σ ν)} {duty : Duty η} {x : Moment κ η σ ν}
  {batch : List (Nat × η)}

/-- What has happened before some moment of an execution is an execution, and the moment fits. -/
theorem split (h : Execution w hs duty m) (heq : hs = before ++ x :: after) :
    ∃ duty₀ m₀, Execution w before duty₀ m₀ ∧ x.Fits w duty₀ m₀ := by
  induction h generalizing after with
  | start world links => cases List.append_ne_nil_of_right_ne_nil _ (List.cons_ne_nil _ _) heq.symm
  | ask prior r ih =>
    rcases eq_or_mem_of_concat_eq heq with ⟨rfl, rfl⟩ | ⟨after', heq⟩
    · exact ⟨_, _, prior, rfl, rfl⟩
    · exact ih heq
  | collect prior running read ih =>
    rcases eq_or_mem_of_concat_eq heq with ⟨rfl, rfl⟩ | ⟨after', heq⟩
    · exact ⟨_, _, prior, read, rfl, rfl⟩
    · exact ih heq
  | fire prior ih =>
    rcases eq_or_mem_of_concat_eq heq with ⟨rfl, rfl⟩ | ⟨after', heq⟩
    · exact ⟨_, _, prior, rfl, _, rfl⟩
    · exact ih heq
  | idle prior empty ih => exact ih heq
  | wake prior next ih => exact ih heq
  | take prior next receiver ih =>
    rcases eq_or_mem_of_concat_eq heq with ⟨rfl, rfl⟩ | ⟨after', heq⟩
    · exact ⟨_, _, prior, receiver.symm⟩
    · exact ih heq
  | drop prior next nobody ih =>
    rcases eq_or_mem_of_concat_eq heq with ⟨rfl, rfl⟩ | ⟨after', heq⟩
    · exact ⟨_, _, prior, nobody.symm⟩
    · exact ih heq
  | finish prior stopping ih =>
    rcases eq_or_mem_of_concat_eq heq with ⟨rfl, rfl⟩ | ⟨after', heq⟩
    · exact ⟨_, _, prior, stopping⟩
    · exact ih heq

/-! ## The loop -/

/-- What a program asks for belongs to an execution. -/
theorem program (h : Execution w hs duty m) (p : Program κ η σ ν α) :
    ∃ hs', Execution w (hs ++ hs') duty (m.run w p).2 := by
  induction p generalizing hs m with
  | done a => exact ⟨[], by rw [List.append_nil]; exact h⟩
  | crash c => exact ⟨[], by rw [List.append_nil]; exact h⟩
  | ask r next ih =>
    obtain ⟨hs', hrest⟩ := ih _ (h.ask r)
    rw [List.append_assoc] at hrest
    exact ⟨_, hrest⟩

/-- So do the timers of a batch, with what their handlers ask for. -/
theorem invokeAll (h : Execution w hs (.round batch) m) :
    ∃ hs', Execution w (hs ++ hs') (.round [])
      (batch.foldl (fun m timer => m.invoke w timer.2 (.timer timer.1)) m) := by
  induction batch generalizing hs m with
  | nil => exact ⟨[], by rw [List.append_nil]; exact h⟩
  | cons timer rest ih =>
    obtain ⟨hs₁, hfirst⟩ := h.fire.program (w.handle timer.2 (.timer timer.1))
    obtain ⟨hs₂, hrest⟩ := ih hfirst
    rw [List.append_assoc, List.append_assoc] at hrest
    exact ⟨_, hrest⟩

theorem fire_timers (h : Execution w hs .head m) (running : m.phase = .running) :
    ∃ hs', Execution w (hs ++ hs') (.round []) (m.fire w) := by
  obtain ⟨hs', hfired⟩ := (h.collect running (Nat.le_refl _)).invokeAll
  rw [List.append_assoc] at hfired
  exact ⟨_, hfired⟩

theorem take_signal (h : Execution w hs (.round []) m) :
    ∃ hs', Execution w (hs ++ hs') .head (m.takeSignal w) := by
  unfold Machine.takeSignal
  split
  · rename_i hqueue
    exact ⟨[], by rw [List.append_nil]; exact h.idle hqueue⟩
  · rename_i rest hqueue
    exact ⟨[], by rw [List.append_nil]; exact h.wake hqueue⟩
  · rename_i e rest hqueue
    rw [Machine.dispatch_eq]
    cases hreceiver : m.receiver? e with
    | none =>
      have hreceiver' : { m with queue := rest }.receiver? e = none := hreceiver
      rw [hreceiver']
      exact ⟨_, h.drop hqueue hreceiver⟩
    | some handler =>
      have hreceiver' : { m with queue := rest }.receiver? e = some handler := hreceiver
      rw [hreceiver']
      obtain ⟨hs', hrun⟩ := (h.take hqueue hreceiver).program (w.handle handler e)
      rw [List.append_assoc] at hrun
      exact ⟨_, hrun⟩

/-- A round of the loop goes on with an execution. -/
theorem round (h : Execution w hs .head m) (running : m.phase = .running) :
    ∃ hs', Execution w (hs ++ hs') .head (m.round w) := by
  obtain ⟨hs₁, hfired⟩ := h.fire_timers running
  obtain ⟨hs₂, htaken⟩ := hfired.take_signal
  rw [List.append_assoc] at htaken
  exact ⟨_, htaken⟩

/-- So does the loop that is left to itself. -/
theorem settle (h : Execution w hs .head m) (rounds : Nat) :
    ∃ hs', Execution w (hs ++ hs') .head (m.settle w rounds) := by
  have hstay : ∃ hs', Execution w (hs ++ hs') .head m := ⟨[], by rw [List.append_nil]; exact h⟩
  induction rounds generalizing hs m with
  | zero => exact hstay
  | succ rounds ih =>
    unfold Machine.settle
    split
    · exact hstay
    · rename_i hphase
      exact ⟨_, h.finish hphase⟩
    · rename_i hphase
      split
      · exact hstay
      · obtain ⟨hs₁, hround⟩ := h.round hphase
        obtain ⟨hs₂, hrest⟩ := ih hround ⟨[], by rw [List.append_nil]; exact hround⟩
        rw [List.append_assoc] at hrest
        exact ⟨_, hrest⟩

end Execution

end LeaseLock.Reactor
