import LeaseLock.Coordinator.Operation
import Mathlib.Data.List.Basic
import Mathlib.Data.List.Induction
import Mathlib.Order.Basic

/-
  LeaseLock: operations inside operations.
  The answers of an operation are delivered after it has changed the state, and the receiver of an
  answer may call operations itself before the next answer is delivered.  `Nested.Run` is such a
  run, with the operations under way on a stack; a receiver decides freely what it calls, so a run
  is given by its moves.  `Nested.flat` carries out operations one after another and nobody reacts.
  A nested run comes to the same state, results, answers and events as the flat run of its
  operations in the order of their starts, and publishes all events of an operation first
  (`Nested.Run.same_as_flat`).

  The invariant (`Follows`) says this of a run at any point, with what the stack still owes.
-/

namespace LeaseLock.Coordinator.Nested

variable {ρ : Type}

/-! ## Nested runs -/

/-- An operation under way.  It has changed the state already. -/
structure Frame (ρ : Type) where
  /-- The place of the operation in the order of the starts. -/
  call : Nat
  /-- What it will return. -/
  result : Result
  /-- The events that are still to be published. -/
  events : List LockEvent
  /-- The answers that are still to be delivered. -/
  answers : List (ρ × Answer)
  /-- Whether the receiver of an answer is at work. -/
  telling : Bool

/-- An entry of the log of a run; each names the operation it belongs to. -/
inductive Entry (ρ : Type) where
  /-- An operation has been started. -/
  | started (call : Nat) (op : Operation ρ)
  /-- An event has been published. -/
  | published (call : Nat) (e : LockEvent)
  /-- An answer has been delivered. -/
  | answered (call : Nat) (reply : ρ) (a : Answer)
  /-- An operation has returned. -/
  | returned (call : Nat) (r : Result)

/-- Go on with an operation under way: publish the next event, or deliver the next answer once all
events are out, or return once all answers are delivered. -/
def Frame.proceed (f : Frame ρ) : Entry ρ × Option (Frame ρ) :=
  match f.events, f.answers with
  | e :: events, _ => (.published f.call e, some { f with events })
  | [], (reply, a) :: answers =>
    (.answered f.call reply a, some { f with answers, telling := true })
  | [], [] => (.returned f.call f.result, none)

/-- A run under way. -/
structure Run (ρ : Type) where
  /-- The coordinator. -/
  state : State ρ
  /-- The number of operations that have been started. -/
  calls : Nat
  /-- The operations under way, innermost first. -/
  stack : List (Frame ρ)
  /-- What has happened, in order. -/
  log : List (Entry ρ)

/-- A move of a run. -/
inductive Move (ρ : Type) where
  /-- Start an operation. -/
  | call (op : Operation ρ)
  /-- Go on with the innermost operation; if the receiver of an answer is at work, it is done. -/
  | proceed

namespace Run

/-- A run at its start. -/
def start (s : State ρ) : Run ρ := ⟨s, 0, [], []⟩

/-- Whether somebody can start an operation: no operation is under way, or the receiver of an
answer of the innermost one is at work. -/
def open? (n : Run ρ) : Bool :=
  match n.stack with
  | [] => true
  | f :: _ => f.telling

/-- Start an operation. -/
def call (n : Run ρ) (op : Operation ρ) : Run ρ :=
  let (result, turn) := n.state.perform op
  { state := turn.state
    calls := n.calls + 1
    stack := ⟨n.calls, result, turn.events, turn.answers, false⟩ :: n.stack
    log := n.log ++ [.started n.calls op] }

/-- Make a move, if it is possible. -/
def step (n : Run ρ) : Move ρ → Option (Run ρ)
  | .call op => if n.open? then some (n.call op) else none
  | .proceed =>
    match n.stack with
    | [] => none
    | f :: rest =>
      some { n with stack := f.proceed.2.toList ++ rest, log := n.log ++ [f.proceed.1] }

/-- Make moves in order, if they are possible. -/
def follow (n : Run ρ) : List (Move ρ) → Option (Run ρ)
  | [] => some n
  | m :: moves => (n.step m).bind fun n' => n'.follow moves

end Run

/-! ## What a log tells -/

namespace Entry

/-- The operation that an entry starts. -/
def operation? : Entry ρ → Option (Operation ρ)
  | .started _ op => some op
  | _ => none

/-- The event that an entry publishes, with its operation. -/
def event? : Entry ρ → Option (Nat × LockEvent)
  | .published call e => some (call, e)
  | _ => none

/-- The answer of an operation that an entry delivers. -/
def answer? (call : Nat) : Entry ρ → Option (ρ × Answer)
  | .answered c reply a => if c = call then some (reply, a) else none
  | _ => none

/-- What an operation returns in an entry. -/
def result? (call : Nat) : Entry ρ → Option Result
  | .returned c r => if c = call then some r else none
  | _ => none

/-- Whether `a` may come before `b`: an event comes before the answers of its operation and before
the starts of all later operations. -/
def Permits : Entry ρ → Entry ρ → Prop
  | .answered i _ _, .published j _ => i ≠ j
  | .started i _, .published j _ => i ≤ j
  | _, _ => True

end Entry

namespace Run

/-- The operations in the order of their starts. -/
def started (n : Run ρ) : List (Operation ρ) := n.log.filterMap Entry.operation?

/-- The events in order. -/
def events (n : Run ρ) : List (Nat × LockEvent) := n.log.filterMap Entry.event?

/-- The answers of an operation in order. -/
def answers (n : Run ρ) (call : Nat) : List (ρ × Answer) := n.log.filterMap (Entry.answer? call)

/-- What an operation has returned. -/
def results (n : Run ρ) (call : Nat) : List Result := n.log.filterMap (Entry.result? call)

end Run

/-! ## Flat runs -/

/-- Carry out an operation without anybody reacting. -/
def Run.alone (n : Run ρ) (op : Operation ρ) : Run ρ :=
  let (result, turn) := n.state.perform op
  { state := turn.state
    calls := n.calls + 1
    stack := n.stack
    log := n.log ++ (.started n.calls op :: turn.events.map (.published n.calls) ++
      turn.answers.map (fun p => .answered n.calls p.1 p.2) ++ [.returned n.calls result]) }

/-- Carry out operations one after another without anybody reacting. -/
def flat (s : State ρ) (ops : List (Operation ρ)) : Run ρ := ops.foldl Run.alone (.start s)

theorem flat_append (s : State ρ) (ops : List (Operation ρ)) (op : Operation ρ) :
    flat s (ops ++ [op]) = (flat s ops).alone op := by
  simp [flat]

section
variable (n : Run ρ) (op : Operation ρ)

@[simp]
theorem Run.alone_state : (n.alone op).state = (n.state.perform op).2.state := rfl

@[simp]
theorem Run.alone_calls : (n.alone op).calls = n.calls + 1 := rfl

@[simp]
theorem Run.alone_events : (n.alone op).events =
    n.events ++ (n.state.perform op).2.events.map (n.calls, ·) := by
  simp [Run.events, Run.alone, Entry.event?, List.filterMap_cons, List.filterMap_map,
    Function.comp_def]

@[simp]
theorem Run.alone_answers (call : Nat) : (n.alone op).answers call =
    n.answers call ++ if n.calls = call then (n.state.perform op).2.answers else [] := by
  by_cases h : n.calls = call <;>
    simp [Run.answers, Run.alone, Entry.answer?, List.filterMap_cons, List.filterMap_map,
      Function.comp_def, h]

@[simp]
theorem Run.alone_results (call : Nat) : (n.alone op).results call =
    n.results call ++ if n.calls = call then [(n.state.perform op).1] else [] := by
  by_cases h : n.calls = call <;>
    simp [Run.results, Run.alone, Entry.result?, List.filterMap_cons, List.filterMap_map,
      Function.comp_def, h]

end

/-! ## The moves -/

/-- What a move does. -/
inductive Step : Run ρ → Run ρ → Prop where
  /-- An operation starts. -/
  | call (n : Run ρ) (op : Operation ρ) (hopen : n.open? = true) : Step n (n.call op)
  /-- The innermost operation goes on. -/
  | proceed (s : State ρ) (calls : Nat) (f : Frame ρ) (rest : List (Frame ρ))
      (log : List (Entry ρ)) :
    Step ⟨s, calls, f :: rest, log⟩ ⟨s, calls, f.proceed.2.toList ++ rest, log ++ [f.proceed.1]⟩

theorem Run.step_cases {n n' : Run ρ} {m : Move ρ} (h : n.step m = some n') : Step n n' := by
  obtain ⟨s, calls, stack, log⟩ := n
  cases m with
  | call op =>
    obtain ⟨hopen, heq⟩ := Option.ite_none_right_eq_some.1 h
    cases heq
    exact .call _ op hopen
  | proceed =>
    cases stack with
    | nil => cases h
    | cons f rest =>
      cases h
      exact .proceed s calls f rest log

/-- What every move keeps holds of every run. -/
theorem Run.follow_keeps {P : Run ρ → Prop} (hstep : ∀ {n n'}, P n → Step n n' → P n')
    {n n' : Run ρ} {moves : List (Move ρ)} (h : n.follow moves = some n') (hn : P n) : P n' := by
  induction moves generalizing n with
  | nil =>
    cases h
    exact hn
  | cons m moves ih =>
    obtain ⟨n₁, h₁, hrest⟩ := Option.bind_eq_some_iff.1 h
    exact ih hrest (hstep hn (step_cases h₁))

theorem Run.follow_append (n : Run ρ) (moves more : List (Move ρ)) :
    n.follow (moves ++ more) = (n.follow moves).bind fun n' => n'.follow more := by
  induction moves generalizing n with
  | nil => rfl
  | cons m moves ih =>
    simp only [List.cons_append, follow, Option.bind_assoc]
    exact congrArg _ (funext ih)

/-- The innermost operation publishes its events. -/
theorem Run.follow_publish (s : State ρ) (calls call : Nat) (result : Result)
    (events : List LockEvent) (answers : List (ρ × Answer)) (telling : Bool)
    (rest : List (Frame ρ)) (log : List (Entry ρ)) :
    (Run.mk s calls (⟨call, result, events, answers, telling⟩ :: rest) log).follow
      (List.replicate events.length .proceed) =
    some ⟨s, calls, ⟨call, result, [], answers, telling⟩ :: rest,
      log ++ events.map (.published call)⟩ := by
  induction events generalizing log with
  | nil => simp [follow]
  | cons e events ih =>
    refine (ih (log ++ [.published call e])).trans ?_
    rw [List.append_assoc]
    rfl

/-- With no event left, it delivers its answers while nobody reacts. -/
theorem Run.follow_tell (s : State ρ) (calls call : Nat) (result : Result)
    (answers : List (ρ × Answer)) (telling : Bool) (rest : List (Frame ρ))
    (log : List (Entry ρ)) :
    (Run.mk s calls (⟨call, result, [], answers, telling⟩ :: rest) log).follow
      (List.replicate (answers.length + 1) .proceed) =
    some ⟨s, calls, rest, log ++ (answers.map (fun p => .answered call p.1 p.2) ++
      [.returned call result])⟩ := by
  induction answers generalizing telling log with
  | nil => rfl
  | cons p answers ih =>
    refine (ih true (log ++ [.answered call p.1 p.2])).trans ?_
    rw [List.append_assoc]
    rfl

/-- A flat run is the run in which nobody reacts. -/
theorem flat_follow (s : State ρ) (ops : List (Operation ρ)) :
    ∃ moves, (Run.start s).follow moves = some (flat s ops) ∧ (flat s ops).stack = [] := by
  induction ops using List.reverseRecOn with
  | nil => exact ⟨[], rfl, rfl⟩
  | append_singleton ops op ih =>
    obtain ⟨moves, hmoves, hstack⟩ := ih
    rw [flat_append]
    refine ⟨moves ++ (.call op ::
      (List.replicate ((flat s ops).state.perform op).2.events.length .proceed ++
        List.replicate (((flat s ops).state.perform op).2.answers.length + 1) .proceed)),
      ?_, hstack⟩
    generalize flat s ops = n at hmoves hstack
    have hcall : n.step (.call op) = some (n.call op) := by simp [Run.step, Run.open?, hstack]
    rw [Run.follow_append, hmoves, Option.bind_some, Run.follow, hcall, Option.bind_some,
      Run.follow_append, Run.call, Run.follow_publish, Option.bind_some, Run.follow_tell]
    simp [Run.alone]

/-! ## Order -/

/-- The order of a run so far. -/
structure Ordered (n : Run ρ) : Prop where
  /-- Of two operations under way the inner one was started later. -/
  descending : n.stack.Pairwise fun f g => g.call < f.call
  /-- Numbers of operations under way have been given out. -/
  below : ∀ f ∈ n.stack, f.call < n.calls
  /-- An operation that has events to publish is the latest one and has told nobody. -/
  silent : ∀ f ∈ n.stack, f.events ≠ [] → f.call + 1 = n.calls ∧ f.telling = false
  /-- Its events can still be added to the log. -/
  ready : ∀ f ∈ n.stack, f.events ≠ [] → ∀ a ∈ n.log, ∀ e, a.Permits (.published f.call e)
  /-- So can the events of operations that have not been started. -/
  known : ∀ a ∈ n.log, ∀ k, n.calls ≤ k → ∀ e, a.Permits (.published k e)
  /-- The log is in order. -/
  log : n.log.Pairwise Entry.Permits

/-- What is left of an operation that goes on is the same operation, with events only if it had
some. -/
theorem Frame.call_proceed {f g : Frame ρ} (h : g ∈ f.proceed.2) :
    g.call = f.call ∧ (g.events ≠ [] → f.events ≠ [] ∧ g.telling = f.telling) := by
  unfold proceed at h
  split at h
  · cases h
    simp_all
  · cases h
    simp_all
  · cases h

/-- An operation that goes on does not start another, and publishes only if it has events. -/
theorem Frame.permits_proceed (f : Frame ρ) {a : Entry ρ}
    (h : f.events ≠ [] → ∀ e, a.Permits (.published f.call e)) : a.Permits f.proceed.1 := by
  unfold proceed
  split
  · rename_i e _ hev
    exact h (hev ▸ List.cons_ne_nil e _) e
  · cases a <;> trivial
  · cases a <;> trivial

/-- What it adds to the log comes before other events, and before its own if it has some. -/
theorem Frame.proceed_permits (f : Frame ρ) {k : Nat} (h : f.call = k → f.events ≠ [])
    (e : LockEvent) : f.proceed.1.Permits (.published k e) := by
  unfold proceed
  split
  · trivial
  · rename_i hev _
    exact fun heq => h heq hev
  · trivial

namespace Ordered

variable {n n' : Run ρ}

theorem start (s : State ρ) : Ordered (.start s) := by
  constructor <;> simp [Run.start]

/-- Only the innermost operation may have events to publish. -/
theorem outer_silent {s : State ρ} {calls : Nat} {f : Frame ρ} {rest : List (Frame ρ)}
    {log : List (Entry ρ)} (h : Ordered ⟨s, calls, f :: rest, log⟩) :
    ∀ g ∈ rest, g.events = [] := by
  intro g hg
  by_contra hne
  have hlt : g.call < f.call := List.rel_of_pairwise_cons h.descending hg
  have hf : f.call < calls := h.below f List.mem_cons_self
  have hlast : g.call + 1 = calls := (h.silent g (List.mem_cons_of_mem _ hg) hne).1
  omega

/-- Nobody starts an operation while there are events to publish. -/
theorem quiet (h : Ordered n) (hopen : n.open? = true) : ∀ f ∈ n.stack, f.events = [] := by
  obtain ⟨s, calls, stack, log⟩ := n
  cases stack with
  | nil => simp
  | cons f rest =>
    intro g hg
    rcases List.mem_cons.1 hg with rfl | hg
    · by_contra hne
      have hnot := (h.silent g List.mem_cons_self hne).2
      simp [Run.open?, hnot] at hopen
    · exact h.outer_silent g hg

/-- The log grows by an entry that what is there lets come. -/
theorem log_append {a : Entry ρ} (h : Ordered n) (ha : ∀ b ∈ n.log, b.Permits a) :
    (n.log ++ [a]).Pairwise Entry.Permits :=
  List.pairwise_append.2 ⟨h.log, List.pairwise_singleton _ _, by simpa using ha⟩

theorem call (h : Ordered n) (op : Operation ρ) (hopen : n.open? = true) :
    Ordered (n.call op) := by
  have hquiet := h.quiet hopen
  have hknown : ∀ a ∈ n.log ++ [.started n.calls op], ∀ k, n.calls ≤ k → ∀ e,
      a.Permits (.published k e) := by
    intro a ha k hk e
    rcases List.mem_append.1 ha with ha | ha
    · exact h.known a ha k hk e
    · cases List.mem_singleton.1 ha
      exact hk
  refine ⟨List.pairwise_cons.2 ⟨h.below, h.descending⟩, ?_, ?_, ?_, ?_, h.log_append ?_⟩
  · intro f hf
    rcases List.mem_cons.1 hf with rfl | hf
    · exact Nat.lt_succ_self _
    · exact Nat.lt_succ_of_lt (h.below f hf)
  · intro f hf hne
    rcases List.mem_cons.1 hf with rfl | hf
    · exact ⟨rfl, rfl⟩
    · exact absurd (hquiet f hf) hne
  · intro f hf hne a ha
    rcases List.mem_cons.1 hf with rfl | hf
    · exact hknown a ha n.calls (Nat.le_refl _)
    · exact absurd (hquiet f hf) hne
  · exact fun a ha k hk => hknown a ha k (Nat.le_of_succ_le hk)
  · intro b _
    cases b <;> trivial

theorem proceed {s : State ρ} {calls : Nat} {f : Frame ρ} {rest : List (Frame ρ)}
    {log : List (Entry ρ)} (h : Ordered ⟨s, calls, f :: rest, log⟩) :
    Ordered ⟨s, calls, f.proceed.2.toList ++ rest, log ++ [f.proceed.1]⟩ := by
  have hmem : f ∈ f :: rest := List.mem_cons_self
  have hf : f.call < calls := h.below f hmem
  have hdesc := List.pairwise_cons.1 h.descending
  -- what is left of the innermost operation, and the operations around it
  have hcases : ∀ {g}, g ∈ f.proceed.2.toList ++ rest → g ∈ f.proceed.2 ∨ g ∈ rest := by
    simp
  refine ⟨?_, ?_, ?_, ?_, ?_, h.log_append fun a ha => ?_⟩
  · refine List.pairwise_append.2 ⟨?_, hdesc.2, fun g hg x hx => ?_⟩
    · cases f.proceed.2 <;> simp
    · have hg : g ∈ f.proceed.2 := by simpa using hg
      exact (Frame.call_proceed hg).1 ▸ hdesc.1 x hx
  · intro g hg
    rcases hcases hg with hg | hg
    · exact (Frame.call_proceed hg).1 ▸ hf
    · exact h.below g (List.mem_cons_of_mem _ hg)
  · intro g hg hne
    rcases hcases hg with hg | hg
    · obtain ⟨hcall, hold⟩ := Frame.call_proceed hg
      rw [hcall, (hold hne).2]
      exact h.silent f hmem (hold hne).1
    · exact absurd (h.outer_silent g hg) hne
  · intro g hg hne a ha e
    rcases hcases hg with hg | hg
    · obtain ⟨hcall, hold⟩ := Frame.call_proceed hg
      rw [hcall]
      rcases List.mem_append.1 ha with ha | ha
      · exact h.ready f hmem (hold hne).1 a ha e
      · cases List.mem_singleton.1 ha
        exact f.proceed_permits (fun _ => (hold hne).1) e
    · exact absurd (h.outer_silent g hg) hne
  · intro a ha k hk e
    rcases List.mem_append.1 ha with ha | ha
    · exact h.known a ha k hk e
    · cases List.mem_singleton.1 ha
      have hne : f.call ≠ k := Nat.ne_of_lt (Nat.lt_of_lt_of_le hf hk)
      exact f.proceed_permits (fun heq => absurd heq hne) e
  · exact f.permits_proceed fun hne => h.ready f hmem hne a ha

end Ordered

/-! ## The same as flat -/

namespace Run

/-- The events that are still to be published. -/
def owedEvents (n : Run ρ) : List (Nat × LockEvent) :=
  n.stack.flatMap fun f => f.events.map (f.call, ·)

/-- The answers of an operation that are still to be delivered. -/
def owedAnswers (n : Run ρ) (call : Nat) : List (ρ × Answer) :=
  n.stack.flatMap fun f => if f.call = call then f.answers else []

/-- What an operation is still to return. -/
def owedResults (n : Run ρ) (call : Nat) : List Result :=
  n.stack.flatMap fun f => if f.call = call then [f.result] else []

end Run

/-- A run is as far as the flat run of what has been started, but for what is still owed. -/
structure Follows (s : State ρ) (n : Run ρ) : Prop where
  /-- The coordinator is in the same state. -/
  state : n.state = (flat s n.started).state
  /-- The same number of operations have been started. -/
  calls : n.calls = (flat s n.started).calls
  /-- The events are published in the same order. -/
  events : n.events ++ n.owedEvents = (flat s n.started).events
  /-- Each operation answers the same. -/
  answers : ∀ call, n.answers call ++ n.owedAnswers call = (flat s n.started).answers call
  /-- Each operation returns the same. -/
  results : ∀ call, n.results call ++ n.owedResults call = (flat s n.started).results call

section
variable (n : Run ρ) (op : Operation ρ)

theorem Run.call_started : (n.call op).started = n.started ++ [op] := by
  simp [started, call, Entry.operation?]

theorem Run.call_events : (n.call op).events ++ (n.call op).owedEvents =
    n.events ++ ((n.state.perform op).2.events.map (n.calls, ·) ++ n.owedEvents) := by
  simp [events, owedEvents, call, Entry.event?]

theorem Run.call_answers (call : Nat) :
    (n.call op).answers call ++ (n.call op).owedAnswers call =
      n.answers call ++
        ((if n.calls = call then (n.state.perform op).2.answers else []) ++
          n.owedAnswers call) := by
  simp [answers, owedAnswers, Run.call, Entry.answer?]

theorem Run.call_results (call : Nat) :
    (n.call op).results call ++ (n.call op).owedResults call =
      n.results call ++
        ((if n.calls = call then [(n.state.perform op).1] else []) ++ n.owedResults call) := by
  simp [results, owedResults, Run.call, Entry.result?]

end

/-- Nothing is owed by an operation that has not been started. -/
theorem Ordered.owed_calls {n : Run ρ} (h : Ordered n) :
    n.owedAnswers n.calls = [] ∧ n.owedResults n.calls = [] := by
  have hne : ∀ f ∈ n.stack, f.call ≠ n.calls := fun f hf => Nat.ne_of_lt (h.below f hf)
  constructor <;>
    exact List.flatMap_eq_nil_iff.2 fun f hf => if_neg (hne f hf)

/-- What an operation owes stays the same as it goes on, with what it adds to the log. -/
theorem Frame.proceed_owes (f : Frame ρ) (call : Nat) :
    (Entry.operation? f.proceed.1 = none) ∧
    (Entry.event? f.proceed.1).toList ++
        f.proceed.2.toList.flatMap (fun g => g.events.map (g.call, ·)) =
      f.events.map (f.call, ·) ∧
    (Entry.answer? call f.proceed.1).toList ++
        f.proceed.2.toList.flatMap (fun g => if g.call = call then g.answers else []) =
      (if f.call = call then f.answers else []) ∧
    (Entry.result? call f.proceed.1).toList ++
        f.proceed.2.toList.flatMap (fun g => if g.call = call then [g.result] else []) =
      (if f.call = call then [f.result] else []) := by
  unfold proceed
  split <;> by_cases h : f.call = call <;>
    simp_all [Entry.operation?, Entry.event?, Entry.answer?, Entry.result?]

/-- What is in the log and what is owed, together, stay the same as the innermost operation goes
on. -/
theorem Frame.proceed_keeps {β : Type} (told : Entry ρ → Option β) (owed : Frame ρ → List β)
    {f : Frame ρ} (h : (told f.proceed.1).toList ++ f.proceed.2.toList.flatMap owed = owed f)
    (rest : List (Frame ρ)) (log : List (Entry ρ)) :
    (log ++ [f.proceed.1]).filterMap told ++ (f.proceed.2.toList ++ rest).flatMap owed =
      log.filterMap told ++ (f :: rest).flatMap owed := by
  have hone : [f.proceed.1].filterMap told = (told f.proceed.1).toList := by
    cases hx : told f.proceed.1 <;> simp [hx]
  rw [List.filterMap_append, hone, List.flatMap_append, List.flatMap_cons, ← h]
  simp only [List.append_assoc]

namespace Follows

variable {s : State ρ} {n n' : Run ρ}

theorem start (s : State ρ) : Follows s (.start s) := ⟨rfl, rfl, rfl, fun _ => rfl, fun _ => rfl⟩

theorem call (h : Follows s n) (ho : Ordered n) (op : Operation ρ) (hopen : n.open? = true) :
    Follows s (n.call op) := by
  have hquiet : n.owedEvents = [] :=
    List.flatMap_eq_nil_iff.2 fun f hf => by simp [ho.quiet hopen f hf]
  obtain ⟨hanswers, hresults⟩ := ho.owed_calls
  constructor <;> rw [Run.call_started, flat_append]
  · rw [Run.alone_state, ← h.state]
    rfl
  · rw [Run.alone_calls, ← h.calls]
    rfl
  · rw [Run.call_events, Run.alone_events, ← h.events, ← h.state, ← h.calls, hquiet,
      List.append_nil, List.append_nil]
  · intro call
    rw [Run.call_answers, Run.alone_answers, ← h.answers, ← h.state, ← h.calls]
    by_cases heq : n.calls = call
    · subst heq
      rw [hanswers, List.append_nil, List.append_nil]
    · rw [if_neg heq, List.nil_append, List.append_nil]
  · intro call
    rw [Run.call_results, Run.alone_results, ← h.results, ← h.state, ← h.calls]
    by_cases heq : n.calls = call
    · subst heq
      rw [hresults, List.append_nil, List.append_nil]
    · rw [if_neg heq, List.nil_append, List.append_nil]

theorem proceed {t : State ρ} {calls : Nat} {f : Frame ρ} {rest : List (Frame ρ)}
    {log : List (Entry ρ)} (h : Follows s ⟨t, calls, f :: rest, log⟩) :
    Follows s ⟨t, calls, f.proceed.2.toList ++ rest, log ++ [f.proceed.1]⟩ := by
  have hstarted : Run.started ⟨t, calls, f.proceed.2.toList ++ rest, log ++ [f.proceed.1]⟩ =
      Run.started ⟨t, calls, f :: rest, log⟩ := by
    simp [Run.started, (f.proceed_owes 0).1]
  constructor <;> rw [hstarted]
  · exact h.state
  · exact h.calls
  · exact (Frame.proceed_keeps _ _ (f.proceed_owes 0).2.1 rest log).trans h.events
  · exact fun call =>
      (Frame.proceed_keeps _ _ (f.proceed_owes call).2.2.1 rest log).trans (h.answers call)
  · exact fun call =>
      (Frame.proceed_keeps _ _ (f.proceed_owes call).2.2.2 rest log).trans (h.results call)

end Follows

/-! ## Runs -/

/-- A run keeps its order and follows the flat run. -/
theorem Run.follow_ordered (s : State ρ) {moves : List (Move ρ)} {n : Run ρ}
    (h : (Run.start s).follow moves = some n) : Ordered n ∧ Follows s n := by
  refine follow_keeps (P := fun n => Ordered n ∧ Follows s n) (fun {n n'} hn hs => ?_) h
    ⟨.start s, .start s⟩
  cases hs with
  | call _ op hopen => exact ⟨hn.1.call op hopen, hn.2.call hn.1 op hopen⟩
  | proceed => exact ⟨hn.1.proceed, hn.2.proceed⟩

/-- A nested run that is over has come to the same state as the flat run of the operations in the
order of their starts, each operation has returned the same and told the same receivers the same,
and the same events have been published in the same order.  All events of an operation came before
its answers and before every operation that was started after it. -/
theorem Run.same_as_flat (s : State ρ) {moves : List (Move ρ)} {n : Run ρ}
    (h : (Run.start s).follow moves = some n) (hover : n.stack = []) :
    n.state = (flat s n.started).state ∧
    (∀ call, n.results call = (flat s n.started).results call) ∧
    (∀ call, n.answers call = (flat s n.started).answers call) ∧
    n.events = (flat s n.started).events ∧
    n.log.Pairwise Entry.Permits := by
  obtain ⟨ho, hf⟩ := follow_ordered s h
  have hevents : n.owedEvents = [] := by simp [owedEvents, hover]
  have hanswers : ∀ call, n.owedAnswers call = [] := by simp [owedAnswers, hover]
  have hresults : ∀ call, n.owedResults call = [] := by simp [owedResults, hover]
  refine ⟨hf.state, fun call => ?_, fun call => ?_, ?_, ho.log⟩
  · rw [← hf.results, hresults, List.append_nil]
  · rw [← hf.answers, hanswers, List.append_nil]
  · rw [← hf.events, hevents, List.append_nil]

/-- Two sessions share a handle; the second waits for the first.  The first releases its lock, and
the second gives the lock back as soon as it is told that it has it, and ends. -/
def handover : List (Move Nat) :=
  let alone (op : Operation Nat) : List (Move Nat) := [.call op, .proceed]
  alone (.createSession 0) ++ alone (.createSession 0) ++ alone (.openHandle 1 "a") ++
    alone (.openHandle 2 "a") ++
    [.call (.acquire 1 1 .exclusive false 1), .proceed, .proceed, .proceed] ++
    alone (.acquire 2 1 .exclusive false 2) ++
    [.call (.release 1 1), .proceed, .proceed, .proceed] ++
    [.call (.release 2 1), .proceed, .proceed] ++ alone (.closeSession 2) ++ [.proceed]

theorem Run.same_as_flat_handover : ∃ n : Run Nat,
    (Run.start (State.empty 10)).follow handover = some n ∧ n.stack = [] ∧
    n.answers 6 = [(2, .granted 2)] ∧ n.started.length = 9 ∧
    n.state = (flat (State.empty 10) n.started).state ∧
    (∀ call, n.results call = (flat (State.empty 10) n.started).results call) ∧
    (∀ call, n.answers call = (flat (State.empty 10) n.started).answers call) ∧
    n.events = (flat (State.empty 10) n.started).events ∧
    n.log.Pairwise Entry.Permits := by
  have hrun : ((Run.start (State.empty 10)).follow handover).map
      (fun n => (n.stack.length, n.answers 6, n.started.length)) =
        some (0, [(2, .granted 2)], 9) := by
    decide +kernel
  obtain ⟨n, hn, hv⟩ := Option.map_eq_some_iff.1 hrun
  obtain ⟨hstack, hv⟩ := Prod.mk.inj hv
  obtain ⟨hanswers, hstarted⟩ := Prod.mk.inj hv
  have hover : n.stack = [] := List.length_eq_zero_iff.1 hstack
  exact ⟨n, hn, hover, hanswers, hstarted, same_as_flat _ hn hover⟩

end LeaseLock.Coordinator.Nested
