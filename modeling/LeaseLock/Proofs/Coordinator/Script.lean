import LeaseLock.Proofs.Coordinator.Nesting
import LeaseLock.Scenario.Coordination

/-
  LeaseLock: scripted runs are nested runs.
  In a script the actions that wait for an answer are carried out in the middle of the operation
  that gives it.  `Mirrors` says that a nested run does what a script does; `carryOut_mirrors`
  finds the nested run of any action, by induction on how deep actions nest and, at each level, on
  the answers of the operation and on the actions that wait for one of them.
-/

namespace LeaseLock.Scenario.Coordination

open Coordinator

variable {τ : Type}

/-- The answer in an entry of the log of a script. -/
def Entry.answer? : Entry τ → Option (τ × Answer)
  | .answered tag a => some (tag, a)
  | _ => none

/-- The answers in the log of a script, in order. -/
def Run.heard (r : Run τ) : List (τ × Answer) := (r.log.filterMap Entry.answer?).reverse

/-- The answer in an entry of the log of a nested run. -/
def told : Nested.Entry (Callback τ) → Option (τ × Answer)
  | .answered _ callback a => some (callback.tag, a)
  | _ => none

/-- From `n` to `n'` a nested run does what a script does from `r` to `r'`. -/
structure Mirrors (r : Run τ) (n : Nested.Run (Callback τ)) (r' : Run τ)
    (n' : Nested.Run (Callback τ)) : Prop where
  /-- There is such a run. -/
  run : ∃ moves, n.follow moves = some n'
  /-- It comes to the same state. -/
  state : n'.state = r'.state
  /-- The events go into the stream and the answers to their receivers in the same order. -/
  log : ∃ new, n'.log = n.log ++ new ∧
    r'.stream = r.stream.sendAll ((new.filterMap Nested.Entry.event?).map (·.2)) ∧
    r'.heard = r.heard ++ new.filterMap told

namespace Mirrors

variable {r r₁ r₂ : Run τ} {n n₁ n₂ : Nested.Run (Callback τ)}

/-- The script does nothing that the coordinator takes part in. -/
theorem still (hstate : n.state = r₁.state) (hstream : r₁.stream = r.stream)
    (hheard : r₁.heard = r.heard) : Mirrors r n r₁ n :=
  ⟨⟨[], rfl⟩, hstate, [], by simp, by simp [hstream, Broadcast.sendAll], by simp [hheard]⟩

theorem trans (h₁ : Mirrors r n r₁ n₁) (h₂ : Mirrors r₁ n₁ r₂ n₂) : Mirrors r n r₂ n₂ := by
  obtain ⟨moves₁, hrun₁⟩ := h₁.run
  obtain ⟨moves₂, hrun₂⟩ := h₂.run
  obtain ⟨new₁, hlog₁, hstream₁, hheard₁⟩ := h₁.log
  obtain ⟨new₂, hlog₂, hstream₂, hheard₂⟩ := h₂.log
  refine ⟨⟨moves₁ ++ moves₂, ?_⟩, h₂.state, new₁ ++ new₂, ?_, ?_, ?_⟩
  · rw [Nested.Run.follow_append, hrun₁]
    exact hrun₂
  · rw [hlog₂, hlog₁, List.append_assoc]
  · rw [hstream₂, hstream₁]
    simp [Broadcast.sendAll]
  · rw [hheard₂, hheard₁]
    simp

end Mirrors

/-! ## Notes -/

theorem Run.observe_state (r : Run τ) : r.observe.state = r.state := by
  unfold observe
  split <;> rfl

theorem Run.observe_stream (r : Run τ) : r.observe.stream = r.stream := by
  unfold observe
  split <;> rfl

/-- What the observer finds are no answers. -/
theorem Run.observe_heard (r : Run τ) : r.observe.heard = r.heard := by
  have hnone (found : List (Delivery LockEvent)) :
      (found.map (Entry.observed (τ := τ))).filterMap Entry.answer? = [] := by
    rw [List.filterMap_map, List.filterMap_eq_nil_iff]
    exact fun _ _ => rfl
  unfold observe heard
  split
  · rfl
  · rw [List.filterMap_append, ← List.map_reverse, hnone, List.nil_append]

/-- What a note adds to the answers. -/
theorem Run.note_heard (r : Run τ) (e : Entry τ) :
    (r.note e).heard = r.heard ++ (Entry.answer? e).toList := by
  rw [← r.observe_heard]
  cases h : Entry.answer? e <;> simp [note, heard, h]

/-! ## Actions -/

/-- What it means that all actions at a level can be mirrored: whenever somebody can start an
operation, and the same operations are under way afterwards. -/
def Mirrored (carry : Run τ → Action τ → Outcome × Run τ) : Prop :=
  ∀ r action (n : Nested.Run (Callback τ)), n.state = r.state → n.open? = true →
    ∃ n', n'.stack = n.stack ∧ Mirrors r n (carry r action).2 n'

/-- The actions that wait for an answer are carried out by its receiver. -/
theorem Mirrored.actions {carry : Run τ → Action τ → Outcome × Run τ} (hc : Mirrored carry)
    (actions : List (Action τ)) (r : Run τ) (n : Nested.Run (Callback τ))
    (hstate : n.state = r.state) (hopen : n.open? = true) :
    ∃ n', n'.stack = n.stack ∧ Mirrors r n
      (actions.foldl (fun r action => (carry r action).2.note (.nested (carry r action).1)) r)
      n' := by
  induction actions generalizing r n with
  | nil => exact ⟨n, rfl, .still hstate rfl rfl⟩
  | cons action actions ih =>
    obtain ⟨n₁, hstack₁, h₁⟩ := hc r action n hstate hopen
    have hnote : Mirrors r n ((carry r action).2.note (.nested (carry r action).1)) n₁ := by
      refine h₁.trans (.still ?_ (Run.observe_stream _) ?_)
      · exact h₁.state.trans (Run.observe_state _).symm
      · simp [Run.note_heard, Entry.answer?]
    have hopen₁ : n₁.open? = true := by
      rw [Nested.Run.open?, hstack₁]
      exact hopen
    obtain ⟨n₂, hstack₂, h₂⟩ := ih _ n₁ hnote.state hopen₁
    exact ⟨n₂, hstack₂.trans hstack₁, hnote.trans h₂⟩

/-- An operation delivers its answers, and each receiver acts before the next is told. -/
theorem Mirrored.answers {carry : Run τ → Action τ → Outcome × Run τ} (hc : Mirrored carry)
    (answers : List (Callback τ × Answer)) (r : Run τ) (calls call : Nat) (result : Result)
    (telling : Bool) (rest : List (Nested.Frame (Callback τ)))
    (log : List (Nested.Entry (Callback τ))) :
    ∃ n', n'.stack = rest ∧
      Mirrors r ⟨r.state, calls, ⟨call, result, [], answers, telling⟩ :: rest, log⟩
        (answers.foldl (fun r p => p.1.onAnswer.foldl
          (fun r action => (carry r action).2.note (.nested (carry r action).1))
          (r.note (.answered p.1.tag p.2))) r) n' := by
  induction answers generalizing r calls telling log with
  | nil =>
    refine ⟨⟨r.state, calls, rest, log ++ [.returned call result]⟩, rfl, ⟨[.proceed], rfl⟩, rfl,
      [.returned call result], rfl, ?_, ?_⟩
    · rfl
    · simp [told]
  | cons p answers ih =>
    obtain ⟨callback, a⟩ := p
    have hfirst : Mirrors r ⟨r.state, calls, ⟨call, result, [], (callback, a) :: answers, telling⟩
          :: rest, log⟩ (r.note (.answered callback.tag a))
        ⟨r.state, calls, ⟨call, result, [], answers, true⟩ :: rest,
          log ++ [.answered call callback a]⟩ := by
      refine ⟨⟨[.proceed], rfl⟩, r.observe_state.symm, [.answered call callback a], rfl, ?_, ?_⟩
      · exact r.observe_stream
      · simp [Run.note_heard, Entry.answer?, told]
    obtain ⟨⟨t, calls₁, stack₁, log₁⟩, hstack₁, h₁⟩ :=
      hc.actions callback.onAnswer _ _ hfirst.state rfl
    obtain rfl : stack₁ = _ := hstack₁
    obtain ⟨n', hstack', h'⟩ := ih (List.foldl
      (fun r action => (carry r action).2.note (.nested (carry r action).1))
      (r.note (.answered callback.tag a)) callback.onAnswer) calls₁ true log₁
    obtain rfl : t = _ := h₁.state
    exact ⟨n', hstack', (hfirst.trans h₁).trans h'⟩

theorem ask_mirrors (r : Run τ) (query : Query) (n : Nested.Run (Callback τ))
    (hstate : n.state = r.state) : Mirrors r n (r.ask query).2 n := by
  cases query with
  | events =>
    unfold Run.ask
    dsimp only
    split
    · exact .still hstate rfl rfl
    · exact .still hstate rfl rfl
  | subscribe | state | sessionCount | snapshot | config => exact .still hstate rfl rfl

/-- An operation starts and publishes its events. -/
theorem start_mirrors (r : Run τ) (n : Nested.Run (Callback τ)) (op : Operation (Callback τ))
    (hstate : n.state = r.state) (hopen : n.open? = true) :
    let result := (r.state.perform op).1
    let turn := (r.state.perform op).2
    Mirrors r n { r with state := turn.state, stream := r.stream.sendAll turn.events }
      ⟨turn.state, n.calls + 1, ⟨n.calls, result, [], turn.answers, false⟩ :: n.stack,
        n.log ++ .started n.calls op :: turn.events.map (.published n.calls)⟩ := by
  intro result turn
  refine ⟨⟨.call op :: List.replicate turn.events.length .proceed, ?_⟩, rfl,
    .started n.calls op :: turn.events.map (.published n.calls), rfl, ?_, ?_⟩
  · have hcall : n.step (.call op) = some (n.call op) := by simp [Nested.Run.step, hopen]
    rw [Nested.Run.follow, hcall, Option.bind_some, Nested.Run.call, hstate,
      Nested.Run.follow_publish]
    simp [turn, result]
  · simp [Nested.Entry.event?, List.filterMap_cons, List.filterMap_map, Function.comp_def]
  · simp [told, Run.heard, List.filterMap_cons, List.filterMap_map, Function.comp_def]

/-- Every action of a script is a part of a nested run: it comes to the same state, with the same
events and answers in the same order. -/
theorem carryOut_mirrors (fuel : Nat) : Mirrored (τ := τ) (Run.carryOut fuel) := by
  induction fuel with
  | zero =>
    intro r action n hstate _
    cases action with
    | ask query => exact ⟨n, rfl, by simpa [Run.carryOut] using ask_mirrors r query n hstate⟩
    | operate => exact ⟨n, rfl, .still hstate rfl rfl⟩
  | succ fuel ih =>
    intro r action n hstate hopen
    cases action with
    | ask query => exact ⟨n, rfl, by simpa [Run.carryOut] using ask_mirrors r query n hstate⟩
    | operate op onAnswer =>
      unfold Run.carryOut
      split
      · obtain ⟨t, calls, stack, log⟩ := n
        obtain rfl : t = r.state := hstate
        have hstart := start_mirrors r ⟨r.state, calls, stack, log⟩
          (op.mapReply fun tag => Callback.mk tag onAnswer) rfl hopen
        obtain ⟨n', hstack', h'⟩ := ih.answers _ _ _ _ _ _ _ _
        exact ⟨n', hstack', hstart.trans h'⟩
      · exact ⟨n, rfl, .still hstate rfl rfl⟩

/-- What an action does, with all that is carried out inside it, one operation after another does
as well. -/
theorem carryOut_flat (fuel : Nat) (r : Run τ) (action : Action τ) : ∃ ops,
    (r.carryOut fuel action).2.state = (Nested.flat r.state ops).state ∧
    (r.carryOut fuel action).2.stream =
      r.stream.sendAll ((Nested.flat r.state ops).events.map (·.2)) := by
  obtain ⟨n, hstack, h⟩ := carryOut_mirrors fuel r action (.start r.state) rfl rfl
  obtain ⟨moves, hmoves⟩ := h.run
  obtain ⟨new, hnew, hstream, -⟩ := h.log
  obtain ⟨-, hf⟩ := Nested.Run.follow_ordered r.state hmoves
  have hover : n.stack = [] := hstack
  have hevents : n.events = new.filterMap Nested.Entry.event? := by
    simp [Nested.Run.events, hnew, Nested.Run.start]
  have howed : n.owedEvents = [] := by simp [Nested.Run.owedEvents, hover]
  refine ⟨n.started, h.state.symm.trans hf.state, ?_⟩
  rw [hstream, ← hf.events, howed, List.append_nil, hevents]

end LeaseLock.Scenario.Coordination
