import LeaseLock.Proofs.Reactor

/-
  LeaseLock: programs beside the loop, pace by pace.
  A program on a thread of its own can be overtaken between any two of its requests.  A pace of it
  is one request with its answer; but to change what handlers remember is to read it and to replace
  it under one lock, so `Program.update` is a single pace.  What is left after a pace is a program
  again.  Taken without a break, the paces of a program are its run (`Machine.run_pace`).
-/

namespace LeaseLock.Reactor

variable {κ η σ τ ν α : Type} {w : Wiring κ η σ τ ν} {m : Machine κ η σ τ ν}

namespace Program

/-- Whether nothing is left to do. -/
def ended : Program κ η σ ν α → Bool
  | done _ | crash _ => true
  | ask _ _ => false

/-- Whether the next request is to read the clock. -/
def readsClock : Program κ η σ ν α → Bool
  | ask .now _ => true
  | _ => false

/-- The next request is not to replace what handlers remember. -/
def Calm (p : Program κ η σ ν α) : Prop := ∀ s next, p ≠ ask (.remember s) next

end Program

namespace Machine

/-- Go on with a program that has just read what handlers remember: if it is about to replace that,
nobody comes in between. -/
def conclude (w : Wiring κ η σ τ ν) (m : Machine κ η σ τ ν) :
    Program κ η σ ν α → Program κ η σ ν α × Machine κ η σ τ ν
  | .ask (.remember s) next => (next (), (m.perform w (.remember s)).2)
  | p => (p, m)

/-- Carry a program on for one pace. -/
def pace (w : Wiring κ η σ τ ν) (m : Machine κ η σ τ ν) :
    Program κ η σ ν α → Program κ η σ ν α × Machine κ η σ τ ν
  | .ask .world next => (m.perform w .world).2.conclude w (next m.world)
  | .ask r next => (next (m.perform w r).1, (m.perform w r).2)
  | p => (p, m)

theorem conclude_of_calm {p : Program κ η σ ν α} (hp : p.Calm) : m.conclude w p = (p, m) := by
  unfold conclude
  split
  · rename_i s next
    exact absurd rfl (hp s next)
  · rfl

theorem run_conclude (p : Program κ η σ ν α) :
    (m.conclude w p).2.run w (m.conclude w p).1 = m.run w p := by
  unfold conclude
  split <;> rfl

/-- A pace makes no difference to what comes of a program that nobody overtakes. -/
theorem run_pace (p : Program κ η σ ν α) : (m.pace w p).2.run w (m.pace w p).1 = m.run w p := by
  unfold pace
  split
  · exact run_conclude _
  · rfl
  · rfl

end Machine

end LeaseLock.Reactor
