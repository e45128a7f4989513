import LeaseLock.Proofs.Reactor

/-
  LeaseLock: programs that are carried out in pieces.
  A program that runs beside the loop can be overtaken between any two of its requests.  Such a
  program is given as a chore: what is done at once, and the chores that are left then (`act`).  To
  carry a chore out without a break is to do it and then, one after another, all that it leaves
  (`Program.carryOut`), and whatever is kept when single chores are done is kept then
  (`Machine.run_carryOut`).
-/

namespace LeaseLock.Reactor

variable {κ η σ τ ν γ α : Type}

namespace Program

/-- Do a chore and, to this depth, what it leaves. -/
def carryOut (act : γ → Program κ η σ ν (List γ)) : Nat → γ → Program κ η σ ν Unit
  | 0, _ => done ()
  | depth + 1, c => do
    let rest ← act c
    each (carryOut act depth) rest

theorem each_append (f : α → Program κ η σ ν Unit) (xs ys : List α) :
    each f (xs ++ ys) = (do
      each f xs
      each f ys) := by
  induction xs with
  | nil => rfl
  | cons x rest ih =>
    show (f x).bind (fun _ => each f (rest ++ ys)) = ((f x).bind fun _ => each f rest).bind _
    rw [bind_assoc, ih]
    rfl

theorem each_singleton (f : α → Program κ η σ ν Unit) (x : α) : each f [x] = f x :=
  bind_done (f x)

theorem each_flatMap {β : Type} (f : β → Program κ η σ ν Unit) (g : α → List β) (xs : List α) :
    each f (xs.flatMap g) = each (fun x => each f (g x)) xs := by
  induction xs with
  | nil => rfl
  | cons x rest ih =>
    rw [List.flatMap_cons, each_append, ih]
    rfl

end Program

/-- What is kept by every chore below some rank is kept when one is carried out to its end.  The
rank of a chore is a bound on the depth of what it leaves. -/
theorem Machine.run_carryOut {w : Wiring κ η σ τ ν} {act : γ → Program κ η σ ν (List γ)}
    {rank : γ → Nat} {P : Machine κ η σ τ ν → List γ → Prop} {bound : Nat}
    (hstep : ∀ m c rest, rank c < bound → P m (c :: rest) →
      ∃ cs m', m.run w (act c) = (.ok cs, m') ∧ (∀ c' ∈ cs, rank c' < rank c) ∧ P m' (cs ++ rest))
    {depth : Nat} {c : γ} {rest : List γ} {m : Machine κ η σ τ ν} (hbound : rank c < bound)
    (hdepth : rank c < depth) (h : P m (c :: rest)) :
    ∃ m', m.run w (Program.carryOut act depth c) = (.ok (), m') ∧ P m' rest := by
  induction depth generalizing m c rest with
  | zero => cases hdepth
  | succ depth ih =>
    obtain ⟨cs, m₁, hact, hranks, hleft⟩ := hstep m c rest hbound h
    have hall : ∀ (cs : List γ) (m : Machine κ η σ τ ν), (∀ c' ∈ cs, rank c' < rank c) →
        P m (cs ++ rest) → ∃ m', m.run w (Program.each (Program.carryOut act depth) cs) =
          (.ok (), m') ∧ P m' rest := by
      intro cs
      induction cs with
      | nil => exact fun m _ h => ⟨m, rfl, h⟩
      | cons c' cs ihcs =>
        intro m hcs h
        have hlow := hcs c' List.mem_cons_self
        obtain ⟨m₁, hrun, hrest⟩ := ih (Nat.lt_trans hlow hbound)
          (Nat.lt_of_lt_of_le hlow (Nat.le_of_lt_succ hdepth)) h
        obtain ⟨m', hruns, hend⟩ := ihcs m₁ (fun c hc => hcs c (List.mem_cons_of_mem c' hc)) hrest
        exact ⟨m', (run_bind_of_ok _ hrun).trans hruns, hend⟩
    obtain ⟨m', hrun, hend⟩ := hall cs m₁ hranks hleft
    exact ⟨m', (run_bind_of_ok _ hact).trans hrun, hend⟩

end LeaseLock.Reactor
