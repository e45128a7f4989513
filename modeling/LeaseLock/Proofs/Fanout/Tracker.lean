import LeaseLock.Proofs.Countdown
import LeaseLock.Proofs.Fanout.Act

/-
  LeaseLock: the countdown of a fan-out.
  A task of an arming is that of a pending sub-request, or some chore has it in hand: one that is
  still to enter the sub-request, or still to complete the task (`State.tasks`).  The countdown is at
  the number of these tasks, whichever chore is done (`Tracked.acts`), as long as nobody arms it
  again and nobody else completes its tasks.  An epoch has 64 bits, so tasks that are left from long
  ago can have an equal token: those that are there when the countdown is armed do not count.
-/

namespace LeaseLock.Fanout

open Reactor

variable {κ η τ ν : Type} {self : η} {m : Machine κ η State τ ν} {s s' : State} {token : Token}
  {c : Chore} {cs chores waiting : List Chore} {es : List (Errand η)} {id n : Nat} {p : Pending}

/-! ## Tasks -/

/-- The countdown that a chore arms. -/
def Chore.arms? : Chore → Option Nat
  | .scatter countdown _ _ => some countdown
  | _ => none

/-- A chore has a task of this token in hand. -/
def Chore.holds (token : Token) : Chore → Bool
  | .name _ t _ _ | .settle _ t _ | .complete _ t _ => decide (t = token)
  | .time d _ | .schedule d _ | .enter d _ => decide (d.token = token)
  | _ => false

/-- The number of pending sub-requests with this token. -/
def State.load (s : State) (token : Token) : Nat :=
  s.pending.entries.countP fun e => decide (e.2.token = token)

/-- The number of tasks of this token, those that chores have in hand among them. -/
def State.tasks (s : State) (token : Token) (chores : List Chore) : Nat :=
  s.load token + chores.countP (Chore.holds token)

theorem load_without (token : Token) (hp : s.pending.get? id = some p) :
    (s.without id p).load token + (if p.token = token then 1 else 0) = s.load token := by
  have hcount := Table.countP_erase_of_some hp fun e => decide (e.2.token = token)
  simp only [decide_eq_true_eq] at hcount
  exact hcount

theorem load_entered (hfree : s.pending.get? id = none) :
    (s.entered id p).load token = s.load token + (if p.token = token then 1 else 0) := by
  have hcount := Table.countP_insert_of_none hfree p fun e => decide (e.2.token = token)
  simp only [decide_eq_true_eq] at hcount
  exact hcount

theorem load_resent (hp : s.pending.get? id = some p) (timer : Nat) :
    (s.resent id p timer).load token = s.load token :=
  Table.countP_insert_of_some hp rfl

theorem countP_holds_unnamed (command : UInt8) (used token : Token)
    (targets : List (Nat × Bytes)) : (unnamed command used targets).countP (Chore.holds token) =
      if used = token then targets.length else 0 := by
  induction targets with
  | nil => exact (ite_self 0).symm
  | cons target rest ih =>
    rw [unnamed, List.countP_cons, ih]
    simp only [Chore.holds, decide_eq_true_eq, List.length_cons]
    split <;> rfl

theorem countP_holds_stopping (token : Token) (id : Nat) (p : Pending) (outcome : Outcome) :
    (stopping id p outcome).countP (Chore.holds token) = if p.token = token then 1 else 0 := by
  rw [stopping, List.countP_cons_of_neg Bool.false_ne_true, List.countP_singleton]
  simp only [Chore.holds, decide_eq_true_eq]

/-! ## Countdowns -/

theorem countdown_modify_of_ne {name other : Nat} (h : other ≠ name) (f : Countdown → Countdown) :
    ((s.countdowns.modify other f).get? name).getD .idle = s.countdown name := by
  rw [Table.get?_modify, if_neg (Ne.symm h)]
  rfl

theorem countdown_arm (s : State) (name tasks : Nat) :
    (s.arm name tasks).2.countdown name = (s.countdown name).arm tasks := by
  show ((s.countdowns.insert name _).get? name).getD .idle = _
  rw [Table.get?_insert_self]
  rfl

theorem countdown_arm_of_ne {name other : Nat} (h : other ≠ name) (tasks : Nat) :
    (s.arm other tasks).2.countdown name = s.countdown name := by
  show ((s.countdowns.insert other _).get? name).getD .idle = _
  rw [Table.get?_insert_of_ne _ _ (Ne.symm h)]
  rfl

/-- The tasks of an arming stay countable through a change that keeps them so. -/
theorem counts_modify {name n n' : Nat} {epoch : UInt64} {f : Countdown → Countdown}
    (h : (s.countdown name).Counts epoch n) (hn : n = 0 → n' = 0)
    (hf : ∀ c : Countdown, c.Counts epoch n → (f c).Counts epoch n') :
    (((s.countdowns.modify name f).get? name).getD .idle).Counts epoch n' := by
  rw [Table.get?_modify, if_pos rfl]
  unfold State.countdown at h
  cases hc : s.countdowns.get? name with
  | none =>
    -- a countdown that was never armed is at no task
    rw [hc] at h
    have hzero : 0 = n := h.outstanding
    rw [hn hzero.symm]
    rw [← hzero] at h
    exact h
  | some c =>
    rw [hc] at h
    exact hf c h

/-- The countdown of an arming is at its tasks; so many tasks with an equal token were there before
it was armed. -/
def Tracked (token : Token) (s : State) (chores : List Chore) (old : Nat) : Prop :=
  (s.countdown token.countdown).Counts token.epoch (s.tasks token chores - old)

/-- The countdown has just been armed. -/
theorem tracked_armed (s : State) (countdown : Nat) (command : UInt8)
    (targets : List (Nat × Bytes)) (waiting : List Chore) :
    let token := (s.arm countdown targets.length).1
    Tracked token (s.arm countdown targets.length).2 (unnamed command token targets ++ waiting)
      (s.tasks token waiting) := by
  intro token
  have htasks : (s.arm countdown targets.length).2.tasks token
      (unnamed command token targets ++ waiting) - s.tasks token waiting = targets.length := by
    rw [State.tasks, List.countP_append, countP_holds_unnamed, if_pos rfl]
    show s.load token + _ - (s.load token + _) = _
    omega
  unfold Tracked
  rw [htasks]
  show ((s.arm countdown targets.length).2.countdown countdown).Counts _ _
  rw [countdown_arm]
  exact Countdown.counts_arm _ _

namespace Tracked

variable {old : Nat}

/-- It does not matter in which order chores wait. -/
theorem perm (h : Tracked token s chores old) (hp : chores.Perm cs) : Tracked token s cs old := by
  unfold Tracked State.tasks at *
  rw [← hp.countP_eq]
  exact h

/-- Neither the countdown nor the tasks have changed. -/
theorem still (h : Tracked token s (c :: waiting) old)
    (hcountdown : s'.countdown token.countdown = s.countdown token.countdown)
    (htasks : s'.load token + cs.countP (Chore.holds token) =
      s.load token + if c.holds token = true then 1 else 0) :
    Tracked token s' (cs ++ waiting) old := by
  have hsame : s'.tasks token (cs ++ waiting) = s.tasks token (c :: waiting) := by
    rw [State.tasks, State.tasks, List.countP_append, List.countP_cons]
    omega
  unfold Tracked at *
  rw [hcountdown, hsame]
  exact h

/-- A task is completed. -/
theorem complete {used : Token} {failed : Bool}
    (h : Tracked token s (.complete id used failed :: waiting) old) :
    Tracked token (s.complete used failed) waiting old := by
  have htasks : s.tasks token (.complete id used failed :: waiting) =
      s.tasks token waiting + if used = token then 1 else 0 := by
    rw [State.tasks, State.tasks, List.countP_cons, Nat.add_assoc]
    simp only [Chore.holds, decide_eq_true_eq]
  unfold Tracked at *
  rw [htasks] at h
  show Countdown.Counts (((s.countdowns.modify used.countdown _).get? _).getD .idle) _
    (s.tasks token waiting - old)
  by_cases htoken : used = token
  · subst htoken
    rw [if_pos rfl] at h
    refine counts_modify h (by omega) fun c hc => ?_
    have hcomplete := hc.complete_pred failed
    rw [show s.tasks used waiting - old = s.tasks used waiting + 1 - old - 1 by omega]
    exact hcomplete
  · rw [if_neg htoken, Nat.add_zero] at h
    by_cases hname : used.countdown = token.countdown
    · -- a task of another arming of this countdown
      rw [hname]
      refine counts_modify h (fun hzero => hzero) fun c hc => ?_
      rw [Countdown.complete_of_ne fun hepoch => htoken ?_]
      · exact hc
      · rw [Token.mk.injEq]
        exact ⟨hname, hepoch.symm.trans hc.epoch⟩
    · rw [countdown_modify_of_ne hname]
      exact h

theorem resent (h : Tracked token s (c :: waiting) old) (hc : c.holds token = false)
    (hp : s.pending.get? id = some p) (timer : Nat) :
    Tracked token (s.resent id p timer) (.send id p.endpoint p.frame :: waiting) old := by
  have htasks : (s.resent id p timer).tasks token (.send id p.endpoint p.frame :: waiting) =
      s.tasks token (c :: waiting) := by
    rw [State.tasks, State.tasks, load_resent hp, List.countP_cons_of_neg Bool.false_ne_true,
      List.countP_cons_of_neg (Bool.eq_false_iff.1 hc)]
  unfold Tracked at *
  rw [htasks]
  show Countdown.Counts (((s.countdowns.modify p.token.countdown _).get? _).getD .idle) _ _
  by_cases hname : p.token.countdown = token.countdown
  · rw [hname]
    exact counts_modify h (fun hzero => hzero) fun c hc => hc.retried p.token.epoch
  · rw [countdown_modify_of_ne hname]
    exact h

/-- All sub-requests of an endpoint are taken out, and their tasks are in hand. -/
theorem close (h : Tracked token s (c :: waiting) old) (hc : c.holds token = false)
    (endpoint : Nat) : Tracked token (s.swept (s.sentTo endpoint))
      ((s.sentTo endpoint).flatMap (fun e => stopping e.1 e.2 .lost) ++ waiting) old := by
  obtain ⟨hcountdown, htasks⟩ := sweep_sentTo endpoint
    (P := fun es s' => s'.countdowns = s.countdowns ∧
      s'.load token + (es.flatMap fun e => stopping e.1 e.2 .lost).countP (Chore.holds token) =
        s.load token) ⟨rfl, rfl⟩ fun swept id p s' ⟨hcountdown, htasks⟩ hp => by
      refine ⟨hcountdown, ?_⟩
      have hload := load_without token hp
      rw [List.flatMap_append, List.flatMap_singleton, List.countP_append, countP_holds_stopping]
      dsimp only
      omega
  refine h.still ?_ ?_
  · unfold State.countdown
    rw [hcountdown]
  · rw [hc, htasks]
    rfl

/-- Whichever chore is done, the countdown is at its tasks, unless it is armed. -/
theorem acts (h : Tracked token m.world (c :: waiting) old) (hacts : Acts self m c s' es cs)
    (hother : c.arms? ≠ some token.countdown) : Tracked token s' (cs ++ waiting) old := by
  cases hacts with
  | scatter countdown command targets =>
    have hne : countdown ≠ token.countdown := fun heq => hother (congrArg some heq)
    refine h.still (countdown_arm_of_ne hne _) ?_
    · rw [countP_holds_unnamed, if_neg fun htoken => hne (congrArg Token.countdown htoken)]
      rfl
  | name | time | schedule | count | refused =>
    refine h.still rfl ?_
    rw [List.countP_singleton]
    rfl
  | sent | gone | cancel | stray | unknown => exact h.still rfl rfl
  | enter d timer free new =>
    refine h.still rfl ?_
    rw [load_entered free, List.countP_singleton]
    simp only [Chore.holds, decide_eq_true_eq]
    rfl
  | gaveUp found =>
    refine h.still rfl ?_
    rw [countP_holds_stopping]
    exact load_without token found
  | settle id used outcome =>
    refine h.still ?_ ?_
    · cases outcome <;> rfl
    · rw [List.countP_singleton]
      cases outcome <;> rfl
  | complete id used failed => exact h.complete
  | answered decoded found =>
    refine h.still rfl ?_
    rw [countP_holds_stopping]
    exact load_without token found
  | exhausted found enough =>
    refine h.still rfl ?_
    have hload := load_without token found
    rw [List.countP_singleton]
    simp only [Chore.holds, decide_eq_true_eq]
    exact hload
  | again found more new => exact h.resent rfl found _
  | close endpoint => exact h.close rfl endpoint

end Tracked

end LeaseLock.Fanout
