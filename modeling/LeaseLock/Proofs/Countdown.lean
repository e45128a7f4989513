import LeaseLock.Countdown
import Mathlib.Data.List.Induction

/-
  LeaseLock: what a countdown and its tokens answer.
  A sequence of `Call`s arms a countdown, counts tasks, notes retries and failures, waits, and uses
  up tokens.  Since an arming with `n` tasks, the completing calls report one after another that
  tasks are left, that the last one is done, and then that there is nothing left to complete
  (`counts_exactly`).  One call of such a sequence comes to what `Steps` says: a task less if the
  call completes one, and a flag if it notes something while tasks are left.
-/

namespace LeaseLock

/-! ## Countdowns -/

namespace Countdown

variable {c : Countdown} {epoch : UInt64} {n : Nat}

/-- The countdown is at so many tasks of the arming `epoch`. -/
structure Counts (c : Countdown) (epoch : UInt64) (n : Nat) : Prop where
  epoch : c.epoch = epoch
  outstanding : c.outstanding = n
  done : c.done = (n == 0)

theorem counts_arm (c : Countdown) (n : Nat) : (c.arm n).Counts (c.epoch + 1) n := ⟨rfl, rfl, rfl⟩

/-- A task less, and the flags as they were. -/
structure Less (c c' : Countdown) (epoch : UInt64) (n : Nat) : Prop where
  counts : c'.Counts epoch n
  retries : c'.retries = c.retries
  errors : c'.errors = c.errors

theorem Counts.decrement (h : c.Counts epoch (n + 1)) :
    c.decrement.1 = .ok (n == 0) ∧ c.Less c.decrement.2 epoch n := by
  obtain ⟨hepoch, houtstanding, hdone⟩ := h
  unfold Countdown.decrement
  rw [houtstanding]
  cases n with
  | zero => exact ⟨rfl, ⟨hepoch, rfl, rfl⟩, rfl, rfl⟩
  | succ n => exact ⟨rfl, ⟨hepoch, rfl, hdone⟩, rfl, rfl⟩

/-- There is nothing left to complete. -/
theorem Counts.decrement_zero (h : c.Counts epoch 0) :
    c.decrement = (.error (.invariantViolation .nothingOutstanding), c) := by
  unfold Countdown.decrement
  rw [h.outstanding]

/-- A failure is noted as long as tasks are left. -/
theorem Counts.markError (h : c.Counts epoch n) :
    c.markError = { c with errors := c.errors || n != 0 } := by
  unfold Countdown.markError
  cases n with
  | zero =>
    rw [if_pos (show c.done = true from h.done)]
    simp
  | succ n =>
    rw [if_neg (Bool.eq_false_iff.1 (show c.done = false from h.done))]
    simp

theorem Counts.markRetry (h : c.Counts epoch n) :
    c.markRetry = { c with retries := c.retries || n != 0 } := by
  unfold Countdown.markRetry
  cases n with
  | zero =>
    rw [if_pos (show c.done = true from h.done)]
    simp
  | succ n =>
    rw [if_neg (Bool.eq_false_iff.1 (show c.done = false from h.done))]
    simp

theorem Counts.retried (h : c.Counts epoch n) (epoch' : UInt64) :
    (c.retried epoch').Counts epoch n := by
  unfold Countdown.retried
  split
  · rw [h.markRetry]
    exact ⟨h.epoch, h.outstanding, h.done⟩
  · exact h

/-- To complete a task of this arming is to count it, and to note before that it failed. -/
theorem Counts.complete_eq (h : c.Counts epoch n) (failed : Bool) :
    c.complete epoch failed = { c with errors := c.errors || (failed && n != 0) }.decrement := by
  unfold Countdown.complete
  rw [if_pos h.epoch]
  cases failed with
  | false => simp
  | true =>
    rw [if_pos rfl, h.markError]
    simp

/-- A task of this arming is completed. -/
theorem Counts.complete (h : c.Counts epoch (n + 1)) (failed : Bool) :
    (c.complete epoch failed).2.Counts epoch n := by
  rw [h.complete_eq]
  have hmarked : { c with errors := c.errors || (failed && n + 1 != 0) }.Counts epoch (n + 1) :=
    ⟨h.epoch, h.outstanding, h.done⟩
  exact hmarked.decrement.2.counts

/-- Whatever is completed, there is at most one task less. -/
theorem Counts.complete_pred (h : c.Counts epoch n) (failed : Bool) :
    (c.complete epoch failed).2.Counts epoch (n - 1) := by
  cases n with
  | zero =>
    have hmarked : { c with errors := c.errors || (failed && 0 != 0) }.Counts epoch 0 :=
      ⟨h.epoch, h.outstanding, h.done⟩
    rw [h.complete_eq, hmarked.decrement_zero]
    exact hmarked
  | succ n => exact h.complete failed

/-- Its failure is noted, and whether it was retried stays as it was. -/
theorem Counts.flags_complete (h : c.Counts epoch (n + 1)) (failed : Bool) :
    (c.complete epoch failed).2.errors = (c.errors || failed) ∧
      (c.complete epoch failed).2.retries = c.retries := by
  have hmarked : { c with errors := c.errors || (failed && n + 1 != 0) }.Counts epoch (n + 1) :=
    ⟨h.epoch, h.outstanding, h.done⟩
  obtain ⟨-, hless⟩ := hmarked.decrement
  rw [h.complete_eq]
  refine ⟨hless.errors.trans ?_, hless.retries⟩
  dsimp only
  rw [bne_iff_ne.2 (Nat.succ_ne_zero n), Bool.and_true]

/-- A task of another arming has no effect. -/
theorem complete_of_ne {epoch' : UInt64} (h : c.epoch ≠ epoch') (failed : Bool) :
    (c.complete epoch' failed).2 = c := by
  unfold complete
  rw [if_neg h]

theorem retried_of_ne {epoch' : UInt64} (h : c.epoch ≠ epoch') : c.retried epoch' = c := by
  unfold retried
  rw [if_neg h]

theorem epoch_decrement (c : Countdown) : c.decrement.2.epoch = c.epoch := by
  unfold decrement
  split <;> rfl

theorem epoch_markError (c : Countdown) : c.markError.epoch = c.epoch := by
  unfold markError
  split <;> rfl

theorem epoch_markRetry (c : Countdown) : c.markRetry.epoch = c.epoch := by
  unfold markRetry
  split <;> rfl

theorem epoch_complete (c : Countdown) (epoch : UInt64) (failed : Bool) :
    (c.complete epoch failed).2.epoch = c.epoch := by
  unfold complete
  split
  · rw [epoch_decrement]
    split
    · exact c.epoch_markError
    · rfl
  · rfl

theorem epoch_retried (c : Countdown) (epoch : UInt64) : (c.retried epoch).epoch = c.epoch := by
  unfold retried
  split
  · exact c.epoch_markRetry
  · rfl

end Countdown

/-! ## Calls -/

namespace TokenPool

/-- How a token is used up. -/
inductive Ending where
  /-- Its task has succeeded. -/
  | succeeded
  /-- Its task has failed. -/
  | failed
  /-- It was dropped, and nobody has said what became of its task. -/
  | dropped
deriving DecidableEq, Repr

/-- A dropped token counts as a failure. -/
def Ending.isFailure : Ending → Bool
  | .succeeded => false
  | .failed | .dropped => true

/-- Something to do with a countdown or one of its tokens. -/
inductive Call where
  /-- Start over with so many tasks. -/
  | arm (count : Nat)
  /-- Start over, with a token for each task. -/
  | armTokens (count : Nat)
  /-- Count a task as completed. -/
  | decrement
  /-- Note that a task was retried. -/
  | markRetry
  /-- Note that a task failed. -/
  | markError
  /-- Forget that tasks failed. -/
  | clearErrors
  /-- Wait, with nobody else to complete a task. -/
  | wait
  /-- Note a retry on a token. -/
  | retried (token : Nat)
  /-- Use up a token. -/
  | finish (token : Nat) (ending : Ending)
deriving DecidableEq, Repr

/-- What a call returns. -/
inductive Reply where
  /-- Nothing. -/
  | nothing
  /-- The position of the first new token, and the position behind the last. -/
  | tokens (first next : Nat)
  /-- Whether the last task was completed. -/
  | counted (result : Except Fault Bool)
  /-- Whether nothing was retried and nothing failed. -/
  | verdict (result : Except Fault Bool)
  /-- The outstanding tasks, if the token was there. -/
  | outstanding (n : Option Nat)
  /-- Whether the token was there. -/
  | finished (there : Bool)

/-- Carry out a call. -/
def perform (p : TokenPool) : Call → Reply × TokenPool
  | .arm count => (.nothing, { p with countdown := p.countdown.arm count })
  | .armTokens count => (.tokens (p.arm count).1.1 (p.arm count).1.2, (p.arm count).2)
  | .decrement =>
    (.counted p.countdown.decrement.1, { p with countdown := p.countdown.decrement.2 })
  | .markRetry => (.nothing, { p with countdown := p.countdown.markRetry })
  | .markError => (.nothing, { p with countdown := p.countdown.markError })
  | .clearErrors => (.nothing, { p with countdown := p.countdown.clearErrors })
  | .wait => (.verdict p.countdown.verdict, p)
  | .retried token => (.outstanding (p.retried token).1, (p.retried token).2)
  | .finish token ending =>
    (.finished (p.finish token ending.isFailure).1, (p.finish token ending.isFailure).2)

/-- What comes of calls, one after another. -/
def after (p : TokenPool) (calls : List Call) : TokenPool :=
  calls.foldl (fun p c => (p.perform c).2) p

/-- A call that completes a task reports what became of the count; a token keeps that to itself. -/
def report? (p : TokenPool) : Call → Option (Except Fault Bool)
  | .decrement => some p.countdown.decrement.1
  | .finish token ending =>
    (p.live? token).map fun epoch => (p.countdown.complete epoch ending.isFailure).1
  | _ => none

/-- The reports of the completing calls, in order. -/
def reports (p : TokenPool) : List Call → List (Except Fault Bool)
  | [] => []
  | c :: rest => (p.report? c).toList ++ (p.perform c).2.reports rest

/-- Whether a call notes that a task was retried. -/
def notesRetry (p : TokenPool) : Call → Bool
  | .markRetry => true
  | .retried token => (p.live? token).isSome
  | _ => false

/-- Whether a call notes that a task failed. -/
def notesError (p : TokenPool) : Call → Bool
  | .markError => true
  | .finish token ending => ending.isFailure && (p.live? token).isSome
  | _ => false

variable {p q : TokenPool} {c : Call} {calls before rest : List Call} {base n : Nat}

theorem after_append (p : TokenPool) (calls rest : List Call) :
    p.after (calls ++ rest) = (p.after calls).after rest := List.foldl_append

theorem after_concat (p : TokenPool) (calls : List Call) (c : Call) :
    p.after (calls ++ [c]) = ((p.after calls).perform c).2 := after_append p calls [c]

theorem reports_append (p : TokenPool) (calls rest : List Call) :
    p.reports (calls ++ rest) = p.reports calls ++ (p.after calls).reports rest := by
  induction calls generalizing p with
  | nil => rfl
  | cons c calls ih =>
    rw [List.cons_append, reports, reports, ih, List.append_assoc]
    rfl

theorem reports_concat (p : TokenPool) (calls : List Call) (c : Call) :
    p.reports (calls ++ [c]) = p.reports calls ++ ((p.after calls).report? c).toList := by
  rw [reports_append, reports, reports, List.append_nil]

/-! ## Tokens of the current arming -/

/-- Whether a call arms the countdown. -/
def Call.arms : Call → Bool
  | .arm _ | .armTokens _ => true
  | _ => false

/-- A call does not arm the countdown, and is about no token before this position. -/
def Call.Since (base : Nat) : Call → Prop
  | .arm _ | .armTokens _ => False
  | .retried token | .finish token _ => base ≤ token
  | _ => True

instance (base : Nat) : DecidablePred (Call.Since base) := fun c => by
  cases c <;> unfold Call.Since <;> infer_instance

theorem Call.Since.arms (h : c.Since base) : c.arms = false := by
  cases c <;> first | rfl | exact h.elim

/-- The tokens from this position on belong to the current arming. -/
def Current (p : TokenPool) (base : Nat) : Prop :=
  ∀ token epoch, base ≤ token → p.live? token = some epoch → epoch = p.countdown.epoch

theorem live?_of_le {token : Nat} (h : p.tokens.length ≤ token) : p.live? token = none := by
  unfold live?
  rw [List.getElem?_eq_none h]
  rfl

/-- To use up a token leaves all others. -/
theorem live?_set (p : TokenPool) (d : Countdown) (token other : Nat) :
    (TokenPool.mk d (p.tokens.set token none)).live? other =
      if other = token then none else p.live? other := by
  unfold live?
  rw [List.getElem?_set]
  by_cases h : token = other
  · subst h
    rw [if_pos rfl, if_pos rfl]
    split <;> rfl
  · rw [if_neg h, if_neg (Ne.symm h)]

theorem finish_of_some {token : Nat} {epoch : UInt64} (h : p.live? token = some epoch)
    (failed : Bool) : p.finish token failed =
      (true, ⟨(p.countdown.complete epoch failed).2, p.tokens.set token none⟩) := by
  unfold finish
  rw [h]

theorem finish_of_none {token : Nat} (h : p.live? token = none) (failed : Bool) :
    p.finish token failed = (false, p) := by
  unfold finish
  rw [h]

theorem retried_of_some {token : Nat} {epoch : UInt64} (h : p.live? token = some epoch) :
    p.retried token = (some (p.countdown.retried epoch).outstanding,
      { p with countdown := p.countdown.retried epoch }) := by
  unfold retried
  rw [h]

theorem retried_of_none {token : Nat} (h : p.live? token = none) :
    p.retried token = (none, p) := by
  unfold retried
  rw [h]

/-- The tokens of an arming stand behind all that were handed out before. -/
theorem live?_arm (p : TokenPool) (count token : Nat) : (p.arm count).2.live? token =
    if token < p.tokens.length then p.live? token
    else if token < p.tokens.length + count then some (p.countdown.arm count).epoch else none := by
  unfold live? arm
  dsimp only
  rw [List.getElem?_append]
  split
  · rfl
  · rw [List.getElem?_replicate]
    by_cases h : token < p.tokens.length + count
    · rw [if_pos (by omega), if_pos h]
      rfl
    · rw [if_neg (by omega), if_neg h]
      rfl

/-! ## One call -/

/-- The report of the completing call number `i`, counted from 0, since an arming with `n`
tasks. -/
def report (n i : Nat) : Except Fault Bool :=
  if n ≤ i then .error (.invariantViolation .nothingOutstanding) else .ok (i + 1 == n)

/-- What a call comes to when `n - k` of `n` tasks are outstanding. -/
structure Steps (p : TokenPool) (c : Call) (epoch : UInt64) (n k : Nat) : Prop where
  counts : (p.perform c).2.countdown.Counts epoch (n - (k + (p.report? c).toList.length))
  report : (p.report? c).toList = (List.range (p.report? c).toList.length).map
    fun i => TokenPool.report n (k + i)
  retries : (p.perform c).2.countdown.retries =
    (p.countdown.retries || (p.notesRetry c && decide (k < n)))
  errors : (p.perform c).2.countdown.errors =
    ((p.countdown.errors || (p.notesError c && decide (k < n))) && decide (c ≠ .clearErrors))

/-- Epochs are only given by armings, and tokens are only used up. -/
structure Keeps (p q : TokenPool) : Prop where
  epoch : q.countdown.epoch = p.countdown.epoch
  length : q.tokens.length = p.tokens.length
  live : ∀ token epoch, q.live? token = some epoch → p.live? token = some epoch

theorem keeps_of_tokens {d : Countdown} (hd : d.epoch = p.countdown.epoch) :
    p.Keeps { p with countdown := d } := ⟨hd, rfl, fun _ _ h => h⟩

/-- A call that is no arming leaves epochs and tokens, but for the one that it uses up. -/
theorem keeps_perform (hc : c.arms = false) : p.Keeps (p.perform c).2 := by
  cases c with
  | arm count => cases hc
  | armTokens count => cases hc
  | decrement => exact keeps_of_tokens p.countdown.epoch_decrement
  | markRetry => exact keeps_of_tokens p.countdown.epoch_markRetry
  | markError => exact keeps_of_tokens p.countdown.epoch_markError
  | clearErrors => exact keeps_of_tokens rfl
  | wait => exact keeps_of_tokens rfl
  | retried token =>
    show p.Keeps (p.retried token).2
    cases hlive : p.live? token with
    | none =>
      rw [retried_of_none hlive]
      exact keeps_of_tokens rfl
    | some epoch =>
      rw [retried_of_some hlive]
      exact keeps_of_tokens (p.countdown.epoch_retried epoch)
  | finish token ending =>
    show p.Keeps (p.finish token ending.isFailure).2
    cases hlive : p.live? token with
    | none =>
      rw [finish_of_none hlive]
      exact keeps_of_tokens rfl
    | some epoch =>
      rw [finish_of_some hlive]
      refine ⟨p.countdown.epoch_complete epoch _, List.length_set .., fun other epoch' hother => ?_⟩
      rw [live?_set] at hother
      split at hother
      · cases hother
      · exact hother

theorem Current.perform (h : p.Current base) (hc : c.arms = false) :
    (p.perform c).2.Current base := by
  have hkeeps := keeps_perform (p := p) hc
  intro token epoch ht hlive
  exact (h token epoch ht (hkeeps.live token epoch hlive)).trans hkeeps.epoch.symm

/-- A call that completes no task counts nothing. -/
theorem steps_of_not_counting {k : Nat} {epoch : UInt64} (hreport : p.report? c = none)
    (hcounts : (p.perform c).2.countdown.Counts epoch (n - k))
    (hretries : (p.perform c).2.countdown.retries =
      (p.countdown.retries || (p.notesRetry c && decide (k < n))))
    (herrors : (p.perform c).2.countdown.errors =
      ((p.countdown.errors || (p.notesError c && decide (k < n))) && decide (c ≠ .clearErrors))) :
    p.Steps c epoch n k where
  counts := by
    rw [hreport]
    exact hcounts
  report := by
    rw [hreport]
    rfl
  retries := hretries
  errors := herrors

/-- A completing call counts one task, or finds none. -/
theorem decrement_of_counts {d : Countdown} {k : Nat} {epoch : UInt64}
    (h : d.Counts epoch (n - k)) :
    d.decrement.1 = report n k ∧ d.Less d.decrement.2 epoch (n - (k + 1)) := by
  unfold report
  by_cases hle : n ≤ k
  · have hnone : n - k = 0 := by omega
    have hnone' : n - (k + 1) = 0 := by omega
    rw [hnone] at h
    rw [if_pos hle, hnone', h.decrement_zero]
    exact ⟨rfl, h, rfl, rfl⟩
  · have hsome : n - k = n - (k + 1) + 1 := by omega
    rw [hsome] at h
    rw [if_neg hle]
    obtain ⟨hreport, hless⟩ := h.decrement
    refine ⟨hreport.trans (congrArg Except.ok ?_), hless⟩
    rw [Bool.eq_iff_iff, beq_iff_eq, beq_iff_eq]
    omega

theorem bne_zero_sub (n k : Nat) : (n - k != 0) = decide (k < n) := by
  rw [Bool.eq_iff_iff, bne_iff_ne, decide_eq_true_iff]
  omega

section

variable {epoch : UInt64} {k token : Nat}

theorem steps_decrement (h : p.countdown.Counts epoch (n - k)) : p.Steps .decrement epoch n k := by
  obtain ⟨hreport, hless⟩ := decrement_of_counts h
  refine ⟨hless.counts, congrArg (fun r => [r]) hreport, ?_, ?_⟩
  · simpa [perform, notesRetry] using hless.retries
  · simpa [perform, notesError] using hless.errors

/-- A token of the current arming that is retried leaves a mark. -/
theorem steps_retried (hcurrent : ∀ epoch', p.live? token = some epoch' →
    epoch' = p.countdown.epoch) (h : p.countdown.Counts epoch (n - k)) :
    p.Steps (.retried token) epoch n k := by
  cases hlive : p.live? token with
  | none =>
    refine steps_of_not_counting rfl ?_ ?_ ?_
    · simpa [perform, retried_of_none hlive] using h
    · simp [perform, retried_of_none hlive, notesRetry, hlive]
    · simp [perform, retried_of_none hlive, notesError]
  | some epoch' =>
    obtain rfl : epoch' = epoch := (hcurrent epoch' hlive).trans h.epoch
    have hretried : p.countdown.retried epoch' = p.countdown.markRetry := if_pos h.epoch
    refine steps_of_not_counting rfl ?_ ?_ ?_
    · simpa [perform, retried_of_some hlive] using h.retried epoch'
    · simp [perform, retried_of_some hlive, hretried, h.markRetry, notesRetry, hlive,
        bne_zero_sub]
    · simp [perform, retried_of_some hlive, hretried, h.markRetry, notesError]

/-- A token of the current arming that is finished counts one task. -/
theorem steps_finish (hcurrent : ∀ epoch', p.live? token = some epoch' →
    epoch' = p.countdown.epoch) (h : p.countdown.Counts epoch (n - k)) (ending : Ending) :
    p.Steps (.finish token ending) epoch n k := by
  cases hlive : p.live? token with
  | none =>
    refine steps_of_not_counting (by simp [report?, hlive]) ?_ ?_ ?_
    · simpa [perform, finish_of_none hlive] using h
    · simp [perform, finish_of_none hlive, notesRetry]
    · simp [perform, finish_of_none hlive, notesError, hlive]
  | some epoch' =>
    obtain rfl : epoch' = epoch := (hcurrent epoch' hlive).trans h.epoch
    have hmarked : { p.countdown with
        errors := p.countdown.errors || (ending.isFailure && n - k != 0) }.Counts epoch'
        (n - k) := ⟨h.epoch, h.outstanding, h.done⟩
    obtain ⟨hreport, hless⟩ := decrement_of_counts hmarked
    rw [← h.complete_eq] at hreport hless
    have hsome : p.report? (.finish token ending) = some (TokenPool.report n k) := by
      rw [report?, hlive, Option.map_some, hreport]
    refine ⟨?_, ?_, ?_, ?_⟩
    · rw [hsome]
      simpa [perform, finish_of_some hlive] using hless.counts
    · rw [hsome]
      rfl
    · simpa [perform, finish_of_some hlive, notesRetry] using hless.retries
    · have herrors := hless.errors
      simp only [bne_zero_sub] at herrors
      simpa [perform, finish_of_some hlive, notesError, hlive] using herrors

/-- A call since the arming counts on what the calls before it have left. -/
theorem steps (hcurrent : p.Current base) (hc : c.Since base)
    (h : p.countdown.Counts epoch (n - k)) : p.Steps c epoch n k := by
  cases c with
  | arm count => exact hc.elim
  | armTokens count => exact hc.elim
  | decrement => exact steps_decrement h
  | markRetry =>
    refine steps_of_not_counting rfl ?_ ?_ ?_
    · show p.countdown.markRetry.Counts _ _
      rw [h.markRetry]
      exact ⟨h.epoch, h.outstanding, h.done⟩
    · simp [perform, h.markRetry, notesRetry, bne_zero_sub]
    · simp [perform, h.markRetry, notesError]
  | markError =>
    refine steps_of_not_counting rfl ?_ ?_ ?_
    · show p.countdown.markError.Counts _ _
      rw [h.markError]
      exact ⟨h.epoch, h.outstanding, h.done⟩
    · simp [perform, h.markError, notesRetry]
    · simp [perform, h.markError, notesError, bne_zero_sub]
  | clearErrors =>
    refine steps_of_not_counting rfl ⟨h.epoch, h.outstanding, h.done⟩ ?_ ?_
    · simp [perform, Countdown.clearErrors, notesRetry]
    · simp [perform, Countdown.clearErrors]
  | wait =>
    refine steps_of_not_counting rfl h ?_ ?_
    · simp [perform, notesRetry]
    · simp [perform, notesError]
  | retried token => exact steps_retried (fun epoch' => hcurrent token epoch' hc) h
  | finish token ending => exact steps_finish (fun epoch' => hcurrent token epoch' hc) h ending

end

/-! ## Calls since an arming -/

/-- A place in a list with one element more is a place in the list, or the last one. -/
theorem exists_place_concat {α : Type} {P : List α → α → List α → Prop} {l : List α} {a : α} :
    (∃ before x rest, l ++ [a] = before ++ x :: rest ∧ P before x rest) ↔
      (∃ before x rest, l = before ++ x :: rest ∧ P before x (rest ++ [a])) ∨ P l a [] := by
  constructor
  · rintro ⟨before, x, rest, heq, hP⟩
    rcases List.eq_nil_or_concat rest with rfl | ⟨rest, b, rfl⟩
    · obtain ⟨rfl, hlast⟩ := List.append_inj' heq rfl
      obtain ⟨rfl, -⟩ := List.cons.inj hlast
      exact .inr hP
    · rw [List.concat_eq_append] at heq hP
      rw [← List.cons_append, ← List.append_assoc] at heq
      obtain ⟨rfl, hlast⟩ := List.append_inj' heq rfl
      obtain ⟨rfl, -⟩ := List.cons.inj hlast
      exact .inl ⟨before, x, rest, rfl, hP⟩
  · rintro (⟨before, x, rest, rfl, hP⟩ | hP)
    · exact ⟨before, x, rest ++ [a], by simp, hP⟩
    · exact ⟨l, a, [], rfl, hP⟩

/-- A retry was noted while tasks were left. -/
def Retried (p : TokenPool) (n : Nat) (calls : List Call) : Prop :=
  ∃ before c rest, calls = before ++ c :: rest ∧
    ((p.after before).notesRetry c = true ∧ (p.reports before).length < n)

/-- A failure was noted while tasks were left, and not forgotten since. -/
def Failed (p : TokenPool) (n : Nat) (calls : List Call) : Prop :=
  ∃ before c rest, calls = before ++ c :: rest ∧
    ((p.after before).notesError c = true ∧ (p.reports before).length < n ∧ .clearErrors ∉ rest)

theorem retried_concat (p : TokenPool) (n : Nat) (calls : List Call) (c : Call) :
    p.Retried n (calls ++ [c]) ↔ p.Retried n calls ∨
      (p.after calls).notesRetry c = true ∧ (p.reports calls).length < n :=
  exists_place_concat

theorem failed_concat (p : TokenPool) (n : Nat) (calls : List Call) (c : Call) :
    p.Failed n (calls ++ [c]) ↔ (p.Failed n calls ∨
      (p.after calls).notesError c = true ∧ (p.reports calls).length < n) ∧ c ≠ .clearErrors := by
  refine exists_place_concat.trans ?_
  by_cases hc : c = .clearErrors
  · subst hc
    refine iff_of_false ?_ fun h => h.2 rfl
    rintro (⟨before, d, rest, -, -, -, hnot⟩ | ⟨hnotes, -⟩)
    · exact hnot (List.mem_append_right _ List.mem_cons_self)
    · cases hnotes
  · have hkept : ∀ rest : List Call, .clearErrors ∉ rest ++ [c] ↔ .clearErrors ∉ rest := by
      intro rest
      rw [List.mem_append, List.mem_singleton, or_iff_left (Ne.symm hc)]
    unfold Failed
    simp only [hkept, List.not_mem_nil, not_false_eq_true, and_true, ne_eq, hc]

/-- The countdown after calls since an arming with `n` tasks. -/
structure Tally (p : TokenPool) (epoch : UInt64) (n : Nat) (calls : List Call) : Prop where
  counts : (p.after calls).countdown.Counts epoch (n - (p.reports calls).length)
  reports : p.reports calls = (List.range (p.reports calls).length).map (report n)
  retries : (p.after calls).countdown.retries = true ↔ p.Retried n calls
  errors : (p.after calls).countdown.errors = true ↔ p.Failed n calls

/-- Nothing has been called since the arming. -/
theorem tally_nil {epoch : UInt64} (hcounts : p.countdown.Counts epoch n)
    (hretries : p.countdown.retries = false) (herrors : p.countdown.errors = false) :
    p.Tally epoch n [] where
  counts := hcounts
  reports := rfl
  retries := by
    refine iff_of_false (Bool.eq_false_iff.1 hretries) ?_
    rintro ⟨before, c, rest, heq, -⟩
    cases List.append_ne_nil_of_right_ne_nil before (List.cons_ne_nil c rest) heq.symm
  errors := by
    refine iff_of_false (Bool.eq_false_iff.1 herrors) ?_
    rintro ⟨before, c, rest, heq, -⟩
    cases List.append_ne_nil_of_right_ne_nil before (List.cons_ne_nil c rest) heq.symm

/-- The tally goes on with each call. -/
theorem Tally.concat {epoch : UInt64} (h : p.Tally epoch n calls)
    (hs : (p.after calls).Steps c epoch n (p.reports calls).length) :
    p.Tally epoch n (calls ++ [c]) := by
  have hlength : (p.reports (calls ++ [c])).length =
      (p.reports calls).length + ((p.after calls).report? c).toList.length := by
    rw [reports_concat, List.length_append]
  constructor
  · rw [hlength, after_concat]
    exact hs.counts
  · rw [hlength, reports_concat, List.range_add, List.map_append, ← h.reports, List.map_map]
    exact congrArg _ hs.report
  · rw [after_concat, hs.retries, retried_concat, ← h.retries]
    simp
  · rw [after_concat, hs.errors, failed_concat, ← h.errors]
    simp

/-- So it is after any calls that are about the current arming. -/
theorem tally {epoch : UInt64} (h : p.Tally epoch n []) (hcurrent : p.Current base)
    (calls : List Call) (hsince : ∀ c ∈ calls, c.Since base) :
    p.Tally epoch n calls ∧ (p.after calls).Current base := by
  induction calls using List.reverseRecOn with
  | nil => exact ⟨h, hcurrent⟩
  | append_singleton calls c ih =>
    obtain ⟨htally, hcurrent'⟩ := ih fun d hd => hsince d (List.mem_append_left _ hd)
    have hc := hsince c (List.mem_append_right _ List.mem_cons_self)
    refine ⟨htally.concat (steps hcurrent' hc htally.counts), ?_⟩
    rw [after_concat]
    exact hcurrent'.perform hc.arms

/-- What calls since an arming with `n` tasks have come to. -/
structure Exact (p : TokenPool) (n : Nat) (calls : List Call) : Prop where
  /-- One task less is outstanding for each completing call. -/
  outstanding : (p.after calls).countdown.outstanding = n - min n (p.reports calls).length
  done : (p.after calls).countdown.done = true ↔ n ≤ (p.reports calls).length
  /-- Exactly the completing call number `n` reports that the last task is done, and those behind
  it report that there was none. -/
  reports : p.reports calls = (List.range (p.reports calls).length).map (report n)
  /-- A decrement returns its report. -/
  decrement : ∀ before rest, calls = before ++ .decrement :: rest →
    ((p.after before).perform .decrement).1 = .counted (report n (p.reports before).length)
  /-- A token does not. -/
  finish : ∀ before token ending rest, calls = before ++ .finish token ending :: rest →
    ((p.after before).perform (.finish token ending)).1 =
      .finished ((p.after before).report? (.finish token ending)).isSome
  /-- A completing call that finds no task changes nothing. -/
  beyond : ∀ before c rest, calls = before ++ c :: rest → n ≤ (p.reports before).length →
    ((p.after before).report? c).isSome →
      ((p.after before).perform c).2.countdown = (p.after before).countdown
  retries : (p.after calls).countdown.retries = true ↔ p.Retried n calls
  errors : (p.after calls).countdown.errors = true ↔ p.Failed n calls
  /-- To wait succeeds when no task is outstanding, tells whether neither flag is set, and changes
  nothing. -/
  wait : (p.after calls).perform .wait =
    (.verdict (if (p.after calls).countdown.outstanding = 0 then
        .ok !((p.after calls).countdown.retries || (p.after calls).countdown.errors)
      else .error .timeout), p.after calls)

/-- A completing call changes nothing once all tasks are done. -/
theorem perform_of_done {epoch : UInt64} {k : Nat} (h : p.countdown.Counts epoch (n - k))
    (hs : p.Steps c epoch n k) (hdone : n ≤ k) (hreport : (p.report? c).isSome) :
    (p.perform c).2.countdown = p.countdown := by
  have hnone : n - k = 0 := Nat.sub_eq_zero_of_le hdone
  have hnone' : n - (k + (p.report? c).toList.length) = 0 := by omega
  have hclear : c ≠ .clearErrors := by
    rintro rfl
    cases hreport
  have hcounts := hs.counts
  have hretries := hs.retries
  have herrors := hs.errors
  rw [hnone'] at hcounts
  rw [hnone] at h
  rw [decide_eq_false (Nat.not_lt.2 hdone), Bool.and_false, Bool.or_false] at hretries herrors
  rw [decide_eq_true hclear, Bool.and_true] at herrors
  rw [Countdown.mk.injEq]
  exact ⟨hcounts.outstanding.trans h.outstanding.symm, hretries, herrors,
    hcounts.done.trans h.done.symm, hcounts.epoch.trans h.epoch.symm⟩

/-- An arming leaves its own tokens, or none, behind those of earlier armings. -/
theorem tally_armed (p : TokenPool) {arming : Call}
    (harming : arming = .arm n ∨ arming = .armTokens n) :
    (p.perform arming).2.Tally (p.countdown.epoch + 1) n [] ∧
      (p.perform arming).2.Current p.tokens.length := by
  rcases harming with rfl | rfl
  · refine ⟨tally_nil (Countdown.counts_arm _ _) rfl rfl, fun token epoch ht hlive => ?_⟩
    have hnone : (p.perform (.arm n)).2.live? token = none := live?_of_le ht
    rw [hnone] at hlive
    cases hlive
  · refine ⟨tally_nil (Countdown.counts_arm _ _) rfl rfl, fun token epoch ht hlive => ?_⟩
    have harm : (p.perform (.armTokens n)).2.live? token = (p.arm n).2.live? token := rfl
    rw [harm, live?_arm, if_neg (Nat.not_lt.2 ht)] at hlive
    split at hlive
    · exact (Option.some.inj hlive).symm
    · cases hlive

/-- After an arming with `n` tasks, with or without tokens, every sequence of calls that arm nothing
and use only tokens of this arming is counted exactly. -/
theorem counts_exactly (p : TokenPool) (n : Nat) (arming : Call)
    (harming : arming = .arm n ∨ arming = .armTokens n) (calls : List Call)
    (hsince : ∀ c ∈ calls, c.Since p.tokens.length) : (p.perform arming).2.Exact n calls := by
  obtain ⟨harmed, hcurrent⟩ := p.tally_armed harming
  generalize (p.perform arming).2 = q at harmed hcurrent
  -- whatever holds after all calls holds after those before some call
  have hbefore : ∀ before c rest, calls = before ++ c :: rest →
      q.Tally (p.countdown.epoch + 1) n before ∧
        (q.after before).Steps c (p.countdown.epoch + 1) n (q.reports before).length := by
    rintro before c rest rfl
    obtain ⟨htally, hcurrent'⟩ := tally harmed hcurrent before fun d hd =>
      hsince d (List.mem_append_left _ hd)
    exact ⟨htally, steps hcurrent' (hsince c (List.mem_append_right _ List.mem_cons_self))
      htally.counts⟩
  have htally := (tally harmed hcurrent calls hsince).1
  refine ⟨?_, ?_, htally.reports, ?_, ?_, ?_, htally.retries, htally.errors, rfl⟩
  · rw [htally.counts.outstanding]
    omega
  · rw [htally.counts.done, beq_iff_eq]
    omega
  · intro before rest heq
    have hreport := (hbefore before .decrement rest heq).2.report
    exact congrArg Reply.counted (List.cons.inj hreport).1
  · intro before token ending rest heq
    show Reply.finished ((q.after before).finish token ending.isFailure).1 = _
    rw [report?]
    cases hlive : (q.after before).live? token with
    | none => rw [finish_of_none hlive, Option.map_none, Option.isSome_none]
    | some epoch => rw [finish_of_some hlive, Option.map_some, Option.isSome_some]
  · intro before c rest heq hdone hreport
    obtain ⟨htally, hsteps⟩ := hbefore before c rest heq
    exact perform_of_done htally.counts hsteps hdone hreport

/-- A token is left from an earlier arming.  Of three tasks one is counted without its token, one
fails, which is forgotten, and the token of another is dropped; then the last token finds nothing
to complete. -/
theorem counts_exactly_dropped :
    let p := (empty.arm 1).2
    let calls : List Call := [.retried 1, .decrement, .finish 2 .failed, .clearErrors,
      .finish 3 .dropped, .finish 1 .succeeded, .decrement, .markError, .wait]
    (∀ c ∈ calls, c.Since 1) ∧ (p.perform (.armTokens 3)).2.Exact 3 calls ∧
      (p.perform (.armTokens 3)).2.after calls =
        ⟨⟨0, true, true, true, 2⟩, [some 1, none, none, none]⟩ := by
  intro p calls
  have hsince : ∀ c ∈ calls, c.Since p.tokens.length := by decide
  exact ⟨hsince, counts_exactly p 3 (.armTokens 3) (.inr rfl) calls hsince, by decide⟩

end TokenPool

end LeaseLock
