import LeaseLock.Fault

/-
  LeaseLock: counting a set of tasks down to none.
  A countdown is armed with the number of tasks and is done when all have completed.  Two flags
  tell whether a task had to be retried or has failed; they are frozen once the countdown is done.
  Each arming begins an epoch, and a token of an earlier epoch has no effect.
-/

namespace LeaseLock

/-- The state of a countdown. -/
structure Countdown where
  /-- The tasks that have not completed. -/
  outstanding : Nat
  /-- Whether some task was retried before the end. -/
  retries : Bool
  /-- Whether some task failed before the end. -/
  errors : Bool
  /-- Whether the tasks of an arming have all completed. -/
  done : Bool
  /-- The number of armings, as far as 64 bits hold it. -/
  epoch : UInt64
deriving DecidableEq, Repr

namespace Countdown

/-- A countdown that was never armed. -/
def idle : Countdown := ⟨0, false, false, false, 0⟩

instance : Inhabited Countdown := ⟨idle⟩

/-- Start over with `count` tasks and clear flags. -/
def arm (c : Countdown) (count : Nat) : Countdown :=
  ⟨count, false, false, count == 0, c.epoch + 1⟩

/-- Count one task as completed; tells whether it was the last one. -/
def decrement (c : Countdown) : Except Fault Bool × Countdown :=
  match c.outstanding with
  | 0 => (.error (.invariantViolation .nothingOutstanding), c)
  | 1 => (.ok true, { c with outstanding := 0, done := true })
  | n + 2 => (.ok false, { c with outstanding := n + 1 })

/-- Note that a task failed. -/
def markError (c : Countdown) : Countdown :=
  if c.done then c else { c with errors := true }

/-- Note that a task was retried. -/
def markRetry (c : Countdown) : Countdown :=
  if c.done then c else { c with retries := true }

/-- Forget that tasks failed. -/
def clearErrors (c : Countdown) : Countdown := { c with errors := false }

/-- Complete a task of the arming `epoch`.  A failure is noted before the task is counted, so the
last task can still set the flag. -/
def complete (c : Countdown) (epoch : UInt64) (failed : Bool) : Except Fault Bool × Countdown :=
  if c.epoch = epoch then (if failed then c.markError else c).decrement
  else (.ok false, c)

/-- Note that a task of the arming `epoch` was retried. -/
def retried (c : Countdown) (epoch : UInt64) : Countdown :=
  if c.epoch = epoch then c.markRetry else c

/-- Whether nothing was retried and nothing failed, once all tasks have completed. -/
def verdict (c : Countdown) : Except Fault Bool :=
  if c.outstanding = 0 then .ok !(c.retries || c.errors) else .error .timeout

/-- Complete `n` tasks, one after another; counts the calls that completed the last task, those
that left tasks behind and those that found none. -/
def decrementMany (c : Countdown) : Nat → (Nat × Nat × Nat) × Countdown
  | 0 => ((0, 0, 0), c)
  | n + 1 =>
    match c.decrement with
    | (.ok true, c) => let (⟨a, b, e⟩, c) := decrementMany c n; ((a + 1, b, e), c)
    | (.ok false, c) => let (⟨a, b, e⟩, c) := decrementMany c n; ((a, b + 1, e), c)
    | (.error _, c) => let (⟨a, b, e⟩, c) := decrementMany c n; ((a, b, e + 1), c)

end Countdown

/-! ## Tokens -/

/-- A countdown with the tokens that were handed out for its tasks.  A token stands for one task
and can be used up once; it is named by its position. -/
structure TokenPool where
  /-- The countdown. -/
  countdown : Countdown
  /-- For each token the epoch it belongs to, `none` once it is used up. -/
  tokens : List (Option UInt64)
deriving DecidableEq, Repr

namespace TokenPool

/-- A countdown that was never armed, and no tokens. -/
def empty : TokenPool := ⟨.idle, []⟩

/-- Arm the countdown and hand out a token for each task; returns the position of the first of them
and the position behind the last. -/
def arm (p : TokenPool) (count : Nat) : (Nat × Nat) × TokenPool :=
  let c := p.countdown.arm count
  ((p.tokens.length, p.tokens.length + count),
    ⟨c, p.tokens ++ List.replicate count (some c.epoch)⟩)

/-- The epoch of a token that is not used up. -/
def live? (p : TokenPool) (token : Nat) : Option UInt64 := (p.tokens[token]?).join

/-- Use up a token, completing its task; tells whether the token was there to use. -/
def finish (p : TokenPool) (token : Nat) (failed : Bool) : Bool × TokenPool :=
  match p.live? token with
  | some epoch => (true, ⟨(p.countdown.complete epoch failed).2, p.tokens.set token none⟩)
  | none => (false, p)

/-- Note a retry on a token; returns the outstanding tasks, `none` if the token is used up. -/
def retried (p : TokenPool) (token : Nat) : Option Nat × TokenPool :=
  match p.live? token with
  | some epoch =>
    let c := p.countdown.retried epoch
    (some c.outstanding, { p with countdown := c })
  | none => (none, p)

/-- Drop every token that is left; a dropped token counts as a failure. -/
def dropAll (p : TokenPool) : TokenPool :=
  (List.range p.tokens.length).foldl (fun p token => (p.finish token true).2) p

end TokenPool

end LeaseLock
