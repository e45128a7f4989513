/-
  LeaseLock: instants and durations.
  Both are natural numbers of nanoseconds; an instant is the time passed since the clock was
  started.  Durations are unbounded, instants are not: a clock counts seconds in 63 bits and
  cannot name an instant past the last of them, and `Time.add?` refuses to.  Nothing here reads a
  clock.
-/

namespace LeaseLock.Time

/-! ## Durations -/

/-- One second. -/
def second : Nat := 1000000000

/-- One millisecond. -/
def milli : Nat := 1000000

/-- A duration of `n` seconds. -/
def ofSeconds (n : Nat) : Nat := n * second

/-- A duration of `n` milliseconds. -/
def ofMillis (n : Nat) : Nat := n * milli

/-- The whole milliseconds in a duration. -/
def toMillis (d : Nat) : Nat := d / milli

theorem toMillis_ofMillis (n : Nat) : toMillis (ofMillis n) = n := by
  simp [toMillis, ofMillis, milli]

/-! ## Text -/

/-- Ten to this power. -/
def tens : Nat → Nat
  | 0 => 1
  | n + 1 => 10 * tens n

/-- The digits behind the point of `r` parts out of `tens places`, without zeros at the end. -/
def fraction (places r : Nat) : List Char :=
  let digits := Nat.toDigits 10 r
  ((List.replicate (places - digits.length) '0' ++ digits).reverse.dropWhile (· == '0')).reverse

/-- A duration in a unit of `tens places` nanoseconds. -/
def textIn (places : Nat) (unit : String) (d : Nat) : String :=
  let whole := toString (d / tens places)
  match fraction places (d % tens places) with
  | [] => whole ++ unit
  | digits => whole ++ "." ++ .ofList digits ++ unit

/-- A duration in the largest unit of which it has one: seconds, milliseconds, microseconds or
nanoseconds. -/
def text (d : Nat) : String :=
  if second ≤ d then textIn 9 "s" d
  else if milli ≤ d then textIn 6 "ms" d
  else if 1000 ≤ d then textIn 3 "µs" d
  else textIn 0 "ns" d

/-! ## Instants -/

/-- The first instant that a clock can no longer name: its seconds have 63 bits. -/
def limit : Nat := ofSeconds 9223372036854775808

/-- The instant `d` after `t`, unless it lies at or past `limit`. -/
def add? (t d : Nat) : Option Nat :=
  if t + d < limit then some (t + d) else none

/-- The instant `d` after the start of the clock. -/
def ofStart? (d : Nat) : Option Nat := add? 0 d

theorem add?_eq_some_iff {t d u : Nat} : add? t d = some u ↔ u = t + d ∧ t + d < limit := by
  unfold add?
  split <;> simp_all [eq_comm]

theorem add?_eq_none_iff {t d : Nat} : add? t d = none ↔ limit ≤ t + d := by
  unfold add?
  split
  · simp only [reduceCtorEq, false_iff]
    omega
  · simp only [true_iff]
    omega

theorem le_of_add? {t d u : Nat} (h : add? t d = some u) : t ≤ u := by
  have := (add?_eq_some_iff.1 h).1
  omega

end LeaseLock.Time
