/-
  LeaseLock: a bounded stream with many readers.
  A ring holds the latest messages; each reader has a position in the stream.  A reader that falls
  behind the oldest message held is told once how many messages it has lost and goes on with that
  one.  A new reader sees only what is sent after it joined.
-/

namespace LeaseLock

/-- The latest messages of a stream. -/
structure Broadcast (α : Type) where
  /-- The number of messages that the ring can hold. -/
  capacity : Nat
  /-- The number of messages ever sent. -/
  sent : Nat
  /-- The latest messages, oldest first. -/
  held : List α
deriving DecidableEq, Repr

/-- What a reader finds. -/
inductive Delivery (α : Type) where
  /-- So many messages were lost. -/
  | lagged (count : Nat)
  /-- A message. -/
  | message (x : α)
deriving DecidableEq, Repr

namespace Broadcast

variable {α : Type}

/-- The least power of two that is at least `n`, found from the candidate `p` upwards. -/
def powerFrom (n : Nat) : Nat → Nat → Nat
  | 0, p => p
  | fuel + 1, p => if n ≤ p then p else powerFrom n fuel (2 * p)

/-- The number of messages held for a wanted capacity: the least power of two that is not below
it, and at least one. -/
def ringSize (wanted : Nat) : Nat := powerFrom wanted wanted 1

/-- A stream without messages. -/
def empty (wanted : Nat) : Broadcast α := ⟨ringSize wanted, 0, []⟩

/-- Send a message; the oldest one held makes room for it if need be. -/
def send (b : Broadcast α) (x : α) : Broadcast α :=
  let all := b.held ++ [x]
  { b with sent := b.sent + 1, held := all.drop (all.length - b.capacity) }

/-- Send several messages in order. -/
def sendAll (b : Broadcast α) (xs : List α) : Broadcast α := xs.foldl send b

/-- The position of the oldest message held. -/
def oldest (b : Broadcast α) : Nat := b.sent - b.held.length

/-- Everything that a reader at `position` finds, and its position after reading. -/
def receive (b : Broadcast α) (position : Nat) : List (Delivery α) × Nat :=
  (if position < b.oldest then
      .lagged (b.oldest - position) :: b.held.map .message
    else (b.held.drop (position - b.oldest)).map .message,
   b.sent)

theorem length_held_send_le (b : Broadcast α) (x : α) :
    (b.send x).held.length ≤ b.capacity := by
  simp only [send, List.length_drop]
  omega

end Broadcast

end LeaseLock
