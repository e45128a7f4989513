import LeaseLock.Fault

/-
  LeaseLock: lock modes and the statuses of lock replies.
  Two holders can stand side by side only if both hold the lock in shared mode.
-/

namespace LeaseLock

/-- How a lock is held or wanted. -/
inductive Mode where
  /-- Beside other shared holders. -/
  | shared
  /-- Alone. -/
  | exclusive
deriving DecidableEq, Repr

namespace Mode

/-- The bits of a mode on the wire. -/
def bits : Mode → UInt32
  | shared => 1
  | exclusive => 2

/-- The mode with these bits. -/
def ofBits (bits : UInt32) : Except Fault Mode :=
  if bits = 1 then .ok shared
  else if bits = 2 then .ok exclusive
  else .error (.badMode bits)

/-- Whether a holder in mode `a` and one in mode `b` can stand side by side. -/
def compatible : Mode → Mode → Bool
  | shared, shared => true
  | _, _ => false

theorem ofBits_bits (m : Mode) : ofBits m.bits = .ok m := by
  cases m <;> rfl

theorem compatible_comm (a b : Mode) : compatible a b = compatible b a := by
  cases a <;> cases b <;> rfl

end Mode

/-- The statuses of lock replies that are not errors. -/
inductive LockStatus where
  /-- The lock is held. -/
  | granted
  /-- A request that would not wait found the lock taken. -/
  | busy
  /-- The request waits; no reply carries this status. -/
  | pending
  /-- A waiting request was withdrawn. -/
  | cancelled
deriving DecidableEq, Repr

namespace LockStatus

/-- The number of a status on the wire. -/
def toStatus : LockStatus → UInt32
  | granted => 1
  | busy => 2
  | pending => 3
  | cancelled => 4

/-- The lock status with this number. -/
def ofStatus? (status : UInt32) : Option LockStatus :=
  if status = 1 then some granted
  else if status = 2 then some busy
  else if status = 3 then some pending
  else if status = 4 then some cancelled
  else none

/-- The name of a status. -/
def name : LockStatus → String
  | granted => "Granted"
  | busy => "Busy"
  | pending => "Pending"
  | cancelled => "Cancelled"

theorem ofStatus?_toStatus (s : LockStatus) : ofStatus? s.toStatus = some s := by
  cases s <;> rfl

end LockStatus

end LeaseLock
