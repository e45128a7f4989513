import LeaseLock.Fault
import LeaseLock.Table
import LeaseLock.Time

/-
  LeaseLock: sessions and their leases.
  A session lives until its lease ends; every renewal starts the lease anew.  A session whose lease
  has ended cannot be renewed, even while it is still registered.  The registry keeps for each
  session the handles it has open and the locks it holds; the rules of locks are not here.
-/

namespace LeaseLock

/-- A client of the lock server. -/
structure Session where
  /-- The instant at which the lease ends. -/
  expiry : Nat
  /-- The handles whose lock the session holds. -/
  held : IdSet
  /-- The handles that the session has open, locked or not. -/
  opened : IdSet
deriving DecidableEq

/-- Whether the lease has ended at `now`. -/
def Session.lapsed (s : Session) (now : Nat) : Bool := s.expiry ≤ now

/-- The registered sessions. -/
structure Sessions where
  /-- The sessions by their ids. -/
  table : Table Session
  /-- The length of a lease. -/
  lease : Nat
  /-- The id of the next session. -/
  nextId : Nat
deriving DecidableEq

namespace Sessions

/-- No sessions yet; ids start at 1. -/
def empty (lease : Nat) : Sessions := ⟨∅, lease, 1⟩

/-- The number of registered sessions. -/
def size (r : Sessions) : Nat := r.table.size

/-- Whether no session is registered. -/
def isEmpty (r : Sessions) : Bool := r.table.isEmpty

/-- The session of this id. -/
def get? (r : Sessions) (id : Nat) : Option Session := r.table.get? id

/-- Whether a session is registered. -/
def contains (r : Sessions) (id : Nat) : Bool := r.table.contains id

/-- Register a session with a fresh lease.  Its id is used up even if the lease would end at an
instant that the clock cannot name; then no session is registered. -/
def create (r : Sessions) (now : Nat) : Except Crash Nat × Sessions :=
  let used := { r with nextId := r.nextId + 1 }
  match Time.add? now r.lease with
  | some expiry =>
    (.ok r.nextId,
      { used with table := r.table.insert r.nextId ⟨expiry, IdSet.empty, IdSet.empty⟩ })
  | none => (.error .instantOverflow, used)

/-- Renew the lease of a session that still has one; returns its new end. -/
def renew (r : Sessions) (id now : Nat) : Except Failure Nat × Sessions :=
  match r.get? id with
  | none => (.error (.refused (.sessionExpired id)), r)
  | some s =>
    if s.lapsed now then (.error (.refused (.sessionExpired id)), r)
    else
      match Time.add? now r.lease with
      | some expiry => (.ok expiry, { r with table := r.table.insert id { s with expiry } })
      | none => (.error (.crashed .instantOverflow), r)

/-- The sessions whose lease has ended at `now`, in ascending order. -/
def lapsed (r : Sessions) (now : Nat) : List Nat :=
  (r.table.filter fun _ s => s.lapsed now).keys

/-- Forget a session; returns what it was. -/
def remove (r : Sessions) (id : Nat) : Option Session × Sessions :=
  (r.get? id, { r with table := r.table.erase id })

/-- Change what is recorded for a session, if it is registered. -/
def modify (r : Sessions) (id : Nat) (f : Session → Session) : Sessions :=
  { r with table := r.table.modify id f }

/-- Record that a session holds a lock. -/
def hold (r : Sessions) (id handle : Nat) : Sessions :=
  r.modify id fun s => { s with held := IdSet.add s.held handle }

/-- Record that a session no longer holds a lock. -/
def unhold (r : Sessions) (id handle : Nat) : Sessions :=
  r.modify id fun s => { s with held := s.held.erase handle }

/-- Record that a session has opened a handle. -/
def openHandle (r : Sessions) (id handle : Nat) : Sessions :=
  r.modify id fun s => { s with opened := IdSet.add s.opened handle }

end Sessions

end LeaseLock
