import LeaseLock.Coordinator.Basic
import LeaseLock.Text.Quoted

/-
  LeaseLock: the coordinator as statistics report it.
  A snapshot lists the handles by their ids and repeats the counts.  Its text is JSON without
  blanks, with the members in a fixed order.
-/

namespace LeaseLock.Coordinator

/-- A handle as statistics report it. -/
structure HandleSnapshot where
  /-- The id of the handle. -/
  id : Nat
  /-- The name of the resource. -/
  name : String
  /-- What the lock looks like. -/
  lock : LockState
  /-- The sessions that hold the lock, in ascending order. -/
  holders : List Nat
  /-- The number of sessions that have the handle open. -/
  openers : Nat
  /-- The number of requests that wait. -/
  waiters : Nat
  /-- The number of exclusive grants so far. -/
  generation : Nat
deriving DecidableEq, Repr

/-- The coordinator as statistics report it. -/
structure Snapshot where
  /-- The number of sessions. -/
  sessions : Nat
  /-- The handles in ascending order of their ids. -/
  handles : List HandleSnapshot
  /-- The counts. -/
  tally : Tally
deriving DecidableEq, Repr

/-- What statistics report of a handle. -/
def Handle.snapshot {ρ : Type} (h : Handle ρ) (id : Nat) : HandleSnapshot where
  id := id
  name := h.name
  lock := h.lockState
  holders := h.holders.keys
  openers := h.openers.size
  waiters := h.waiters.length
  generation := h.generation

/-- What statistics report of the coordinator. -/
def State.snapshot {ρ : Type} (s : State ρ) : Snapshot where
  sessions := s.sessions.size
  handles := s.handles.entries.map fun (id, h) => h.snapshot id
  tally := s.tally

/-! ## The text -/

/-- A member of an object. -/
def member (key text : String) : String := Quoted.quote key ++ ":" ++ text

/-- An object of the given members. -/
def object (members : List String) : String := "\x7b" ++ ",".intercalate members ++ "\x7d"

/-- An array of the given elements. -/
def array (elements : List String) : String := "[" ++ ",".intercalate elements ++ "]"

/-- The text of a lock state: its kind and, unless it is unlocked, its value. -/
def LockState.text : LockState → String
  | .unlocked => object [member "state" (Quoted.quote "unlocked")]
  | .shared count =>
    object [member "state" (Quoted.quote "shared"), member "value" (toString count)]
  | .exclusive session =>
    object [member "state" (Quoted.quote "exclusive"), member "value" (toString session)]

/-- The text of a handle. -/
def HandleSnapshot.text (h : HandleSnapshot) : String :=
  object [member "id" (toString h.id), member "name" (Quoted.quote h.name),
    member "state" h.lock.text, member "holders" (array (h.holders.map toString)),
    member "openers" (toString h.openers), member "waiters" (toString h.waiters),
    member "generation" (toString h.generation)]

/-- The text of a snapshot. -/
def Snapshot.text (s : Snapshot) : String :=
  object [member "sessions" (toString s.sessions),
    member "handles" (array (s.handles.map (·.text))),
    member "grants" (toString s.tally.grants), member "denials" (toString s.tally.denials),
    member "queued" (toString s.tally.queued), member "cancelled" (toString s.tally.cancelled),
    member "expired_sessions" (toString s.tally.expiredSessions),
    member "protocol_errors" (toString s.tally.protocolErrors)]

end LeaseLock.Coordinator
