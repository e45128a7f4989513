import LeaseLock.Table
import LeaseLock.Wire.Frame

/-
  LeaseLock: the client's end of a connection.
  Many requests can be under way at once.  Each gets an id of its own, which its reply repeats, and
  the caller a ticket, under which the reply is laid down.  A reply that nobody waits for is
  dropped.  Writing and reading can end apart from each other: once writing has ended no request is
  taken, and when reading ends every request under way has had its answer or gets none.
-/

namespace LeaseLock.Client

/-- What became of a request that is no longer under way. -/
inductive Outcome where
  /-- Its reply came. -/
  | replied (reply : Wire.Response)
  /-- No reply can come. -/
  | lost
deriving DecidableEq, Repr

/-- The client's end of a connection. -/
structure Connection where
  /-- The id of the next request. -/
  nextId : UInt32
  /-- The ticket of the next request. -/
  nextTicket : Nat
  /-- The tickets of the requests under way, by their ids. -/
  waiting : Table Nat
  /-- What became of the other requests, by their tickets. -/
  settled : Table Outcome
  /-- Whether requests are still written. -/
  writing : Bool
  /-- Whether replies are still read. -/
  reading : Bool
  /-- The session that calls act for; zero if there is none. -/
  session : UInt64

namespace Connection

/-- A connection over which nothing has gone yet. -/
def fresh : Connection where
  nextId := 1
  nextTicket := 0
  waiting := ∅
  settled := ∅
  writing := true
  reading := true
  session := 0

/-- The session that calls act for. -/
def session? (c : Connection) : Option UInt64 := if c.session = 0 then none else some c.session

/-- What became of the request with this ticket, if it is no longer under way. -/
def outcome? (c : Connection) (ticket : Nat) : Option Outcome := c.settled.get? ticket

/-- Lay down what became of the request with this id. -/
def settle (c : Connection) (id : UInt32) (outcome : Outcome) : Connection :=
  match c.waiting.get? id.toNat with
  | none => c
  | some ticket =>
    { c with
      waiting := c.waiting.erase id.toNat
      settled := c.settled.insert ticket outcome }

/-- Take a request: its frame, the ticket for its reply, and the connection afterwards; there is no
frame once writing has ended.  Ids start again when they are used up; a request that is still under
way with the same id can no longer be answered. -/
def start (c : Connection) (command : UInt8) (body : Bytes) :
    Option (Nat × Wire.Request) × Connection :=
  let id := c.nextId
  let c := { c.settle id .lost with nextId := id + 1 }
  if c.writing then
    (some (c.nextTicket, ⟨id, command, body⟩),
      { c with
        nextTicket := c.nextTicket + 1
        waiting := c.waiting.insert id.toNat c.nextTicket })
  else (none, c)

/-- Read a frame from the server.  One that does not decode is dropped. -/
def receive (c : Connection) (frame : Bytes) : Connection :=
  match Wire.Response.decode frame with
  | .error _ => c
  | .ok reply => if c.reading then c.settle reply.id (.replied reply) else c

/-- Writing has failed. -/
def endWriting (c : Connection) : Connection := { c with writing := false }

/-- Reading has come to its end: the requests under way are lost. -/
def endReading (c : Connection) : Connection :=
  { c with
    reading := false
    waiting := ∅
    settled := c.waiting.values.foldl (fun settled ticket => settled.insert ticket .lost)
      c.settled }

theorem waiting_endReading (c : Connection) : c.endReading.waiting = ∅ := rfl

theorem receive_of_unknown {c : Connection} {frame : Bytes} {reply : Wire.Response}
    (h : Wire.Response.decode frame = .ok reply) (hw : c.waiting.get? reply.id.toNat = none) :
    c.receive frame = c := by
  simp [receive, h, settle, hw]

end Connection

end LeaseLock.Client
