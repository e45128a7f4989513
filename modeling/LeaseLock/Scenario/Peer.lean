import LeaseLock.Net.Framing
import LeaseLock.Scenario.Calls

/-
  LeaseLock: scripted runs of a client.
  The server is a script too: every request that it sees in a step takes the next of its reactions,
  which may be replies, bytes that are none, or the end of the connection.
-/

namespace LeaseLock.Scenario.Peer

open LeaseLock.Client

/-! ## The server -/

/-- What the server does at once when it sees a request. -/
inductive Act where
  /-- Reply, to this request or to another. -/
  | reply (id : Option UInt32) (status : UInt32) (body : Bytes)
  /-- Send a frame with this payload. -/
  | payload (bytes : Bytes)
  /-- Send these bytes. -/
  | stream (bytes : Bytes)
  /-- End the connection. -/
  | hangUp

/-- A client, its connection and the server at the other end. -/
structure World where
  /-- The client's end. -/
  connection : Connection
  /-- The bytes from the server that are no whole frame yet. -/
  inflow : Net.Remainder
  /-- Whether the server still holds the connection. -/
  linked : Bool
  /-- What the server does when it sees the next requests. -/
  reactions : List (List Act)
  /-- The requests that the server has seen, newest first. -/
  seen : List Wire.Request

namespace World

/-- A connection over which nothing has gone yet. -/
def fresh : World := ⟨.fresh, .start, true, [], []⟩

/-- Bytes come from the server. -/
def feed (w : World) (bytes : Bytes) : World :=
  let (payloads, inflow) := w.inflow.feed bytes
  let connection := payloads.foldl Connection.receive w.connection
  { w with
    inflow
    connection := if inflow = .oversized then connection.endReading else connection }

/-- The server does something. -/
def act (w : World) (request : Wire.Request) : Act → World
  | .reply id status body =>
    w.feed (Net.frame (Wire.Response.mk (id.getD request.id) status body).encode)
  | .payload bytes => w.feed (Net.frame bytes)
  | .stream bytes => w.feed bytes
  | .hangUp => { w with linked := false, connection := w.connection.endReading }

/-- The server sees a request, unless it has ended the connection. -/
def see (w : World) (request : Wire.Request) : World :=
  if w.linked then
    (w.reactions.headD []).foldl (fun w a => w.act request a)
      { w with reactions := w.reactions.tail, seen := request :: w.seen }
  else w

/-- The client sends a request.  One that fits no frame ends the connection. -/
def send (w : World) (command : UInt8) (body : Bytes) : Option Nat × World :=
  match w.connection.start command body with
  | (none, connection) => (none, { w with connection })
  | (some (ticket, request), connection) =>
    let w := { w with connection }
    match Net.frame? request.encode with
    | some _ => (some ticket, w.see request)
    | none => (some ticket, { w with connection := connection.endWriting.endReading })

/-- The connection as conversations see it. -/
def transport : Conversation.Transport World where
  send := send
  outcome? := fun w ticket => w.connection.outcome? ticket
  adopt := fun w session => { w with connection := { w.connection with session } }

end World

/-! ## Runs -/

/-- A call, and what the server does meanwhile. -/
structure Action where
  /-- The call. -/
  call : Call
  /-- What the server does when it sees the requests of the call. -/
  reactions : List (List Act)

/-- What a call leaves behind. -/
structure Row where
  /-- What came of the call; nothing if it waits forever. -/
  result : Option (Except Error CallValue)
  /-- The requests that the server has seen. -/
  seen : List Wire.Request
  /-- The session that later calls act for. -/
  session : Option UInt64

/-- Carry out a call. -/
def step (w : World) (a : Action) : Row × World :=
  let (progress, w) := a.call.conversation.advance World.transport true
    { w with reactions := a.reactions, seen := [] }
  let result := match progress with
    | .finished r => some r
    | .stalled _ => none
  (⟨result, w.seen.reverse, w.connection.session?⟩, w)

/-- Carry out calls, one after another. -/
def steps (w : World) : List Action → List Row
  | [] => []
  | a :: rest =>
    let (row, w) := step w a
    row :: steps w rest

/-- Carry out a script from the start. -/
def run (script : List Action) : List Row := steps .fresh script

end LeaseLock.Scenario.Peer
