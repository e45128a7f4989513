import LeaseLock.Client.Conversation
import LeaseLock.Fanout
import LeaseLock.Server

/-
  LeaseLock: a lock server and those connected to it.
  Frames that one side sends reach the other at once, and the server handles them before anything
  else happens.  At the other ends are clients, bare connections whose bytes a script chooses, and
  the destinations of a fan-out, which has an event loop of its own.
-/

namespace LeaseLock.Scenario

open Reactor Client

/-- Who is at the other end of a connection to the server. -/
inductive Party where
  /-- A client. -/
  | client (connection : Connection)
  /-- A bare connection, with the payloads that nobody has looked at. -/
  | bare (inbox : List Bytes)
  /-- An endpoint of the fan-out. -/
  | destination (endpoint : Nat)

/-- A party reads a frame. -/
def Party.read (payload : Bytes) : Party → Party
  | client connection => client (connection.receive payload)
  | bare inbox => bare (inbox ++ [payload])
  | destination endpoint => destination endpoint

/-- A party has nothing more to read. -/
def Party.endReading : Party → Party
  | client connection => client connection.endReading
  | party => party

/-- A server and those connected to it. -/
structure Cluster where
  /-- The server. -/
  server : Server
  /-- The event loop of the fan-out; its connections are known by their endpoints at the server,
  and keep what is sent over them. -/
  fanout : Machine Nat Unit Fanout.State (List (Nat × Bytes)) Empty
  /-- The parties by their endpoints at the server. -/
  parties : Table Party

namespace Cluster

/-- The fan-out and its connections. -/
def fanoutWiring : Wiring Nat Unit Fanout.State (List (Nat × Bytes)) Empty where
  handle := Fanout.handle
  transmit := fun link _ payload sent => (true, [], sent ++ [(link, payload)])

/-- A server with these settings, and nobody connected to it. -/
def start (config : Coordinator.Config) : Cluster where
  server := .start config
  fanout := .start (.empty .default) []
  parties := ∅

/-- What comes out of the server reaches its party. -/
def receive (c : Cluster) : Server.Output → Cluster
  | .ended endpoint => { c with parties := c.parties.modify endpoint Party.endReading }
  | .frame endpoint payload =>
    let c := { c with parties := c.parties.modify endpoint (Party.read payload) }
    match c.parties.get? endpoint with
    | some (.destination own) => { c with fanout := (c.fanout.deliver (.data own payload)).2 }
    | _ => c

/-- Let the server work until it has nothing to do. -/
def settle (c : Cluster) : Cluster :=
  let (outputs, server) := c.server.settle
  outputs.foldl receive { c with server }

/-- Carry out a program inside the server. -/
def inside {α : Type} (c : Cluster)
    (p : Program Unit Unit Service.State Coordinator.LockEvent α) :
    Except Crash α × Cluster :=
  let (r, server) := c.server.inside p
  (r, { c with server }.settle)

/-! ## Connections -/

/-- A party connects; returns its endpoint. -/
def connect (c : Cluster) (party : Party) : Nat × Cluster :=
  let (endpoint, server) := c.server.connect
  (endpoint, { c with server, parties := c.parties.insert endpoint party }.settle)

/-- Bytes from a party reach the server, which may end the connection for them. -/
def push (c : Cluster) (endpoint : Nat) (bytes : Bytes) : Cluster :=
  let server := c.server.push endpoint bytes
  (Server.lost c.server server).foldl receive { c with server }.settle

/-- A party sends no more. -/
def hangUp (c : Cluster) (endpoint : Nat) : Cluster :=
  let server := c.server.hangUp endpoint
  (Server.lost c.server server).foldl receive { c with server }.settle

/-! ## Clients -/

/-- A client sends a request.  One that fits no frame ends the connection. -/
def send (endpoint : Nat) (c : Cluster) (command : UInt8) (body : Bytes) :
    Option Nat × Cluster :=
  match c.parties.get? endpoint with
  | some (.client connection) =>
    match connection.start command body with
    | (none, connection) =>
      (none, { c with parties := c.parties.insert endpoint (.client connection) })
    | (some (ticket, request), connection) =>
      match Net.frame? request.encode with
      | some bytes =>
        (some ticket,
          { c with parties := c.parties.insert endpoint (.client connection) }.push endpoint bytes)
      | none =>
        (some ticket,
          { c with
            parties := c.parties.insert endpoint (.client connection.endWriting) }.hangUp endpoint)
  | _ => (none, c)

/-- The connection of a client as conversations see it. -/
def transport (endpoint : Nat) : Conversation.Transport Cluster where
  send := send endpoint
  outcome? := fun c ticket =>
    match c.parties.get? endpoint with
    | some (.client connection) => connection.outcome? ticket
    | _ => none
  adopt := fun c session =>
    { c with
      parties := c.parties.modify endpoint fun
        | .client connection => .client { connection with session }
        | party => party }

/-! ## The fan-out -/

/-- Let the fan-out work until nothing is under way, for at most so many rounds. -/
def relay : Nat → Cluster → Cluster
  | 0, c => c
  | rounds + 1, c =>
    let fanout := { c.fanout with trace := [] }.settle fanoutWiring Server.roundLimit
    match fanout.links with
    | [] => { c with fanout }
    | frames =>
      relay rounds (frames.foldl (fun c (endpoint, payload) => c.push endpoint (Net.frame payload))
        { c with fanout := { fanout with links := [] } })

/-- Let the fan-out's clock run until a countdown has ended, a timeout at a time. -/
def wait (countdown : Nat) : Nat → Cluster → Cluster
  | 0, c => c
  | turns + 1, c =>
    let c := relay Server.roundLimit c
    if (c.fanout.world.countdown countdown).done then c
    else
      let clock := c.fanout.clock + c.fanout.world.config.timeout
      wait countdown turns { c with fanout := { c.fanout with clock } }

/-- A destination of the fan-out connects; returns its endpoint at the server. -/
def connectDestination (c : Cluster) : Nat × Cluster :=
  let (endpoint, c) := c.connect (.destination c.fanout.nextEndpoint)
  let (_, fanout) := c.fanout.run fanoutWiring do
    let own ← Program.register endpoint ()
    let _ ← Program.deliver (.state own .established)
  (endpoint, { c with fanout })

/-- Send a command to destinations and wait until all have ended. -/
def scatter (c : Cluster) (countdown : Nat) (command : UInt8) (targets : List (Nat × Bytes)) :
    Cluster :=
  let own (endpoint : Nat) : Nat :=
    match c.parties.get? endpoint with
    | some (.destination own) => own
    | _ => 0
  let (_, fanout) := c.fanout.run fanoutWiring
    (Fanout.scatter () countdown command (targets.map fun (e, body) => (own e, body)))
  wait countdown (c.fanout.world.config.maxRetries + 2) { c with fanout }

end Cluster

end LeaseLock.Scenario
