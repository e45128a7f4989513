import LeaseLock.Net.SocketError
import LeaseLock.Scenario.Calls
import LeaseLock.Scenario.Cluster

/-
  LeaseLock: scripted runs of a server with clients.
  Leases last an hour and the clock stands still, so that nothing ends by itself.  Where there is
  no route to the server the script runs all the same, but nobody gets a connection.
-/

namespace LeaseLock.Scenario.Network

open Client Coordinator

/-- Whether there is a route to the server. -/
inductive Route where
  /-- There is. -/
  | reachable
  /-- There is none. -/
  | unreachable
deriving DecidableEq, Repr

/-- An operation of such a script; connections and calls have names. -/
inductive Action where
  /-- Connect a client. -/
  | connect (name : String)
  /-- Carry out a call. -/
  | call (name : String) (call : Call)
  /-- Begin a call that is to wait. -/
  | spawn (name : String) (call : Call) (tag : String)
  /-- Carry on a call that was begun. -/
  | join (tag : String)
  /-- End a connection. -/
  | drop (name : String)
  /-- Open a bare connection. -/
  | connectBare (name : String)
  /-- Send bytes over a bare connection. -/
  | sendBytes (name : String) (bytes : Bytes)
  /-- Look at the next frames on a bare connection. -/
  | look (name : String) (count : Nat)
  /-- Send no more over a bare connection, and look at the next frame. -/
  | finish (name : String)
  /-- End all sessions, as if two hours had passed. -/
  | expireAll
  /-- The lock of a handle and the length of its queue. -/
  | state (handle : Nat)
  /-- The statistics. -/
  | snapshot
  /-- Connect a destination of the fan-out. -/
  | connectDestination (name : String)
  /-- Send a command to destinations. -/
  | scatter (command : UInt8) (targets : List (String × Bytes))
  /-- Start another server at the address of the first. -/
  | secondServer
  /-- Connect to an address at which nobody listens. -/
  | connectNowhere

/-- What an operation answers. -/
inductive Answer where
  /-- Nothing. -/
  | nothing
  /-- Success. -/
  | ok
  /-- What came of a call (nothing if it waits forever), and the session of its client. -/
  | called (result : Option (Except Error CallValue)) (session : Option UInt64)
  /-- What came of a call that was begun before. -/
  | joined (result : Option (Except Error CallValue))
  /-- The length of a queue. -/
  | queue (length : Option Nat)
  /-- Frames from the server. -/
  | payloads (list : List Bytes)
  /-- The next frame from the server, if there is one. -/
  | last (payload : Option Bytes)
  /-- Sessions that have ended. -/
  | expired (sessions : List Nat)
  /-- The lock of a handle and the length of its queue. -/
  | state (lock : Option LockState) (queue : Option Nat)
  /-- The statistics. -/
  | snapshot (s : Snapshot)
  /-- The fan-out after a command. -/
  | scattered (countdown : Countdown) (inFlight : Nat) (stats : Fanout.Stats)
  /-- A client has no connection. -/
  | notConnected (e : Net.SocketError)
  /-- The fan-out has no connection to a destination. -/
  | noDestination (e : Net.SocketError)
  /-- A server was refused its address. -/
  | notListening (e : Net.SocketError)

/-- The server, the names of the connections and the calls that were begun. -/
structure World where
  /-- The server and those connected to it. -/
  cluster : Cluster
  /-- The endpoints of the connections. -/
  names : List (String × Nat)
  /-- The calls that were begun, with the endpoints of their clients. -/
  begun : List (String × Nat × Conversation.Progress CallValue)

namespace World

/-- A server to which nobody is connected. -/
def start : World := ⟨.start { Config.default with lease := Time.ofSeconds 3600 }, [], []⟩

/-- The endpoint of a connection; none has number zero. -/
def endpoint (w : World) (name : String) : Nat := (w.names.lookup name).getD 0

/-- Give a connection a name. -/
def named (w : World) (name : String) (r : Nat × Cluster) : World :=
  { w with cluster := r.2, names := (name, r.1) :: w.names }

/-- The coordinator of the server. -/
def coordinator (w : World) : Coordinator.State Service.ReplyTo :=
  w.cluster.server.loop.world.coordinator

/-- The session of a client. -/
def session? (w : World) (endpoint : Nat) : Option UInt64 :=
  match w.cluster.parties.get? endpoint with
  | some (.client connection) => connection.session?
  | _ => none

/-- Carry a call on. -/
def advance (w : World) (endpoint : Nat) (expire : Bool) (c : Conversation CallValue) :
    Conversation.Progress CallValue × World :=
  let (progress, cluster) := c.advance (Cluster.transport endpoint) expire w.cluster
  (progress, { w with cluster })

/-- Look at the next payloads on a bare connection. -/
def look (w : World) (endpoint count : Nat) : List Bytes × World :=
  match w.cluster.parties.get? endpoint with
  | some (.bare inbox) =>
    (inbox.take count,
      { w with cluster := { w.cluster with
          parties := w.cluster.parties.insert endpoint (.bare (inbox.drop count)) } })
  | _ => ([], w)

end World

/-- What came of a call. -/
def resultOf : Conversation.Progress CallValue → Option (Except Error CallValue)
  | .finished r => some r
  | .stalled _ => none

/-- Carry out an operation on a server that can be reached. -/
def step (w : World) : Action → Answer × World
  | .connect name => (.nothing, w.named name (w.cluster.connect (.client .fresh)))
  | .call name call =>
    let e := w.endpoint name
    let (progress, w) := w.advance e true call.conversation
    (.called (resultOf progress) (w.session? e), w)
  | .spawn name call tag =>
    let e := w.endpoint name
    let (progress, w) := w.advance e false call.conversation
    (.queue (call.awaited?.bind fun handle => w.coordinator.queueLength? handle.toNat),
      { w with begun := (tag, e, progress) :: w.begun })
  | .join tag =>
    match w.begun.lookup tag with
    | some (e, .stalled rest) =>
      let (progress, w) := w.advance e true rest
      (.joined (resultOf progress), w)
    | some (_, .finished r) => (.joined (some r), w)
    | none => (.nothing, w)
  | .drop name => (.ok, { w with cluster := w.cluster.hangUp (w.endpoint name) })
  | .connectBare name => (.ok, w.named name (w.cluster.connect (.bare [])))
  | .sendBytes name bytes => (.ok, { w with cluster := w.cluster.push (w.endpoint name) bytes })
  | .look name count =>
    let (payloads, w) := w.look (w.endpoint name) count
    (.payloads payloads, w)
  | .finish name =>
    let e := w.endpoint name
    let (payloads, w) := { w with cluster := w.cluster.hangUp e }.look e 1
    (.last payloads.head?, w)
  | .expireAll =>
    let later := w.cluster.server.loop.clock + Time.ofSeconds 7200
    let (r, cluster) := w.cluster.inside (Service.operate fun s => s.expire later)
    (.expired (r.toOption.getD []), { w with cluster })
  | .state handle =>
    (.state (w.coordinator.lockState? handle) (w.coordinator.queueLength? handle), w)
  | .snapshot => (.snapshot w.coordinator.snapshot, w)
  | .connectDestination name => (.nothing, w.named name w.cluster.connectDestination)
  | .scatter command targets =>
    let cluster := w.cluster.scatter 0 command
      (targets.map fun (name, body) => (w.endpoint name, body))
    let fanout := cluster.fanout.world
    (.scattered (fanout.countdown 0) fanout.inFlight fanout.stats, { w with cluster })
  | .secondServer => (.notListening .addressInUse, w)
  | .connectNowhere => (.notConnected .refused, w)

/-- Carry out operations, one after another.  Without a route, a bare connection that cannot be
opened ends the run. -/
def steps (route : Route) (w : World) :
    List Action → Except Net.SocketError (List Answer × World)
  | [] => .ok ([], w)
  | a :: rest => do
    let (answer, w) ← match route, a with
      | .unreachable, .connectBare _ => .error .unreachable
      | .unreachable, .connectDestination _ => .ok (.noDestination .unreachable, w)
      | .unreachable, .connect _ | .unreachable, .connectNowhere =>
        .ok (.notConnected .unreachable, w)
      | _, a => .ok (step w a)
    let (answers, w) ← steps route w rest
    return (answer :: answers, w)

/-- Carry out a script from the start: what its operations answer, and the statistics at the
end. -/
def run (route : Route) (script : List Action) :
    Except Net.SocketError (List Answer × Snapshot) :=
  (steps route .start script).map fun (answers, w) => (answers, w.coordinator.snapshot)

end LeaseLock.Scenario.Network
