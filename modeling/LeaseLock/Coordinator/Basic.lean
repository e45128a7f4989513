import LeaseLock.Mode
import LeaseLock.Session

/-
  LeaseLock: the state of the lock coordinator.
  A handle is a named resource that sessions have open; some of its openers hold its lock and
  others wait for it in the order in which they asked.  A waiter carries the address to which the
  reply to its request goes; the type of addresses is a parameter `ρ`.  A handle lives as long as
  someone has it open.
-/

namespace LeaseLock.Coordinator

/-! ## Settings -/

/-- How the coordinator is set up. -/
structure Config where
  /-- The length of a lease. -/
  lease : Nat
  /-- The time between two looks for lapsed leases. -/
  sweepInterval : Nat
  /-- The events that the stream should hold for slow readers. -/
  eventCapacity : Nat
deriving DecidableEq, Repr

/-- Leases of 20 s, looked after twice a second; 1024 events are held. -/
def Config.default : Config := ⟨Time.ofSeconds 20, Time.ofMillis 500, 1024⟩

/-! ## Handles -/

/-- A request that waits for a lock. -/
structure Waiter (ρ : Type) where
  /-- The session that asked. -/
  session : Nat
  /-- The mode it asked for. -/
  mode : Mode
  /-- Where the reply goes. -/
  reply : ρ

/-- A resource that some session has open. -/
structure Handle (ρ : Type) where
  /-- The name of the resource. -/
  name : String
  /-- The sessions that hold the lock, each with its mode. -/
  holders : Table Mode
  /-- The sessions that have the handle open. -/
  openers : IdSet
  /-- The requests that wait, in the order of their arrival. -/
  waiters : List (Waiter ρ)
  /-- The number of exclusive grants so far. -/
  generation : Nat

/-- What a lock looks like from outside. -/
inductive LockState where
  /-- Nobody holds it. -/
  | unlocked
  /-- So many sessions share it. -/
  | shared (count : Nat)
  /-- One session holds it alone. -/
  | exclusive (session : Nat)
deriving DecidableEq, Repr

namespace Handle

variable {ρ : Type}

/-- A handle that nobody has open yet. -/
def fresh (name : String) : Handle ρ := ⟨name, ∅, IdSet.empty, [], 0⟩

/-- What the lock looks like from outside; the smallest holder decides. -/
def lockState (h : Handle ρ) : LockState :=
  match h.holders.entries with
  | [] => .unlocked
  | (session, .exclusive) :: _ => .exclusive session
  | (_, .shared) :: _ => .shared h.holders.size

/-- Whether a lock in this mode can stand beside all locks that are held. -/
def admits (h : Handle ρ) (mode : Mode) : Bool :=
  h.holders.values.all fun held => held.compatible mode

/-- Whether a session holds the lock or waits for it. -/
def involves (h : Handle ρ) (session : Nat) : Bool :=
  h.holders.contains session || h.waiters.any fun w => w.session == session

/-- Give the lock to a session.  An exclusive grant begins a new generation. -/
def grant (h : Handle ρ) (session : Nat) (mode : Mode) : Handle ρ :=
  { h with
    holders := h.holders.insert session mode
    generation := if mode = .exclusive then h.generation + 1 else h.generation }

/-- Take the first request of a session out of the queue. -/
def withdraw (h : Handle ρ) (session : Nat) : Option (Waiter ρ) × Handle ρ :=
  (h.waiters.find? fun w => w.session == session,
    { h with waiters := h.waiters.eraseP fun w => w.session == session })

/-- How a request leaves the queue from its head. -/
inductive Admission (ρ : Type) where
  /-- It got the lock, in this generation. -/
  | granted (waiter : Waiter ρ) (generation : Nat)
  /-- Its session was no longer registered. -/
  | lapsed (waiter : Waiter ρ)

/-- Serve a queue from its head while the lock admits the next request.  A request of a session
that is no longer registered is turned away when its turn comes. -/
def serve (registered : Nat → Bool) (h : Handle ρ) :
    List (Waiter ρ) → List (Admission ρ) × Handle ρ
  | [] => ([], { h with waiters := [] })
  | w :: rest =>
    if h.admits w.mode then
      if registered w.session then
        let h' := h.grant w.session w.mode
        let (served, final) := serve registered h' rest
        (.granted w h'.generation :: served, final)
      else
        let (served, final) := serve registered h rest
        (.lapsed w :: served, final)
    else ([], { h with waiters := w :: rest })

/-- Serve the handle's own queue. -/
def pump (registered : Nat → Bool) (h : Handle ρ) : List (Admission ρ) × Handle ρ :=
  h.serve registered h.waiters

end Handle

/-! ## Events and answers -/

/-- Why a lock was released. -/
inductive ReleaseReason where
  /-- Its holder asked for it. -/
  | explicit
  /-- Its holder closed the handle. -/
  | handleClosed
  /-- Its holder ended the session. -/
  | sessionClosed
  /-- Its holder's lease ended. -/
  | sessionExpired
deriving DecidableEq, Repr

/-- What observers are told. -/
inductive LockEvent where
  /-- A session got a lock. -/
  | acquired (handle session : Nat) (mode : Mode) (generation : Nat)
  /-- A session lost a lock. -/
  | released (handle session : Nat) (reason : ReleaseReason)
  /-- A session's lease ended; it held the locks of these handles. -/
  | expired (session : Nat) (released : List Nat)
deriving DecidableEq, Repr

/-- What the sender of a lock request is told, once. -/
inductive Answer where
  /-- The lock is held, in this generation. -/
  | granted (generation : Nat)
  /-- The lock was not free and the request would not wait. -/
  | busy
  /-- The request was withdrawn. -/
  | cancelled
  /-- The request was refused. -/
  | refused (fault : Fault)
  /-- The request could not be read. -/
  | malformed (fault : Fault)
deriving DecidableEq, Repr

/-- How a lock request stands when the call that made it returns. -/
inductive LockOutcome where
  /-- The lock is held, in this generation. -/
  | granted (generation : Nat)
  /-- The lock was not free and the request would not wait. -/
  | denied
  /-- The request waits; its answer follows. -/
  | queued
  /-- The request was refused. -/
  | refused (code : FaultCode)
deriving DecidableEq, Repr

/-! ## The coordinator -/

/-- Counts of what has happened since the start. -/
structure Tally where
  /-- Locks given. -/
  grants : Nat
  /-- Requests that would not wait and were denied. -/
  denials : Nat
  /-- Requests that had to wait. -/
  queued : Nat
  /-- Requests taken out of a queue without the lock. -/
  cancelled : Nat
  /-- Sessions whose lease ended. -/
  expiredSessions : Nat
  /-- Requests that could not be read. -/
  protocolErrors : Nat
deriving DecidableEq, Repr

/-- The counts at the start. -/
def Tally.zero : Tally := ⟨0, 0, 0, 0, 0, 0⟩

/-- The coordinator: sessions, handles and the names of the handles. -/
structure State (ρ : Type) where
  /-- The registered sessions. -/
  sessions : Sessions
  /-- The handles by their ids. -/
  handles : Table (Handle ρ)
  /-- The id of the handle for each name in use. -/
  names : List (String × Nat)
  /-- The id of the next handle. -/
  nextHandle : Nat
  /-- What has happened so far. -/
  tally : Tally

namespace State

variable {ρ : Type}

/-- No sessions and no handles; handle ids start at 1. -/
def empty (lease : Nat) : State ρ := ⟨.empty lease, ∅, [], 1, .zero⟩

/-- The handle of this id. -/
def handle? (s : State ρ) (id : Nat) : Option (Handle ρ) := s.handles.get? id

/-- The id of the handle with this name. -/
def named? (s : State ρ) (name : String) : Option Nat := s.names.lookup name

/-- What the lock of a handle looks like from outside. -/
def lockState? (s : State ρ) (id : Nat) : Option LockState := (s.handle? id).map (·.lockState)

/-- The number of requests that wait for a handle. -/
def queueLength? (s : State ρ) (id : Nat) : Option Nat :=
  (s.handle? id).map fun h => h.waiters.length

end State

end LeaseLock.Coordinator
