import LeaseLock.Coordinator.Basic

/-
  LeaseLock: what one operation of the coordinator does.
  A `Turn` is the state as the operation has changed it so far, with the events and the answers it
  has produced, each in order.  They are delivered when the operation is over, events first.  The
  steps below are what the operations are made of; taking a session out of a handle
  (`detach`) is the only one that several operations share.
-/

namespace LeaseLock.Coordinator

/-- An operation under way. -/
structure Turn (ρ : Type) where
  /-- The state so far. -/
  state : State ρ
  /-- The events so far. -/
  events : List LockEvent
  /-- The answers so far, each with its address. -/
  answers : List (ρ × Answer)

namespace Turn

variable {ρ : Type}

/-- An operation that has not done anything yet. -/
def start (s : State ρ) : Turn ρ := ⟨s, [], []⟩

/-- Add an event. -/
def emit (t : Turn ρ) (e : LockEvent) : Turn ρ := { t with events := t.events ++ [e] }

/-- Add an answer. -/
def answer (t : Turn ρ) (reply : ρ) (a : Answer) : Turn ρ :=
  { t with answers := t.answers ++ [(reply, a)] }

/-- Change the counts. -/
def count (t : Turn ρ) (f : Tally → Tally) : Turn ρ :=
  { t with state := { t.state with tally := f t.state.tally } }

/-- Change the registry of sessions. -/
def onSessions (t : Turn ρ) (f : Sessions → Sessions) : Turn ρ :=
  { t with state := { t.state with sessions := f t.state.sessions } }

/-- Change the table of handles. -/
def onHandles (t : Turn ρ) (f : Table (Handle ρ) → Table (Handle ρ)) : Turn ρ :=
  { t with state := { t.state with handles := f t.state.handles } }

/-- Record that a session has been given a lock. -/
def recordGrant (t : Turn ρ) (handle session : Nat) (mode : Mode) (generation : Nat)
    (reply : ρ) : Turn ρ :=
  (((t.onSessions fun r => r.hold session handle).count
      fun c => { c with grants := c.grants + 1 }).emit
    (.acquired handle session mode generation)).answer reply (.granted generation)

/-- Record how a request left the queue of a handle from its head. -/
def recordAdmission (handle : Nat) (t : Turn ρ) : Handle.Admission ρ → Turn ρ
  | .granted w generation => t.recordGrant handle w.session w.mode generation w.reply
  | .lapsed w =>
    (t.count fun c => { c with cancelled := c.cancelled + 1 }).answer w.reply
      (.refused (.sessionExpired w.session))

/-- Serve the queue of a handle from its head while the lock admits the next request. -/
def pump (t : Turn ρ) (handle : Nat) : Turn ρ :=
  match t.state.handle? handle with
  | none => t
  | some h =>
    let (served, h') := h.pump t.state.sessions.contains
    served.foldl (recordAdmission handle) (t.onHandles fun hs => hs.insert handle h')

/-- Take a session's request out of the queue of a handle and answer it; tells whether there was
one. -/
def withdraw (t : Turn ρ) (handle session : Nat) (a : Answer) : Bool × Turn ρ :=
  match t.state.handle? handle with
  | none => (false, t)
  | some h =>
    match h.withdraw session with
    | (none, _) => (false, t)
    | (some w, h') =>
      (true, ((t.onHandles fun hs => hs.insert handle h').count
        fun c => { c with cancelled := c.cancelled + 1 }).answer w.reply a)

/-- Take the lock of a handle from a session; tells whether the session held it. -/
def unlock (t : Turn ρ) (handle session : Nat) (reason : ReleaseReason) : Bool × Turn ρ :=
  match t.state.handle? handle with
  | none => (false, t)
  | some h =>
    if h.holders.contains session then
      (true, (t.onHandles fun hs =>
        hs.insert handle { h with holders := h.holders.erase session }).emit
          (.released handle session reason))
    else (false, t)

/-- Take a session off the openers of a handle. -/
def shut (t : Turn ρ) (handle session : Nat) : Turn ρ :=
  t.onHandles fun hs => hs.modify handle fun h => { h with openers := h.openers.erase session }

/-- Destroy a handle that nobody has open; requests that still wait for it are refused. -/
def destroyUnopened (t : Turn ρ) (handle : Nat) : Turn ρ :=
  match t.state.handle? handle with
  | none => t
  | some h =>
    if h.openers.isEmpty then
      let t := h.waiters.foldl (fun t w => t.answer w.reply (.refused (.unknownHandle handle))) t
      { t with state := { t.state with
        handles := t.state.handles.erase handle
        names := t.state.names.filter fun entry => entry.1 != h.name } }
    else t

/-- What the waiter of a session is told when the session is taken out of a handle. -/
def farewell (session : Nat) : ReleaseReason → Answer
  | .sessionExpired => .refused (.sessionExpired session)
  | _ => .cancelled

/-- Take a session out of a handle: its request leaves the queue, its lock is released, it no
longer has the handle open.  Then the queue is served, and a handle that nobody has open is
destroyed.  Tells whether a lock was released. -/
def detach (t : Turn ρ) (handle session : Nat) (reason : ReleaseReason) : Bool × Turn ρ :=
  let t := (t.withdraw handle session (farewell session reason)).2
  let (released, t) := t.unlock handle session reason
  (released, ((t.shut handle session).pump handle).destroyUnopened handle)

/-- Take a session out of several handles; returns those whose lock it held. -/
def detachAll (t : Turn ρ) (session : Nat) (reason : ReleaseReason) :
    List Nat → List Nat × Turn ρ
  | [] => ([], t)
  | handle :: rest =>
    let (released, t) := t.detach handle session reason
    let (more, t) := detachAll t session reason rest
    (if released then handle :: more else more, t)

/-- Release what lapsed sessions held, one session after another; they have left the registry
already.  An event at the end of each tells which locks it held. -/
def expireAll (t : Turn ρ) : List (Nat × Session) → Turn ρ
  | [] => t
  | (id, session) :: rest =>
    let (released, t) := t.detachAll id .sessionExpired session.opened.keys
    expireAll (t.emit (.expired id released)) rest

end Turn

end LeaseLock.Coordinator
