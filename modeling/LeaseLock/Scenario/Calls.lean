import LeaseLock.Client.Calls

/-
  LeaseLock: the calls of clients in scripts.
  A script names its calls, so the conversations, whose results differ in type, get one type here.
-/

namespace LeaseLock.Scenario

open Client

/-- A call of a client. -/
inductive Call where
  /-- Open a session. -/
  | openSession
  /-- Act for a session that is open already. -/
  | attachSession (session : UInt64)
  /-- Renew the lease. -/
  | keepAlive
  /-- Open a resource. -/
  | openHandle (name : String)
  /-- Close a handle. -/
  | close (handle : UInt64)
  /-- Release a lock. -/
  | release (handle : UInt64)
  /-- Withdraw a request for a lock. -/
  | cancelLock (handle : UInt64)
  /-- Close the session. -/
  | closeSession
  /-- Ask for the statistics. -/
  | stats
  /-- Wait for a lock. -/
  | lock (handle : UInt64) (mode : Mode)
  /-- Take a lock if it is free. -/
  | tryLock (handle : UInt64) (mode : Mode)
  /-- Wait for a lock, but no longer than this. -/
  | lockWithin (handle : UInt64) (mode : Mode) (limit : Nat)
  /-- Send any request. -/
  | exchange (command : UInt8) (body : Bytes)

/-- What a call gives. -/
inductive CallValue where
  /-- Nothing. -/
  | nothing
  /-- Yes or no. -/
  | flag (b : Bool)
  /-- A handle or a generation. -/
  | number (n : UInt64)
  /-- A session and its lease. -/
  | session (grant : Wire.SessionGrant)
  /-- Statistics. -/
  | stats (json : JsonValue)
  /-- A reply as it came. -/
  | reply (r : Wire.Response)

/-- The conversation of a call. -/
def Call.conversation : Call → Conversation CallValue
  | openSession => return .session (← Conversation.openSession)
  | attachSession session => nothing (Conversation.attachSession session)
  | keepAlive => nothing Conversation.keepAlive
  | openHandle name => return .number (← Conversation.openHandle name)
  | close handle => nothing (Conversation.close handle)
  | release handle => nothing (Conversation.release handle)
  | cancelLock handle => return .flag (← Conversation.cancelLock handle)
  | closeSession => nothing Conversation.closeSession
  | stats => return .stats (← Conversation.stats)
  | lock handle mode => return .number (← Conversation.lock handle mode)
  | tryLock handle mode => do
    match ← Conversation.tryLock handle mode with
    | some generation => return .number generation
    | none => return .nothing
  | lockWithin handle mode limit => return .number (← Conversation.lockWithin handle mode limit)
  | exchange command body => return .reply (← Conversation.exchange command body)
where
  /-- A call whose result says nothing. -/
  nothing (c : Conversation Unit) : Conversation CallValue := do
    c
    return .nothing

/-- The handle for whose lock a call waits. -/
def Call.awaited? : Call → Option UInt64
  | lock handle _ | lockWithin handle _ _ => some handle
  | _ => none

end LeaseLock.Scenario
