import LeaseLock.Time
import LeaseLock.Wire.Command

/-
  LeaseLock: why a call of a client fails.
  The server refuses it, the connection ends, the time is up, or the reply is not what the call
  asked for.  `Error.fault?` is the fault behind a failure of the client's own.
-/

namespace LeaseLock.Client

/-- A result that a reply carries. -/
inductive Part where
  /-- The new session. -/
  | session
  /-- The handle that was opened. -/
  | handle
  /-- The generation of the lock. -/
  | generation
deriving DecidableEq, Repr

/-- Why a call fails. -/
inductive Error where
  /-- The server answered with an error. -/
  | remote (reply : Wire.Response)
  /-- The connection had ended before the request could be sent. -/
  | notSent
  /-- The connection ended before the reply came; `timed` if the caller would not have waited
  forever. -/
  | unanswered (timed : Bool)
  /-- The lock was not granted in time. -/
  | tooLate (handle : UInt64) (limit : Nat)
  /-- The request for a lock was withdrawn by another call. -/
  | withdrawn
  /-- The reply to a request for a lock has a status that is none of its. -/
  | strayStatus (status id : UInt32)
  /-- A result cannot be read from the reply. -/
  | unreadable (part : Part) (fault : Fault)
  /-- The statistics cannot be read from the reply. -/
  | unreadableStatistics
  /-- The name of a resource, of so many bytes, is too long. -/
  | longName (bytes : Nat)
deriving DecidableEq, Repr

namespace Error

/-- The fault behind an error that is not the server's. -/
def fault? : Error → Option Fault
  | notSent | unanswered _ => some .connectionClosed
  | tooLate _ _ => some .timeout
  | unreadable _ fault => some fault
  | _ => none

/-- What the client was doing when an error happened. -/
def activity? : Error → Option String
  | notSent => some "send request"
  | unanswered timed => some (if timed then "await lock reply" else "await reply")
  | tooLate handle limit =>
    some s!"lock on handle {handle.toNat} not granted within {Time.text limit}"
  | unreadable .session _ => some "decode session grant"
  | unreadable .generation _ => some "decode lock grant"
  | _ => none

/-- The code of an error as a record writes it. -/
def codeText : Option FaultCode → String
  | some code => s!"Some({code.name})"
  | none => "None"

/-- The cause of an error in words. -/
def cause : Error → String
  | remote r =>
    s!"server error {hexText r.status.toNat} ({codeText r.faultCode?}): {r.message}"
  | withdrawn => "lock request was cancelled"
  | strayStatus status id =>
    s!"unexpected lock reply status {status.toNat} for request {id.toNat}"
  | unreadableStatistics => "decode stats json"
  | longName bytes => s!"handle name is {bytes} bytes, limit is {Wire.maxTextLength}"
  | e => (e.fault?.map Fault.message).getD ""

/-- The wording of an error: what the client was doing, then the cause. -/
def message (e : Error) : String :=
  match e.activity? with
  | some activity => s!"{activity}: {e.cause}"
  | none => e.cause

end Error

end LeaseLock.Client
