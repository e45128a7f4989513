import LeaseLock.Coordinator.Basic
import LeaseLock.Wire.Frame

/-
  LeaseLock: lock answers on the wire.
  An answer is a status with a body or a fault code with a message.  Only a grant has a body: its
  generation.
-/

namespace LeaseLock.Coordinator

/-- An answer in the terms of the wire. -/
inductive Reply where
  /-- A lock status and its body. -/
  | respond (status : LockStatus) (body : Bytes)
  /-- The code of an error and its wording. -/
  | error (code : FaultCode) (message : String)
deriving DecidableEq, Repr

/-- What the sender of a request is sent for an answer. -/
def Answer.reply : Answer → Reply
  | .granted generation =>
    .respond .granted (Wire.LockGrant.mk (UInt64.ofNat generation)).encode
  | .busy => .respond .busy []
  | .cancelled => .respond .cancelled []
  | .refused fault => .error fault.code fault.message
  | .malformed fault => .error fault.code s!"error handling lock message: {fault.message}"

/-- The response frame of an answer to the request `id`. -/
def Reply.response (id : UInt32) : Reply → Wire.Response
  | .respond status body => { id, status := status.toStatus, body }
  | .error code message => .error id code.toStatus message

end LeaseLock.Coordinator
