import LeaseLock.Text.Utf8

/-
  LeaseLock: what can go wrong.
  A `Fault` is a cause; `Fault.message` is its wording and `Fault.code` the number it has on the
  wire.  Codes lie above 0x100, so a response status is either a success or an error, never both.
-/

namespace LeaseLock

/-- Lower-case hexadecimal digits behind `0x`. -/
def hexText (n : Nat) : String := "0x" ++ String.ofList (Nat.toDigits 16 n)

/-! ## Codes -/

/-- The kinds of error that a response can carry. -/
inductive FaultCode where
  | protocol
  | invariantViolation
  | timeout
  | lockDenied
  | sessionExpired
  | unknownHandle
  | badMode
  | alreadyLocked
  | notLocked
  | connectionClosed
  | shutdown
  | unknownCommand
  | internal
deriving DecidableEq, Repr

namespace FaultCode

/-- The largest status that is not an error. -/
def base : UInt32 := 0x100

/-- The number of a code on the wire. -/
def toStatus : FaultCode → UInt32
  | protocol => 0x101
  | invariantViolation => 0x102
  | timeout => 0x103
  | lockDenied => 0x104
  | sessionExpired => 0x105
  | unknownHandle => 0x106
  | badMode => 0x107
  | alreadyLocked => 0x108
  | notLocked => 0x109
  | connectionClosed => 0x10a
  | shutdown => 0x10b
  | unknownCommand => 0x10c
  | internal => 0x10d

/-- The code with this number. -/
def ofStatus? (status : UInt32) : Option FaultCode :=
  [protocol, invariantViolation, timeout, lockDenied, sessionExpired, unknownHandle, badMode,
    alreadyLocked, notLocked, connectionClosed, shutdown, unknownCommand, internal].find?
      fun code => code.toStatus == status

/-- Whether a status tells of an error. -/
def isError (status : UInt32) : Bool := base < status

/-- The name of a code. -/
def name : FaultCode → String
  | protocol => "Protocol"
  | invariantViolation => "InvariantViolation"
  | timeout => "Timeout"
  | lockDenied => "LockDenied"
  | sessionExpired => "SessionExpired"
  | unknownHandle => "UnknownHandle"
  | badMode => "BadMode"
  | alreadyLocked => "AlreadyLocked"
  | notLocked => "NotLocked"
  | connectionClosed => "ConnectionClosed"
  | shutdown => "Shutdown"
  | unknownCommand => "UnknownCommand"
  | internal => "Internal"

theorem ofStatus?_toStatus (code : FaultCode) : ofStatus? code.toStatus = some code := by
  cases code <;> rfl

theorem isError_toStatus (code : FaultCode) : isError code.toStatus = true := by
  cases code <;> rfl

end FaultCode

/-! ## Causes -/

/-- Why a byte string does not decode. -/
inductive Malformed where
  /-- A field needs more bytes than remain. -/
  | truncated (field : String) (need remaining : Nat)
  /-- A text field is not UTF-8. -/
  | notUtf8 (field : String) (flaw : Utf8.Flaw)
  /-- A cause that some other format describes in its own words. -/
  | described (text : String)
deriving DecidableEq, Repr

/-- The wording of a decoding error. -/
def Malformed.message : Malformed → String
  | truncated field need remaining =>
    s!"truncated {field}: need {need} bytes, {remaining} remaining"
  | notUtf8 field flaw => s!"{field} is not utf-8: {flaw.message}"
  | described text => text

/-- Which promise between the parts of the program was broken. -/
inductive Breach where
  /-- More completions than were armed for. -/
  | nothingOutstanding
  /-- A breach described in words. -/
  | described (text : String)
deriving DecidableEq, Repr

/-- The wording of a breach. -/
def Breach.message : Breach → String
  | nothingOutstanding => "decrement on a completion tracker with nothing outstanding"
  | described text => text

/-- What can go wrong in an operation. -/
inductive Fault where
  /-- Bytes from outside do not follow their format. -/
  | decode (cause : Malformed)
  /-- The program itself broke a promise. -/
  | invariantViolation (breach : Breach)
  /-- A deadline passed first. -/
  | timeout
  /-- A lock was not free. -/
  | lockDenied
  /-- There is no such session, or its lease has lapsed. -/
  | sessionExpired (session : Nat)
  /-- The session has no such handle open. -/
  | unknownHandle (handle : Nat)
  /-- No lock mode has these bits. -/
  | badMode (bits : UInt32)
  /-- The session holds the lock or waits for it already. -/
  | alreadyLocked (handle : Nat)
  /-- The session does not hold the lock. -/
  | notLocked (handle : Nat)
  /-- The connection has ended. -/
  | connectionClosed
  /-- The event loop has ended. -/
  | shutdown
deriving DecidableEq, Repr

namespace Fault

/-- The wording of a fault. -/
def message : Fault → String
  | decode cause => s!"decode error: {cause.message}"
  | invariantViolation breach => s!"invariant violation: {breach.message}"
  | timeout => "deadline elapsed"
  | lockDenied => "lock denied"
  | sessionExpired session => s!"session {session} expired"
  | unknownHandle handle => s!"unknown handle {handle}"
  | badMode bits => s!"bad lock mode {hexText bits.toNat}"
  | alreadyLocked handle => s!"handle {handle} already locked or pending for this session"
  | notLocked handle => s!"handle {handle} not locked by this session"
  | connectionClosed => "connection closed"
  | shutdown => "reactor shut down"

/-- The code that a fault has on the wire. -/
def code : Fault → FaultCode
  | decode _ => .protocol
  | invariantViolation _ => .invariantViolation
  | timeout => .timeout
  | lockDenied => .lockDenied
  | sessionExpired _ => .sessionExpired
  | unknownHandle _ => .unknownHandle
  | badMode _ => .badMode
  | alreadyLocked _ => .alreadyLocked
  | notLocked _ => .notLocked
  | connectionClosed => .connectionClosed
  | shutdown => .shutdown

/-- The number that a fault has on the wire. -/
def status (f : Fault) : UInt32 := f.code.toStatus

end Fault

/-! ## Crashes -/

/-- A failure that unwinds the operation in which it happens. -/
inductive Crash where
  /-- An instant would lie past the last one that the clock can name. -/
  | instantOverflow
  /-- A handler gave up. -/
  | raised (text : String)
deriving DecidableEq, Repr

/-- The wording of a crash. -/
def Crash.message : Crash → String
  | instantOverflow => "overflow when adding duration to instant"
  | raised text => text

/-- Why an operation has no result: it was refused, or it crashed. -/
inductive Failure where
  /-- The operation was refused. -/
  | refused (fault : Fault)
  /-- The operation crashed. -/
  | crashed (crash : Crash)
deriving DecidableEq, Repr

end LeaseLock
