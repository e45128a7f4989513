import LeaseLock.Mode
import LeaseLock.Wire.Reader

/-
  LeaseLock: the frames of the wire and the records in their bodies.
  All integers are little-endian.  A request is an id, a command number and a body; a response is
  the id of its request, a status and a body.  Bodies run to the end of the frame.  Each record
  decodes from what it encodes to, whatever follows in the two records of fixed length.
-/

namespace LeaseLock.Wire

/-! ## Requests for a lock -/

/-- A request for a lock: the handle, the bits of the mode and whether not to wait. -/
structure LockRequest where
  /-- The handle to lock. -/
  handle : UInt64
  /-- The bits of the wanted mode; they may belong to no mode. -/
  mode : UInt32
  /-- Whether to give up rather than wait. -/
  tryOnly : Bool
deriving DecidableEq, Repr

namespace LockRequest

/-- The bytes of an encoded request. -/
def size : Nat := 13

/-- Eight bytes for the handle, four for the mode, one for the flag. -/
def encode (r : LockRequest) : Bytes :=
  encodeU64 r.handle ++ encodeU32 r.mode ++ [if r.tryOnly then 1 else 0]

/-- Read a request; any flag but zero means not to wait, and what follows is ignored. -/
def decode (bytes : Bytes) : Except Fault LockRequest := do
  let (handle, bytes) ← takeU64 "lock handle" bytes
  let (mode, bytes) ← takeU32 "lock mode" bytes
  let (flag, _) ← takeU8 "lock try flag" bytes
  return { handle, mode, tryOnly := flag != 0 }

theorem length_encode (r : LockRequest) : r.encode.length = size := by
  simp [encode, size]

theorem decode_encode_append (r : LockRequest) (rest : Bytes) :
    decode (r.encode ++ rest) = .ok r := by
  obtain ⟨handle, mode, tryOnly⟩ := r
  simp only [decode, encode, List.append_assoc, takeU64_encodeU64, takeU32_encodeU32,
    List.singleton_append, bind, Except.bind, takeU8_singleton, pure, Except.pure]
  cases tryOnly <;> rfl

end LockRequest

/-- The body of the reply that grants a lock. -/
structure LockGrant where
  /-- The count of exclusive grants made on the handle, this one included. -/
  generation : UInt64
deriving DecidableEq, Repr

namespace LockGrant

/-- Eight bytes. -/
def encode (g : LockGrant) : Bytes := encodeU64 g.generation

/-- Read a grant; what follows is ignored. -/
def decode (bytes : Bytes) : Except Fault LockGrant := do
  let (generation, _) ← takeU64 "lock generation" bytes
  return { generation }

theorem decode_encode_append (g : LockGrant) (rest : Bytes) :
    decode (g.encode ++ rest) = .ok g := by
  simp [decode, encode, takeU64_encodeU64, bind, Except.bind, pure, Except.pure]

end LockGrant

/-- The body of the reply that opens a session. -/
structure SessionGrant where
  /-- The new session. -/
  session : UInt64
  /-- Its lease in milliseconds. -/
  leaseMillis : UInt64
deriving DecidableEq, Repr

namespace SessionGrant

/-- Eight bytes for the session, eight for the lease. -/
def encode (g : SessionGrant) : Bytes := encodeU64 g.session ++ encodeU64 g.leaseMillis

/-- Read a session grant; what follows is ignored. -/
def decode (bytes : Bytes) : Except Fault SessionGrant := do
  let (session, bytes) ← takeU64 "session id" bytes
  let (leaseMillis, _) ← takeU64 "lease ttl" bytes
  return { session, leaseMillis }

theorem decode_encode_append (g : SessionGrant) (rest : Bytes) :
    decode (g.encode ++ rest) = .ok g := by
  simp [decode, encode, List.append_assoc, takeU64_encodeU64, bind, Except.bind, pure,
    Except.pure]

end SessionGrant

/-- Read eight bytes as a number; what follows is ignored. -/
def decodeU64 (field : String) (bytes : Bytes) : Except Fault UInt64 :=
  (takeU64 field bytes).map (·.1)

/-! ## Frames -/

/-- A request frame. -/
structure Request where
  /-- Chosen by the sender; the response repeats it. -/
  id : UInt32
  /-- The number of the command. -/
  command : UInt8
  /-- The arguments of the command. -/
  body : Bytes
deriving DecidableEq, Repr

namespace Request

/-- The bytes before the body. -/
def headerSize : Nat := 5

/-- Four bytes for the id, one for the command, then the body. -/
def encode (r : Request) : Bytes := encodeU32 r.id ++ r.command :: r.body

/-- Read a request frame. -/
def decode (frame : Bytes) : Except Fault Request := do
  let (id, rest) ← takeU32 "request id" frame
  let (command, body) ← takeU8 "command" rest
  return { id, command, body }

theorem length_encode (r : Request) : r.encode.length = headerSize + r.body.length := by
  simp [encode, headerSize]
  omega

theorem decode_encode (r : Request) : decode r.encode = .ok r := by
  simp [decode, encode, takeU32_encodeU32, takeU8_singleton, bind, Except.bind, pure, Except.pure]

end Request

/-- A response frame. -/
structure Response where
  /-- The id of the request that is answered. -/
  id : UInt32
  /-- A success status, a lock status or the number of a fault code. -/
  status : UInt32
  /-- The result, or the wording of the error. -/
  body : Bytes
deriving DecidableEq, Repr

namespace Response

/-- The bytes before the body. -/
def headerSize : Nat := 8

/-- The status of a success that has no status of its own. -/
def statusOk : UInt32 := 0

/-- Four bytes for the id, four for the status, then the body. -/
def encode (r : Response) : Bytes := encodeU32 r.id ++ (encodeU32 r.status ++ r.body)

/-- Read a response frame. -/
def decode (frame : Bytes) : Except Fault Response := do
  let (id, rest) ← takeU32 "request id" frame
  let (status, body) ← takeU32 "status" rest
  return { id, status, body }

/-- The response that reports an error in words. -/
def error (id status : UInt32) (message : String) : Response :=
  { id, status, body := Utf8.encode message }

/-- Whether the status tells of an error. -/
def isError (r : Response) : Bool := FaultCode.isError r.status

/-- The code of the error, if the status is that of one. -/
def faultCode? (r : Response) : Option FaultCode :=
  if r.isError then FaultCode.ofStatus? r.status else none

/-- The body as text. -/
def message (r : Response) : String := Utf8.decodeLossy r.body

theorem length_encode (r : Response) : r.encode.length = headerSize + r.body.length := by
  simp [encode, headerSize]
  omega

theorem decode_encode (r : Response) : decode r.encode = .ok r := by
  simp [decode, encode, takeU32_encodeU32, bind, Except.bind, pure, Except.pure]

end Response

end LeaseLock.Wire
