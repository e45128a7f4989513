import LeaseLock.Fault

/-
  LeaseLock: reading fields from a byte string.
  A reader takes a field off the front and returns the rest.  A field that does not fit is refused
  with its name, the bytes it needs and the bytes that remain; nothing is read past the end.
-/

namespace LeaseLock.Wire

/-- What reading a field from the front of a byte string gives: the field and the rest. -/
abbrev Reader (α : Type) := Bytes → Except Fault (α × Bytes)

/-- Take `n` bytes for a field. -/
def takeBytes (field : String) (n : Nat) : Reader Bytes := fun bytes =>
  if n ≤ bytes.length then .ok (bytes.take n, bytes.drop n)
  else .error (.decode (.truncated field n bytes.length))

/-- Take a number of `n` bytes, least significant first. -/
def takeNat (field : String) (n : Nat) : Reader Nat := fun bytes =>
  (takeBytes field n bytes).map fun (front, rest) => (leValue front, rest)

/-- Take one byte. -/
def takeU8 (field : String) : Reader UInt8 := fun bytes =>
  (takeNat field 1 bytes).map fun (n, rest) => (UInt8.ofNat n, rest)

/-- Take four bytes as a number. -/
def takeU32 (field : String) : Reader UInt32 := fun bytes =>
  (takeNat field 4 bytes).map fun (n, rest) => (UInt32.ofNat n, rest)

/-- Take eight bytes as a number. -/
def takeU64 (field : String) : Reader UInt64 := fun bytes =>
  (takeNat field 8 bytes).map fun (n, rest) => (UInt64.ofNat n, rest)

/-- Take a text: two bytes for its length in bytes, then that many bytes of UTF-8. -/
def takeText (field : String) : Reader String := fun bytes => do
  let (n, rest) ← takeNat field 2 bytes
  let (raw, rest) ← takeBytes field n rest
  match Utf8.decode raw with
  | .ok text => .ok (text, rest)
  | .error flaw => .error (.decode (.notUtf8 field flaw))

/-- The longest text, in bytes, that a text field can carry. -/
def maxTextLength : Nat := 65535

/-- The text field that `takeText` reads: a text that is too long is cut after the last whole
character that fits. -/
def putText (text : String) : Bytes :=
  let kept := Utf8.encodeChars (Utf8.prefixWithin maxTextLength text.toList)
  leBytes 2 kept.length ++ kept

theorem takeBytes_append (field : String) (front rest : Bytes) :
    takeBytes field front.length (front ++ rest) = .ok (front, rest) := by
  simp [takeBytes]

theorem takeBytes_of_lt {field : String} {n : Nat} {bytes : Bytes} (h : bytes.length < n) :
    takeBytes field n bytes = .error (.decode (.truncated field n bytes.length)) := by
  rw [takeBytes, if_neg (by omega)]

theorem takeNat_leBytes (field : String) {w n : Nat} (h : n < byteSpan w) (rest : Bytes) :
    takeNat field w (leBytes w n ++ rest) = .ok (n, rest) := by
  have := takeBytes_append field (leBytes w n) rest
  rw [length_leBytes] at this
  rw [takeNat, this]
  simp [Except.map, leValue_leBytes_of_lt h]

theorem takeU8_singleton (field : String) (v : UInt8) (rest : Bytes) :
    takeU8 field (v :: rest) = .ok (v, rest) := by
  have := takeBytes_append field [v] rest
  simp only [List.length_singleton, List.singleton_append] at this
  rw [takeU8, takeNat, this]
  simp [Except.map, leValue]

theorem takeU32_encodeU32 (field : String) (v : UInt32) (rest : Bytes) :
    takeU32 field (encodeU32 v ++ rest) = .ok (v, rest) := by
  rw [takeU32, encodeU32, takeNat_leBytes field v.toNat_lt]
  simp [Except.map]

theorem takeU64_encodeU64 (field : String) (v : UInt64) (rest : Bytes) :
    takeU64 field (encodeU64 v ++ rest) = .ok (v, rest) := by
  rw [takeU64, encodeU64, takeNat_leBytes field v.toNat_lt]
  simp [Except.map]

/-- A text field has at most `maxTextLength` bytes behind its length. -/
theorem length_putText_le (text : String) : (putText text).length ≤ 2 + maxTextLength := by
  have := Utf8.length_encodeChars_prefixWithin maxTextLength text.toList
  simp [putText]
  omega

end LeaseLock.Wire
