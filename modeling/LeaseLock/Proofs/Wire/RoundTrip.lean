import LeaseLock.Proofs.Text.Boundary
import LeaseLock.Wire.Command

/-
  LeaseLock: commands and records are read as they were written.
  A text field carries the longest prefix of whole characters that its length can count
  (`longest_kept`), and what it carries is read (`takeText_putText_kept`); every other argument is
  a number or the rest of the body.  So only a name that is too long reaches the server as another
  one (`Command.carried`).
-/

namespace LeaseLock

/-- `front` is the longest prefix of whole characters of `text` whose UTF-8 form has at most `limit`
bytes. -/
structure Utf8.Longest (limit : Nat) (text front : String) : Prop where
  /-- It is a prefix. -/
  begins : front.toList <+: text.toList
  /-- It is short enough. -/
  fits : (encode front).length ≤ limit
  /-- Every other such prefix is a prefix of it. -/
  most : ∀ other : String, other.toList <+: text.toList → (encode other).length ≤ limit →
    other.toList <+: front.toList

namespace Wire

/-! ## Texts -/

/-- The part of a text that a text field carries. -/
def kept (text : String) : String :=
  String.ofList (Utf8.prefixWithin maxTextLength text.toList)

theorem encode_kept (text : String) :
    Utf8.encode (kept text) = Utf8.encodeChars (Utf8.prefixWithin maxTextLength text.toList) := by
  rw [Utf8.encode, kept, String.toList_ofList]

theorem length_encode_kept_le (text : String) :
    (Utf8.encode (kept text)).length ≤ maxTextLength := by
  rw [encode_kept]
  exact Utf8.length_encodeChars_prefixWithin maxTextLength text.toList

theorem longest_kept (text : String) : Utf8.Longest maxTextLength text (kept text) where
  begins := by
    rw [kept, String.toList_ofList]
    exact Utf8.prefixWithin_prefix maxTextLength text.toList
  fits := length_encode_kept_le text
  most other hbegins hfits := by
    rw [kept, String.toList_ofList]
    refine Utf8.prefix_prefixWithin hbegins ?_
    rwa [← Utf8.length_encodeChars]

/-- A text is kept whole exactly if it fits. -/
theorem kept_eq_self {text : String} :
    kept text = text ↔ (Utf8.encode text).length ≤ maxTextLength := by
  constructor
  · intro h
    rw [← h]
    exact length_encode_kept_le text
  · intro h
    rw [kept, Utf8.prefixWithin_eq_self h, String.ofList_toList]

/-- The length of a text field counts the bytes behind it. -/
theorem putText_eq (text : String) :
    putText text = leBytes 2 (Utf8.encode (kept text)).length ++ Utf8.encode (kept text) := by
  rw [encode_kept, putText]

/-- The end of a text field is found in the bytes of the text, by stepping back from the limit to
the next boundary. -/
theorem putText_eq_take (text : String) :
    putText text =
      let bytes := Utf8.encode text
      let stop := Utf8.boundaryBefore bytes (min bytes.length maxTextLength)
      leBytes 2 stop ++ bytes.take stop := by
  have hstop := Utf8.boundaryBefore_encodeChars maxTextLength text.toList
  have hprefix := Utf8.prefixWithin_prefix maxTextLength text.toList
  dsimp only
  rw [Utf8.encode, hstop, Utf8.take_encodeChars hprefix, putText, Utf8.length_encodeChars]

/-- A text behind its length is read. -/
theorem takeText_encode (field : String) {text : String}
    (h : (Utf8.encode text).length ≤ maxTextLength) (rest : Bytes) :
    takeText field (leBytes 2 (Utf8.encode text).length ++ (Utf8.encode text ++ rest)) =
      .ok (text, rest) := by
  have hlength : (Utf8.encode text).length < byteSpan 2 := Nat.lt_succ_of_le h
  unfold takeText
  rw [takeNat_leBytes field hlength]
  show (takeBytes field (Utf8.encode text).length (Utf8.encode text ++ rest) >>= _) = _
  rw [takeBytes_append]
  dsimp only [bind, Except.bind]
  rw [Utf8.decode_encode]

/-- What a text field carries is read from it. -/
theorem takeText_putText_kept (field text : String) (rest : Bytes) :
    takeText field (putText text ++ rest) = .ok (kept text, rest) := by
  rw [putText_eq, List.append_assoc]
  exact takeText_encode field (length_encode_kept_le text) rest

/-! ## Commands -/

theorem decodeU64_encodeU64_append (field : String) (v : UInt64) (rest : Bytes) :
    decodeU64 field (encodeU64 v ++ rest) = .ok v := by
  unfold decodeU64
  rw [takeU64_encodeU64]
  rfl

theorem decodeU64_encodeU64 (field : String) (v : UInt64) :
    decodeU64 field (encodeU64 v) = .ok v := by
  have h := decodeU64_encodeU64_append field v []
  rwa [List.append_nil] at h

namespace Command

/-- The command that arrives: a name that is too long is cut. -/
def carried : Command → Command
  | .open name => .open (kept name)
  | c => c

/-- What follows a body is ignored; nothing follows that of a lock request. -/
theorem decode_body_append (c : Command) {rest : Bytes}
    (h : ∀ payload, c = .lock payload → rest = []) :
    decode c.code (c.body ++ rest) = .ok (some c.carried) := by
  cases c with
  | «open» name =>
    show (takeText "handle name" (putText name ++ rest)).map _ = _
    rw [takeText_putText_kept]
    rfl
  | lock payload =>
    rw [h payload rfl, List.append_nil]
    rfl
  | attachSession id =>
    show (decodeU64 "session id" (encodeU64 id ++ rest)).map _ = _
    rw [decodeU64_encodeU64_append]
    rfl
  | close handle | release handle | cancelLock handle =>
    show (decodeU64 "handle" (encodeU64 handle ++ rest)).map _ = _
    rw [decodeU64_encodeU64_append]
    rfl
  | _ => rfl

theorem decode_body_carried (c : Command) : decode c.code c.body = .ok (some c.carried) := by
  have h := c.decode_body_append (fun _ _ => rfl)
  rwa [List.append_nil] at h

/-- The name in a command fits into a text field. -/
def Fits : Command → Prop
  | .open name => name.utf8ByteSize ≤ maxTextLength
  | _ => True

theorem carried_eq_self {c : Command} (h : c.Fits) : c.carried = c := by
  cases c with
  | «open» name =>
    rw [carried, kept_eq_self.2]
    rwa [Utf8.length_encode]
  | _ => rfl

/-- A command whose name fits is read as it was written. -/
theorem decode_body {c : Command} (h : c.Fits) : decode c.code c.body = .ok (some c) := by
  rw [decode_body_carried, carried_eq_self h]

end Command

/-! ## The wire -/

/-- What is written is read: the frame of a command, under every id, with its number and its body
unchanged; the command from these two, except that of a name only the longest part arrives whose
length a text field can count; and every record. -/
theorem reads_as_written :
    (∀ (c : Command) (id : UInt32),
      Request.decode (c.request id).encode = .ok { id, command := c.code, body := c.body } ∧
      Command.decode c.code c.body = .ok (some c.carried)) ∧
    (∀ name : String,
      (Command.open name).carried = .open (kept name) ∧
      (Command.open name).body =
        leBytes 2 (Utf8.encode (kept name)).length ++ Utf8.encode (kept name) ∧
      Utf8.Longest maxTextLength name (kept name) ∧
      (kept name = name ↔ (Utf8.encode name).length ≤ maxTextLength)) ∧
    (∀ r : Request, Request.decode r.encode = .ok r) ∧
    (∀ r : Response, Response.decode r.encode = .ok r) ∧
    (∀ r : LockRequest, LockRequest.decode r.encode = .ok r) ∧
    (∀ g : LockGrant, LockGrant.decode g.encode = .ok g) ∧
    (∀ g : SessionGrant, SessionGrant.decode g.encode = .ok g) := by
  refine ⟨fun c id => ⟨Request.decode_encode _, c.decode_body_carried⟩,
    fun name => ⟨rfl, putText_eq name, longest_kept name, kept_eq_self⟩, Request.decode_encode,
    Response.decode_encode, fun r => ?_, fun g => ?_, fun g => ?_⟩
  · have h := LockRequest.decode_encode_append r []
    rwa [List.append_nil] at h
  · have h := LockGrant.decode_encode_append g []
    rwa [List.append_nil] at h
  · have h := SessionGrant.decode_encode_append g []
    rwa [List.append_nil] at h

end Wire

end LeaseLock
