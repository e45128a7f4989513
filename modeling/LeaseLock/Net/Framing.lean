import LeaseLock.Bytes

/-
  LeaseLock: frames on a stream of bytes.
  Each payload travels behind its length in four bytes, most significant first.  A stream is cut
  back into payloads as its bytes come: a frame that is not complete waits for more, and a length
  above the limit makes the rest of the stream unreadable.
-/

namespace LeaseLock.Net

/-- The longest payload: 4 MiB. -/
def maxPayload : Nat := 4 * 1024 * 1024

/-- A payload behind its length. -/
def frame (payload : Bytes) : Bytes := beBytes 4 payload.length ++ payload

/-- A payload behind its length, unless it is too long. -/
def frame? (payload : Bytes) : Option Bytes :=
  if payload.length ≤ maxPayload then some (frame payload) else none

/-- What follows the last whole frame. -/
inductive Remainder where
  /-- The beginning of a frame, or nothing. -/
  | incomplete (bytes : Bytes)
  /-- A frame that is too long. -/
  | oversized
deriving DecidableEq, Repr

/-- The payloads of the whole frames on a stream, and what follows them. -/
def deframe (bytes : Bytes) : List Bytes × Remainder :=
  let n := beValue (bytes.take 4)
  if bytes.length < 4 then ([], .incomplete bytes)
  else if maxPayload < n then ([], .oversized)
  else if bytes.length < 4 + n then ([], .incomplete bytes)
  else
    let (payloads, remainder) := deframe (bytes.drop (4 + n))
    ((bytes.drop 4).take n :: payloads, remainder)
termination_by bytes.length
decreasing_by
  rw [List.length_drop]
  omega

/-- The payloads that more bytes complete, and what follows them. -/
def Remainder.feed (r : Remainder) (bytes : Bytes) : List Bytes × Remainder :=
  match r with
  | .incomplete before => deframe (before ++ bytes)
  | .oversized => ([], .oversized)

/-- The start of a stream. -/
def Remainder.start : Remainder := .incomplete []

theorem deframe_append_of_frame? {payload framed : Bytes} (h : frame? payload = some framed)
    (rest : Bytes) :
    deframe (framed ++ rest) = (payload :: (deframe rest).1, (deframe rest).2) := by
  unfold frame? at h
  split at h
  case isFalse => simp at h
  case isTrue hle =>
    obtain rfl := Option.some.inj h
    have hlt : payload.length < byteSpan 4 := by
      have : maxPayload < byteSpan 4 := by decide
      omega
    have hlen : (beBytes 4 payload.length).length = 4 := length_beBytes ..
    rw [deframe]
    simp only [frame, List.append_assoc, List.take_left' hlen, List.drop_left' hlen,
      beValue_beBytes_of_lt hlt, List.length_append, hlen, List.take_left]
    rw [if_neg (by omega), if_neg (by omega), if_neg (by omega)]
    rw [List.drop_append, hlen, List.drop_eq_nil_of_le (by omega), List.nil_append]
    simp

/-- The whole frames and what follows them make up the stream. -/
theorem eq_of_deframe {bytes rest : Bytes} {payloads : List Bytes}
    (h : deframe bytes = (payloads, .incomplete rest)) :
    bytes = payloads.flatMap frame ++ rest := by
  rw [deframe] at h
  dsimp only at h
  split at h
  case isTrue => simp_all
  case isFalse hlen =>
    split at h
    case isTrue => simp at h
    case isFalse =>
      split at h
      case isTrue => simp_all
      case isFalse hall =>
        simp only [Prod.mk.injEq] at h
        obtain ⟨rfl, hrest⟩ := h
        have htail : deframe (bytes.drop (4 + beValue (bytes.take 4))) = (_, .incomplete rest) :=
          Prod.ext rfl hrest
        have ih := eq_of_deframe htail
        have hhead : beBytes 4 (beValue (bytes.take 4)) = bytes.take 4 := by
          have := beBytes_beValue (bytes.take 4)
          rwa [List.length_take, Nat.min_eq_left (by omega)] at this
        have hbody : ((bytes.drop 4).take (beValue (bytes.take 4))).length =
            beValue (bytes.take 4) := by
          rw [List.length_take, List.length_drop]
          omega
        rw [List.flatMap_cons, frame, hbody, hhead, List.append_assoc, List.append_assoc, ← ih,
          ← List.drop_drop, List.take_append_drop, List.take_append_drop]
termination_by bytes.length
decreasing_by
  rw [List.length_drop]
  omega

end LeaseLock.Net
