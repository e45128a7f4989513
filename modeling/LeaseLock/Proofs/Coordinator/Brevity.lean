import LeaseLock.Coordinator.Reply
import LeaseLock.Proofs.Coordinator.Request
import LeaseLock.Proofs.Wire.Grammar
import Mathlib.Data.Nat.Digits.Defs

/-
  LeaseLock: what the coordinator says is brief.
  A fault is worded by a fixed text around a field name and numbers that count bytes or are ids of
  sessions and handles.  As long as ids have 64 bits, the wording is short (`Fault.Brief`), wherever
  the fault comes from: a decoder (`Command.brief_of_decode`), an operation for a session
  (`Fault.Concerns.brief`) or the queue of a handle.  So every answer makes a short response,
  however many sessions and handles there are (`State.brief_perform`).
-/

namespace LeaseLock

/-! ## Numbers in words -/

theorem utf8ByteSize_ofList_le (cs : List Char) :
    (String.ofList cs).utf8ByteSize ≤ 4 * cs.length := by
  rw [← Utf8.length_encode, Utf8.encode, String.toList_ofList, Utf8.length_encodeChars]
  induction cs with
  | nil => exact Nat.zero_le _
  | cons c cs ih =>
    have hc : c.utf8Size ≤ 4 := c.utf8Size_le_four
    rw [Utf8.size, List.length_cons]
    omega

/-- A number of 64 bits has at most twenty digits. -/
theorem utf8ByteSize_toString {n : Nat} (h : n < 2 ^ 64) : (toString n).utf8ByteSize ≤ 80 := by
  have hdigits : (Nat.toDigits 10 n).length ≤ 20 :=
    Nat.toDigits_length 10 n 20 (by decide) (h.trans (by decide))
  exact (utf8ByteSize_ofList_le _).trans (Nat.mul_le_mul_left 4 hdigits)

/-- A number behind a word. -/
theorem utf8ByteSize_behind (word : String) {n : Nat} (h : n < 2 ^ 64) :
    (word ++ toString n).utf8ByteSize ≤ word.utf8ByteSize + 80 := by
  rw [String.utf8ByteSize_append]
  exact Nat.add_le_add_left (utf8ByteSize_toString h) _

/-- A number between two words. -/
theorem utf8ByteSize_between (word word' : String) {n : Nat} (h : n < 2 ^ 64) :
    (word ++ toString n ++ word').utf8ByteSize ≤ word.utf8ByteSize + 80 + word'.utf8ByteSize := by
  rw [String.utf8ByteSize_append]
  exact Nat.add_le_add_right (utf8ByteSize_behind word h) _

/-! ## Faults -/

namespace Fault

/-- The wording is short. -/
def Brief (f : Fault) : Prop := f.message.utf8ByteSize ≤ 256

theorem brief_badMode (bits : UInt32) : (badMode bits).Brief := by
  have hdigits : (Nat.toDigits 16 bits.toNat).length ≤ 8 :=
    Nat.toDigits_length 16 _ 8 (by decide) bits.toNat_lt
  have hsize := utf8ByteSize_ofList_le (Nat.toDigits 16 bits.toNat)
  have hwords : "bad lock mode ".utf8ByteSize + "0x".utf8ByteSize = 16 := by decide
  show ("bad lock mode " ++ ("0x" ++ String.ofList (Nat.toDigits 16 bits.toNat))).utf8ByteSize ≤ 256
  rw [String.utf8ByteSize_append, String.utf8ByteSize_append]
  omega

theorem brief_sessionExpired {session : Nat} (h : session < 2 ^ 64) :
    (sessionExpired session).Brief :=
  (utf8ByteSize_between "session " " expired" h).trans (by decide)

/-- What an operation of a session on a handle can be refused for. -/
inductive Concerns (session handle : Nat) : Fault → Prop
  | sessionExpired : Concerns session handle (.sessionExpired session)
  | unknownHandle : Concerns session handle (.unknownHandle handle)
  | alreadyLocked : Concerns session handle (.alreadyLocked handle)
  | notLocked : Concerns session handle (.notLocked handle)

theorem Concerns.brief {session handle : Nat} {f : Fault} (hf : f.Concerns session handle)
    (hsession : session < 2 ^ 64) (hhandle : handle < 2 ^ 64) : f.Brief := by
  cases hf with
  | sessionExpired => exact brief_sessionExpired hsession
  | unknownHandle => exact (utf8ByteSize_behind "unknown handle " hhandle).trans (by decide)
  | alreadyLocked =>
    exact (utf8ByteSize_between "handle " " already locked or pending for this session"
      hhandle).trans (by decide)
  | notLocked =>
    exact (utf8ByteSize_between "handle " " not locked by this session" hhandle).trans (by decide)

/-- The first field that does not fit is named with two lengths. -/
theorem brief_truncated {field : String} {need remaining : Nat} (hfield : field.utf8ByteSize ≤ 16)
    (hneed : need < 2 ^ 64) (hremaining : remaining < need) :
    (decode (.truncated field need remaining)).Brief := by
  have hfirst := utf8ByteSize_toString hneed
  have hsecond := utf8ByteSize_toString (hremaining.trans hneed)
  have hwords : "decode error: ".utf8ByteSize + "truncated ".utf8ByteSize +
      ": need ".utf8ByteSize + " bytes, ".utf8ByteSize + " remaining".utf8ByteSize = 49 := by decide
  show ("decode error: " ++ ("truncated " ++ field ++ ": need " ++ toString need ++ " bytes, " ++
    toString remaining ++ " remaining")).utf8ByteSize ≤ 256
  simp only [String.utf8ByteSize_append]
  omega

/-- A field that is no text is named with the place of the flaw. -/
theorem brief_notUtf8 {field : String} {bytes : Bytes} {flaw : Utf8.Flaw}
    (hfield : field.utf8ByteSize ≤ 16) (hbytes : bytes.length < 2 ^ 64)
    (h : Utf8.decode bytes = .error flaw) : (decode (.notUtf8 field flaw)).Brief := by
  obtain ⟨text, rest, rfl, hflaw⟩ := Utf8.flaw_of_decode h
  rw [List.length_append] at hbytes
  have hindex : (toString (Utf8.encode text).length).utf8ByteSize ≤ 80 :=
    utf8ByteSize_toString (by omega)
  have hmessage : flaw.message.utf8ByteSize ≤ 204 := by
    obtain ⟨length, hlength, rfl⟩ | rfl := hflaw
    · have hcount : (toString length).utf8ByteSize ≤ 80 := utf8ByteSize_toString (by omega)
      have hwords : "invalid utf-8 sequence of ".utf8ByteSize +
          " bytes from index ".utf8ByteSize = 44 := by decide
      show ("invalid utf-8 sequence of " ++ toString length ++ " bytes from index " ++
        toString (Utf8.encode text).length).utf8ByteSize ≤ 204
      simp only [String.utf8ByteSize_append]
      omega
    · exact (utf8ByteSize_behind "incomplete utf-8 byte sequence from index "
        (n := (Utf8.encode text).length) (by omega)).trans (by decide)
  have hwords : "decode error: ".utf8ByteSize + " is not utf-8: ".utf8ByteSize = 29 := by decide
  show ("decode error: " ++ (field ++ " is not utf-8: " ++ flaw.message)).utf8ByteSize ≤ 256
  simp only [String.utf8ByteSize_append]
  omega

end Fault

/-! ## Decoders -/

namespace Wire

/-- The names of fields are short, and the lengths of fields are small. -/
def Layout.Small (l : Layout) : Prop := ∀ entry ∈ l, entry.1.utf8ByteSize ≤ 16 ∧ entry.2 < 2 ^ 64

theorem Layout.Small.brief {l : Layout} (hl : l.Small) {n : Nat} {cause : Malformed}
    (h : l.shortage? n = some cause) : (Fault.decode cause).Brief := by
  obtain ⟨before, field, need, after, rfl, -, hlt, rfl⟩ := shortage?_eq_some.1 h
  obtain ⟨hfield, hneed⟩ := hl (field, need) (List.mem_append_right _ List.mem_cons_self)
  exact Fault.brief_truncated hfield hneed hlt

theorem Request.brief_of_decode {frame : Bytes} {fault : Fault}
    (h : Request.decode frame = .error fault) : fault.Brief := by
  obtain ⟨cause, hcause, rfl⟩ := (Request.exact.refuses frame fault).1 h
  have hsmall : Layout.Small [("request id", 4), ("command", 1)] := by
    unfold Layout.Small
    decide
  exact hsmall.brief hcause

theorem LockRequest.brief_of_shortage {n : Nat} {cause : Malformed}
    (h : LockRequest.layout.shortage? n = some cause) : (Fault.decode cause).Brief := by
  have hsmall : LockRequest.layout.Small := by
    unfold Layout.Small
    decide
  exact hsmall.brief h

theorem Argument.length_textBytes_le (body : Bytes) :
    (textBytes body).length ≤ textLength body := List.length_take_le _ _

/-- The argument of a command has short names and small lengths. -/
theorem Argument.small_layout {code : UInt8} {a : Argument} (ha : Command.argument? code = some a)
    (body : Bytes) : (a.layout body).Small ∧ ∀ field, a = .text field → field = "handle name" := by
  have hnumber : ∀ {field : String}, field.utf8ByteSize ≤ 16 →
      ((Argument.number field).layout body).Small := by
    intro field hfield entry hm
    obtain rfl := List.mem_singleton.1 hm
    exact ⟨hfield, show 8 < 2 ^ 64 by decide⟩
  have hname : "handle name".utf8ByteSize ≤ 16 := by decide
  have htext : ((Argument.text "handle name").layout body).Small := by
    intro entry hm
    rcases List.mem_cons.1 hm with rfl | hm
    · exact ⟨hname, show 2 < 2 ^ 64 by decide⟩
    · obtain rfl := List.mem_singleton.1 hm
      exact ⟨hname, (textLength_lt body).trans (by decide)⟩
  unfold Command.argument? at ha
  split at ha <;> cases ha
  · exact ⟨nofun, nofun⟩
  · exact ⟨nofun, nofun⟩
  · exact ⟨nofun, nofun⟩
  · exact ⟨nofun, nofun⟩
  · exact ⟨hnumber (by decide), nofun⟩
  · exact ⟨htext, fun _ h => (Argument.text.inj h).symm⟩
  · exact ⟨hnumber (by decide), nofun⟩
  · exact ⟨hnumber (by decide), nofun⟩
  · exact ⟨hnumber (by decide), nofun⟩
  · exact ⟨nofun, nofun⟩

theorem Command.brief_of_decode {code : UInt8} {body : Bytes} {fault : Fault}
    (h : Command.decode code body = .error fault) : fault.Brief := by
  obtain ⟨a, ha, hrefused⟩ := ((Command.exact code body).refuses fault).1 h
  obtain ⟨hsmall, hname⟩ := Argument.small_layout ha body
  obtain ⟨cause, hcause, rfl⟩ | ⟨-, field, flaw, rfl, hflaw, rfl⟩ := hrefused
  · exact hsmall.brief hcause
  · obtain rfl := hname field rfl
    have hlength := Argument.length_textBytes_le body
    have hlt := Argument.textLength_lt body
    exact Fault.brief_notUtf8 (by decide) (by omega) hflaw

/-! ## Responses -/

/-- The frame of the response is short. -/
def Response.Brief (r : Response) : Prop := r.encode.length ≤ 512

theorem Response.brief_of_body {r : Response} (h : r.body.length ≤ 504) : r.Brief := by
  unfold Brief
  rw [length_encode, headerSize]
  omega

theorem Response.brief_error (id status : UInt32) {message : String}
    (h : message.utf8ByteSize ≤ 504) : (error id status message).Brief := by
  refine brief_of_body ?_
  rw [error, Utf8.length_encode]
  exact h

end Wire

namespace Coordinator

/-! ## Answers -/

/-- The response that an answer makes is short. -/
def Answer.Brief (a : Answer) : Prop := ∀ id, (a.reply.response id).Brief

theorem Answer.brief_granted (generation : Nat) : (granted generation).Brief := fun _ => by
  refine Wire.Response.brief_of_body ?_
  show (encodeU64 _).length ≤ 504
  rw [length_encodeU64]
  decide

theorem Answer.brief_refused {fault : Fault} (h : fault.Brief) : (refused fault).Brief := fun id =>
  Wire.Response.brief_error id _ (h.trans (by decide))

theorem Answer.brief_malformed {fault : Fault} (h : fault.Brief) :
    (malformed fault).Brief := fun id => by
  refine Wire.Response.brief_error id _ ?_
  have hword : "error handling lock message: ".utf8ByteSize = 29 := by decide
  show ("error handling lock message: " ++ fault.message).utf8ByteSize ≤ 504
  rw [String.utf8ByteSize_append, hword]
  exact (Nat.add_le_add_left h 29).trans (by decide)

theorem Answer.brief_busy : busy.Brief := fun _ => Wire.Response.brief_of_body (Nat.zero_le _)

theorem Answer.brief_cancelled : cancelled.Brief :=
  fun _ => Wire.Response.brief_of_body (Nat.zero_le _)

variable {ρ : Type} {lent : Nat → Nat → Prop} {s : State ρ} {session handle : Nat} {fault : Fault}

/-- Whoever has been taken out of a queue is told a grant, "cancelled" or the end of its session. -/
theorem Departure.Proper.brief {d : Departure ρ} (hd : d.Proper)
    (hsession : d.waiter.session < 2 ^ 64) : d.answer.Brief := by
  rcases hd with ⟨generation, h⟩ | h | h <;> rw [h]
  · exact Answer.brief_granted generation
  · exact Answer.brief_cancelled
  · exact Answer.brief_refused (Fault.brief_sessionExpired hsession)

/-! ## Operations -/

namespace State

theorem concerns_checkRequest (h : s.checkRequest session handle = .error fault) :
    fault.Concerns session handle := by
  unfold checkRequest at h
  cases hs : s.sessions.get? session with
  | none =>
    rw [hs] at h
    cases h
    exact .sessionExpired
  | some owner =>
    rw [hs] at h
    dsimp only at h
    split at h
    · split at h
      · cases h
        exact .unknownHandle
      · split at h
        · cases h
          exact .alreadyLocked
        · cases h
    · cases h
      exact .unknownHandle

theorem refused_openHandle {name : String} (h : (s.openHandle session name).1 = .error fault) :
    fault = .sessionExpired session := by
  obtain ⟨-, hcase⟩ | ⟨-, hcase⟩ := s.openHandle_cases session name <;> rw [hcase] at h <;> cases h
  rfl

theorem concerns_closeHandle (h : (s.closeHandle session handle).1 = .error fault) :
    fault.Concerns session handle := by
  unfold closeHandle at h
  split at h
  · cases h
    exact .sessionExpired
  · split at h
    · cases h
    · cases h
      exact .unknownHandle

theorem concerns_release (h : (s.release session handle).1 = .error fault) :
    fault.Concerns session handle := by
  unfold release at h
  split at h
  · cases h
    exact .unknownHandle
  · split at h
    · cases h
      exact .notLocked
    · cases h

theorem refused_closeSession (h : (s.closeSession session).1 = .error fault) :
    fault = .sessionExpired session := by
  obtain ⟨-, hcase⟩ | ⟨o, -, hcase⟩ := s.closeSession_cases session <;> rw [hcase] at h <;> cases h
  rfl

theorem brief_acquire (hsession : session < 2 ^ 64) (hhandle : handle < 2 ^ 64) (mode : Mode)
    (tryOnly : Bool) (reply : ρ) :
    ∀ p ∈ (s.acquire session handle mode tryOnly reply).2.answers, p.2.Brief := by
  intro p hm
  have hr := s.requested_acquire session handle mode tryOnly reply
  generalize s.acquire session handle mode tryOnly reply = r at hr hm
  cases hr with
  | refused checked =>
    obtain rfl := List.mem_singleton.1 hm
    exact Answer.brief_refused ((concerns_checkRequest checked).brief hsession hhandle)
  | granted checked alone admitted =>
    obtain rfl := List.mem_singleton.1 hm
    exact Answer.brief_granted _
  | denied checked blocked impatient =>
    obtain rfl := List.mem_singleton.1 hm
    exact Answer.brief_busy
  | queued checked blocked patient => cases hm

theorem brief_dispatch (hsession : session < 2 ^ 64) (payload : Bytes) (reply : ρ) :
    ∀ p ∈ (s.dispatch session payload reply).2.answers, p.2.Brief := by
  intro p hm
  cases s.dispatched session payload reply with
  | asked handle mode flag rest spelt acts =>
    rw [acts] at hm
    exact brief_acquire hsession handle.toNat_lt mode _ reply p hm
  | short cause length names code tells =>
    rw [tells] at hm
    obtain rfl := List.mem_singleton.1 hm
    exact Answer.brief_malformed (Wire.LockRequest.brief_of_shortage names)
  | stray handle bits flag rest spelt modeless code tells =>
    rw [tells] at hm
    obtain rfl := List.mem_singleton.1 hm
    exact Answer.brief_malformed (Fault.brief_badMode bits)

end State

/-- The ids in a lock request have 64 bits. -/
def Operation.Small : Operation ρ → Prop
  | .acquire session handle _ _ _ => session < 2 ^ 64 ∧ handle < 2 ^ 64
  | .dispatch session _ _ => session < 2 ^ 64
  | _ => True

namespace State

/-- Every answer of an operation is brief, also those to requests that have waited. -/
theorem brief_perform (hs : Coherent [] lent s) (hids : s.sessions.nextId ≤ 2 ^ 64)
    {op : Operation ρ} (hop : op.Small) : ∀ p ∈ (s.perform op).2.answers, p.2.Brief := by
  have hother : op.asker? = none → ∀ p ∈ (s.perform op).2.answers, p.2.Brief := by
    intro hasker p hm
    obtain ⟨out, hout, hproper⟩ := accounted_perform hs hasker
    rw [hout.answers] at hm
    obtain ⟨d, hd, rfl⟩ := List.mem_map.1 hm
    have hplace : d.place ∈ s.queue :=
      hout.queue.symm.subset (List.mem_append_left _ (List.mem_map_of_mem hd))
    have hlt := hs.session_lt _ (hs.contains_of_mem_queue hplace)
    exact (hproper d hd).brief (hlt.trans_le hids)
  cases op with
  | acquire session handle mode tryOnly reply => exact brief_acquire hop.1 hop.2 mode tryOnly reply
  | dispatch session payload reply => exact brief_dispatch hop payload reply
  | _ => exact hother rfl

end State

end Coordinator

end LeaseLock
