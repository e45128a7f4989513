import LeaseLock.Proofs.Coordinator.Operation
import LeaseLock.Proofs.Text.WellFormed
import LeaseLock.Proofs.Wire.RoundTrip
import Mathlib.Algebra.GroupWithZero.Nat

/-
  LeaseLock: decoders accept exactly their grammar.
  A record is a few fields of fixed length, its `Layout`, and what the last of them leaves.  A
  reader of a field is exact (`Fixed`): it takes the bytes that spell a value, and only an input
  that is too short has none.  Reading one exact field before an exact decoder gives an exact
  decoder (`Exact.read`), so each record is exact by its fields; a byte string that it refuses is
  refused for the first field that does not fit (`Layout.shortage?_eq_some`).  The body of a command
  has a layout of its own, which for a name depends on the length in front of it
  (`Command.exact`).
-/

namespace LeaseLock.Wire

/-! ## Layouts -/

/-- The names and lengths of fields that follow one another. -/
abbrev Layout := List (String × Nat)

namespace Layout

/-- The bytes of all fields. -/
def size (l : Layout) : Nat := (l.map (·.2)).sum

/-- Why `n` bytes are too few: the first field that does not fit. -/
def shortage? : Layout → Nat → Option Malformed
  | [], _ => none
  | (field, need) :: rest, n =>
    if need ≤ n then shortage? rest (n - need) else some (.truncated field need n)

variable {l : Layout} {n : Nat}

theorem size_cons (field : String) (need : Nat) (l : Layout) :
    size ((field, need) :: l) = need + size l := List.sum_cons

theorem shortage?_eq_none : l.shortage? n = none ↔ l.size ≤ n := by
  induction l generalizing n with
  | nil => simp [shortage?, size]
  | cons entry l ih =>
    obtain ⟨field, need⟩ := entry
    rw [shortage?, size_cons]
    split
    · rw [ih]
      omega
    · constructor
      · rintro ⟨⟩
      · omega

/-- The field that is named is the first that does not fit: those before it do, and of its own
bytes only some remain. -/
theorem shortage?_eq_some {cause : Malformed} : l.shortage? n = some cause ↔
    ∃ before field need after, l = before ++ (field, need) :: after ∧ size before ≤ n ∧
      n - size before < need ∧ cause = .truncated field need (n - size before) := by
  induction l generalizing n with
  | nil => simp [shortage?]
  | cons entry l ih =>
    obtain ⟨field, need⟩ := entry
    rw [shortage?]
    split
    · rename_i hfits
      rw [ih]
      constructor
      · rintro ⟨before, f, k, after, rfl, hle, hlt, rfl⟩
        have hsize := size_cons field need before
        refine ⟨(field, need) :: before, f, k, after, rfl, by omega, by omega, ?_⟩
        rw [hsize, Nat.sub_sub]
      · rintro ⟨before, f, k, after, hl, hle, hlt, rfl⟩
        cases before with
        | nil =>
          obtain ⟨⟨rfl, rfl⟩, rfl⟩ := by simpa using hl
          simp [size] at hlt
          omega
        | cons entry before =>
          obtain ⟨rfl, rfl⟩ := List.cons.inj hl
          have hsize := size_cons field need before
          refine ⟨before, f, k, after, rfl, by omega, by omega, ?_⟩
          rw [hsize, Nat.sub_sub]
    · rename_i hshort
      constructor
      · rintro ⟨⟩
        exact ⟨[], field, need, l, rfl, by simp [size], by simp [size]; omega, by simp [size]⟩
      · rintro ⟨before, f, k, after, hl, hle, hlt, rfl⟩
        cases before with
        | nil =>
          obtain ⟨⟨rfl, rfl⟩, rfl⟩ := by simpa using hl
          simp [size]
        | cons entry before =>
          obtain ⟨rfl, rfl⟩ := List.cons.inj hl
          have hsize := size_cons field need before
          omega

end Layout

/-! ## Fields -/

variable {α β : Type} {field : String} {w : Nat}

/-- A reader that takes the `w` bytes of a value. -/
structure Fixed (field : String) (w : Nat) (take : Reader α) (spell : α → Bytes) : Prop where
  /-- What spells a value is read as it. -/
  reads : ∀ v rest, take (spell v ++ rest) = .ok (v, rest)
  /-- An input that is long enough begins with the bytes of some value. -/
  covers : ∀ bytes, w ≤ bytes.length → ∃ v rest, bytes = spell v ++ rest
  /-- A shorter one is refused, with the name of the field and both lengths. -/
  short : ∀ bytes, bytes.length < w →
    take bytes = .error (.decode (.truncated field w bytes.length))
  /-- Every value has `w` bytes. -/
  length : ∀ v, (spell v).length = w

theorem takeNat_of_lt {bytes : Bytes} (h : bytes.length < w) :
    takeNat field w bytes = .error (.decode (.truncated field w bytes.length)) := by
  rw [takeNat, takeBytes_of_lt h]
  rfl

/-- The first bytes of a byte string are those of a number. -/
theorem leBytes_take {bytes : Bytes} (h : w ≤ bytes.length) :
    bytes = leBytes w (leValue (bytes.take w)) ++ bytes.drop w := by
  have hlength : (bytes.take w).length = w := List.length_take_of_le h
  have hfront := leBytes_leValue (bytes.take w)
  rw [hlength] at hfront
  rw [hfront, List.take_append_drop]

theorem leValue_take_lt {bytes : Bytes} (h : w ≤ bytes.length) :
    leValue (bytes.take w) < byteSpan w := by
  have hlt := leValue_lt (bytes.take w)
  rwa [List.length_take_of_le h] at hlt

theorem fixed_takeU8 (field : String) : Fixed field 1 (takeU8 field) fun v => [v] where
  reads := takeU8_singleton field
  covers
    | [], h => absurd h (by decide)
    | b :: rest, _ => ⟨b, rest, rfl⟩
  short bytes h := by
    rw [takeU8, takeNat_of_lt h]
    rfl
  length _ := rfl

theorem fixed_takeU32 (field : String) : Fixed field 4 (takeU32 field) encodeU32 where
  reads := takeU32_encodeU32 field
  covers bytes h := by
    refine ⟨UInt32.ofNat (leValue (bytes.take 4)), bytes.drop 4, ?_⟩
    rw [encodeU32, UInt32.toNat_ofNat_of_lt' (leValue_take_lt h)]
    exact leBytes_take h
  short bytes h := by
    rw [takeU32, takeNat_of_lt h]
    rfl
  length := length_encodeU32

theorem fixed_takeU64 (field : String) : Fixed field 8 (takeU64 field) encodeU64 where
  reads := takeU64_encodeU64 field
  covers bytes h := by
    refine ⟨UInt64.ofNat (leValue (bytes.take 8)), bytes.drop 8, ?_⟩
    rw [encodeU64, UInt64.toNat_ofNat_of_lt' (leValue_take_lt h)]
    exact leBytes_take h
  short bytes h := by
    rw [takeU64, takeNat_of_lt h]
    rfl
  length := length_encodeU64

/-! ## Records -/

/-- A decoder that accepts exactly the byte strings that spell a value; it refuses the others
because their bytes do not fill its layout. -/
structure Exact (layout : Layout) (decode : Bytes → Except Fault α) (Spells : Bytes → α → Prop) :
    Prop where
  /-- What is accepted, and as what. -/
  accepts : ∀ bytes a, decode bytes = .ok a ↔ Spells bytes a
  /-- A byte string is accepted if it fills the layout. -/
  complete : ∀ bytes, (∃ a, decode bytes = .ok a) ↔ layout.size ≤ bytes.length
  /-- What is refused, and why. -/
  refuses : ∀ bytes fault, decode bytes = .error fault ↔
    ∃ cause, layout.shortage? bytes.length = some cause ∧ fault = .decode cause

namespace Exact

variable {layout : Layout} {decode : Bytes → Except Fault α} {Spells : Bytes → α → Prop}

/-- Nothing is left to read. -/
theorem done (value : Bytes → α) :
    Exact [] (fun bytes => .ok (value bytes)) fun bytes a => a = value bytes where
  accepts bytes a := ⟨fun h => (Except.ok.inj h).symm, fun h => by rw [h]⟩
  complete bytes := ⟨fun _ => Nat.zero_le _, fun _ => ⟨_, rfl⟩⟩
  refuses bytes fault := by
    constructor
    · rintro ⟨⟩
    · rintro ⟨_, ⟨⟩, _⟩

/-- One field is read before the rest. -/
theorem read {take : Reader β} {spell : β → Bytes} {next : β → Bytes → Except Fault α}
    {Rest : β → Bytes → α → Prop} {name : String} (htake : Fixed name w take spell)
    (hnext : ∀ v, Exact layout (next v) (Rest v)) :
    Exact ((name, w) :: layout) (fun bytes => take bytes >>= fun p => next p.1 p.2)
      fun bytes a => ∃ v rest, bytes = spell v ++ rest ∧ Rest v rest a := by
  have hread : ∀ v rest, (take (spell v ++ rest) >>= fun p => next p.1 p.2) = next v rest :=
    fun v rest => by rw [htake.reads]; rfl
  have hlength : ∀ v rest, (spell v ++ rest : Bytes).length = w + rest.length := fun v rest => by
    rw [List.length_append, htake.length]
  constructor
  · intro bytes a
    constructor
    · intro h
      by_cases hlong : w ≤ bytes.length
      · obtain ⟨v, rest, rfl⟩ := htake.covers bytes hlong
        rw [hread] at h
        exact ⟨v, rest, rfl, ((hnext v).accepts rest a).1 h⟩
      · rw [htake.short bytes (by omega)] at h
        cases h
    · rintro ⟨v, rest, rfl, h⟩
      rw [hread]
      exact ((hnext v).accepts rest a).2 h
  · intro bytes
    rw [Layout.size_cons]
    by_cases hlong : w ≤ bytes.length
    · obtain ⟨v, rest, rfl⟩ := htake.covers bytes hlong
      rw [hread, (hnext v).complete rest, hlength]
      omega
    · rw [htake.short bytes (by omega)]
      constructor
      · rintro ⟨_, ⟨⟩⟩
      · omega
  · intro bytes fault
    rw [Layout.shortage?]
    by_cases hlong : w ≤ bytes.length
    · obtain ⟨v, rest, rfl⟩ := htake.covers bytes hlong
      rw [if_pos hlong, hread, hlength, Nat.add_sub_cancel_left]
      exact (hnext v).refuses rest fault
    · rw [if_neg hlong, htake.short bytes (by omega)]
      constructor
      · intro h
        exact ⟨_, rfl, (Except.error.inj h).symm⟩
      · rintro ⟨cause, hcause, rfl⟩
        obtain rfl := Option.some.inj hcause
        rfl

/-- The same decoder by another description of what it accepts. -/
theorem congr {Spells' : Bytes → α → Prop} (h : Exact layout decode Spells)
    (heq : ∀ bytes a, Spells bytes a ↔ Spells' bytes a) : Exact layout decode Spells' where
  accepts bytes a := (h.accepts bytes a).trans (heq bytes a)
  complete := h.complete
  refuses := h.refuses

end Exact

/-- The fields of a lock request. -/
def LockRequest.layout : Layout := [("lock handle", 8), ("lock mode", 4), ("lock try flag", 1)]

/-- Any flag but zero means not to wait. -/
theorem LockRequest.exact :
    Exact layout decode fun bytes r =>
      ∃ flag rest, bytes = encodeU64 r.handle ++ encodeU32 r.mode ++ flag :: rest ∧
        r.tryOnly = (flag != 0) := by
  refine (Exact.read (fixed_takeU64 "lock handle") fun handle =>
    Exact.read (fixed_takeU32 "lock mode") fun mode =>
      Exact.read (fixed_takeU8 "lock try flag") fun flag =>
        Exact.done fun _ => LockRequest.mk handle mode (flag != 0)).congr fun bytes r => ?_
  constructor
  · rintro ⟨handle, _, rfl, mode, _, rfl, flag, rest, rfl, rfl⟩
    exact ⟨flag, rest, by rw [List.append_assoc]; rfl, rfl⟩
  · obtain ⟨handle, mode, tryOnly⟩ := r
    rintro ⟨flag, rest, rfl, rfl⟩
    exact ⟨handle, _, by rw [List.append_assoc]; rfl, mode, _, rfl, flag, rest, rfl, rfl⟩

/-- The field of a grant. -/
theorem LockGrant.exact :
    Exact [("lock generation", 8)] decode fun bytes g => ∃ rest, bytes = g.encode ++ rest := by
  refine (Exact.read (fixed_takeU64 "lock generation") fun generation =>
    Exact.done fun _ => LockGrant.mk generation).congr fun bytes g => ?_
  constructor
  · rintro ⟨generation, rest, rfl, rfl⟩
    exact ⟨rest, rfl⟩
  · rintro ⟨rest, rfl⟩
    exact ⟨g.generation, rest, rfl, rfl⟩

/-- The fields of a session grant. -/
theorem SessionGrant.exact :
    Exact [("session id", 8), ("lease ttl", 8)] decode fun bytes g =>
      ∃ rest, bytes = g.encode ++ rest := by
  refine (Exact.read (fixed_takeU64 "session id") fun session =>
    Exact.read (fixed_takeU64 "lease ttl") fun lease =>
      Exact.done fun _ => SessionGrant.mk session lease).congr fun bytes g => ?_
  constructor
  · rintro ⟨session, _, rfl, lease, rest, rfl, rfl⟩
    exact ⟨rest, by rw [encode, List.append_assoc]⟩
  · rintro ⟨rest, rfl⟩
    exact ⟨g.session, _, by rw [encode, List.append_assoc], g.leaseMillis, rest, rfl, rfl⟩

/-- The fields of a request frame; what follows is its body. -/
theorem Request.exact :
    Exact [("request id", 4), ("command", 1)] decode fun frame r => frame = r.encode := by
  refine (Exact.read (fixed_takeU32 "request id") fun id =>
    Exact.read (fixed_takeU8 "command") fun command =>
      Exact.done fun body => Request.mk id command body).congr fun frame r => ?_
  constructor
  · rintro ⟨id, _, rfl, command, body, rfl, rfl⟩
    rfl
  · rintro rfl
    exact ⟨r.id, _, rfl, r.command, r.body, rfl, rfl⟩

/-- The fields of a response frame; what follows is its body. -/
theorem Response.exact :
    Exact [("request id", 4), ("status", 4)] decode fun frame r => frame = r.encode := by
  refine (Exact.read (fixed_takeU32 "request id") fun id =>
    Exact.read (fixed_takeU32 "status") fun status =>
      Exact.done fun body => Response.mk id status body).congr fun frame r => ?_
  constructor
  · rintro ⟨id, _, rfl, status, body, rfl, rfl⟩
    rfl
  · rintro rfl
    exact ⟨r.id, _, rfl, r.status, r.body, rfl, rfl⟩

/-! ## Commands -/

/-- What the argument of a command is. -/
inductive Argument where
  /-- There is none. -/
  | nothing
  /-- Eight bytes. -/
  | number (field : String)
  /-- Two bytes for a length and so many bytes of text. -/
  | text (field : String)
  /-- Everything that there is. -/
  | payload

namespace Argument

/-- The length in front of a text. -/
def textLength (body : Bytes) : Nat := leValue (body.take 2)

theorem textLength_lt : ∀ body : Bytes, textLength body < 65536
  | [] => by decide
  | [a] => Nat.lt_trans (leValue_lt [a]) (show byteSpan 1 < 65536 by decide)
  | a :: b :: _ => leValue_lt [a, b]

/-- The bytes of a text behind its length. -/
def textBytes (body : Bytes) : Bytes := (body.drop 2).take (textLength body)

/-- The fields of an argument; that of a text is as long as its length says. -/
def layout : Argument → Bytes → Layout
  | number field, _ => [(field, 8)]
  | text field, body => [(field, 2), (field, textLength body)]
  | _, _ => []

/-- The body begins with the whole argument. -/
def Complete : Argument → Bytes → Prop
  | number _, body => 8 ≤ body.length
  | text _, body => 2 + textLength body ≤ body.length ∧ ∃ name, textBytes body = Utf8.encode name
  | _, _ => True

/-- Why a body does not begin with the whole argument. -/
def Refused (a : Argument) (body : Bytes) (fault : Fault) : Prop :=
  (∃ cause, (a.layout body).shortage? body.length = some cause ∧ fault = .decode cause) ∨
  (a.layout body).shortage? body.length = none ∧ ∃ field flaw, a = text field ∧
    Utf8.decode (textBytes body) = .error flaw ∧ fault = .decode (.notUtf8 field flaw)

variable {a : Argument} {body : Bytes} {f g : Fault}

/-- A body is refused for one reason only. -/
theorem Refused.unique (hf : a.Refused body f) (hg : a.Refused body g) : f = g := by
  obtain ⟨c, hc, rfl⟩ | ⟨hn, field, flaw, rfl, hflaw, rfl⟩ := hf <;>
    obtain ⟨d, hd, rfl⟩ | ⟨hm, field', flaw', ha, hflaw', rfl⟩ := hg
  · rw [hc] at hd
    rw [Option.some.inj hd]
  · rw [hm] at hc
    cases hc
  · rw [hn] at hd
    cases hd
  · rw [hflaw] at hflaw'
    rw [Argument.text.inj ha, Except.error.inj hflaw']

theorem Complete.size_le (h : a.Complete body) : (a.layout body).size ≤ body.length := by
  cases a with
  | number => exact h
  | text => exact h.1
  | nothing | payload => exact Nat.zero_le _

/-- A body with the whole argument is not refused. -/
theorem Complete.not_refused (h : a.Complete body) : ¬ a.Refused body f := by
  rintro (⟨cause, hcause, -⟩ | ⟨-, field, flaw, rfl, hflaw, -⟩)
  · rw [Layout.shortage?_eq_none.2 h.size_le] at hcause
    cases hcause
  · obtain ⟨-, name, hname⟩ := h
    rw [Utf8.decode_eq_ok_iff.2 hname] at hflaw
    cases hflaw

end Argument

/-- A text is read if it is complete and UTF-8; otherwise the first field that does not fit is
named, or the flaw. -/
theorem takeText_eq (field : String) (body : Bytes) :
    takeText field body =
      match ((Argument.text field).layout body).shortage? body.length with
      | some cause => .error (.decode cause)
      | none =>
        match Utf8.decode (Argument.textBytes body) with
        | .ok text => .ok (text, body.drop (2 + Argument.textLength body))
        | .error flaw => .error (.decode (.notUtf8 field flaw)) := by
  unfold takeText takeNat takeBytes Argument.layout Layout.shortage?
  by_cases htwo : 2 ≤ body.length
  · rw [if_pos htwo, if_pos htwo]
    dsimp only [Except.map, bind, Except.bind]
    rw [List.length_drop]
    by_cases hlong : Argument.textLength body ≤ body.length - 2
    · rw [if_pos (show leValue (body.take 2) ≤ _ from hlong)]
      dsimp only
      rw [Layout.shortage?, if_pos hlong, List.drop_drop]
      rfl
    · rw [if_neg (show ¬ leValue (body.take 2) ≤ _ from hlong)]
      dsimp only
      rw [Layout.shortage?, if_neg hlong]
      rfl
  · rw [if_neg htwo, if_neg htwo]
    rfl

namespace Command

/-- The argument of the command with a number; `none` if no command has the number. -/
def argument? : UInt8 → Option Argument
  | 1 | 3 | 9 | 10 => some .nothing
  | 2 => some (.number "session id")
  | 4 => some (.text "handle name")
  | 5 | 7 | 8 => some (.number "handle")
  | 6 => some .payload
  | _ => none

/-- What is read behind a number, by the argument that belongs to it. -/
inductive Reads (code : UInt8) : Option Argument → Prop
  | unknown (h : ∀ body, decode code body = .ok none) (hnone : ∀ c : Command, c.code ≠ code) :
      Reads code none
  | nothing (c : Command) (hcode : c.code = code) (hbody : c.body = []) (hfits : c.Fits)
      (hlock : ∀ payload, c ≠ .lock payload) (h : ∀ body, decode code body = .ok (some c)) :
      Reads code (some .nothing)
  | number (field : String) (make : UInt64 → Command) (hcode : ∀ v, (make v).code = code)
      (hbody : ∀ v, (make v).body = encodeU64 v) (hfits : ∀ v, (make v).Fits)
      (hlock : ∀ v payload, make v ≠ .lock payload)
      (h : ∀ body, decode code body = (decodeU64 field body).map (some ∘ make)) :
      Reads code (some (.number field))
  | text (hcode : code = 4) : Reads code (some (.text "handle name"))
  | payload (hcode : code = 6) : Reads code (some .payload)

theorem reads (code : UInt8) : Reads code (argument? code) := by
  unfold argument?
  split
  · exact .nothing openSession rfl rfl trivial (fun _ => nofun) fun _ => rfl
  · exact .nothing keepAlive rfl rfl trivial (fun _ => nofun) fun _ => rfl
  · exact .nothing closeSession rfl rfl trivial (fun _ => nofun) fun _ => rfl
  · exact .nothing stats rfl rfl trivial (fun _ => nofun) fun _ => rfl
  · exact .number _ attachSession (fun _ => rfl) (fun _ => rfl) (fun _ => trivial)
      (fun _ _ => nofun) fun _ => rfl
  · exact .text rfl
  · exact .number _ close (fun _ => rfl) (fun _ => rfl) (fun _ => trivial) (fun _ _ => nofun)
      fun _ => rfl
  · exact .number _ release (fun _ => rfl) (fun _ => rfl) (fun _ => trivial) (fun _ _ => nofun)
      fun _ => rfl
  · exact .number _ cancelLock (fun _ => rfl) (fun _ => rfl) (fun _ => trivial) (fun _ _ => nofun)
      fun _ => rfl
  · exact .payload rfl
  · refine .unknown (fun body => ?_) fun c hc => ?_
    · unfold decode
      split <;> first | rfl | contradiction
    · subst hc
      cases c <;> contradiction

/-- How the body behind a number is read. -/
structure Exact (code : UInt8) (body : Bytes) : Prop where
  /-- A number is unknown if it is that of no command. -/
  unknown : decode code body = .ok none ↔ ∀ c : Command, c.code ≠ code
  /-- A command is read if its number is the one, its name fits, and the body begins with its own;
  only the body of a lock request is the whole. -/
  accepts : ∀ c, decode code body = .ok (some c) ↔ c.code = code ∧ c.Fits ∧
    ∃ rest, body = c.body ++ rest ∧ ∀ payload, c = .lock payload → rest = []
  /-- Some command is read if the body begins with the whole argument that the number wants. -/
  complete : (∃ c, decode code body = .ok (some c)) ↔
    ∃ a, argument? code = some a ∧ a.Complete body
  /-- Every other body is refused, for the first field that does not fit, else because the text is
  not UTF-8. -/
  refuses : ∀ fault, decode code body = .error fault ↔
    ∃ a, argument? code = some a ∧ a.Refused body fault

variable {code : UInt8} {body : Bytes}

theorem exact_number (field : String) :
    Wire.Exact [(field, 8)] (decodeU64 field) fun body v => ∃ rest, body = encodeU64 v ++ rest := by
  refine (Exact.read (fixed_takeU64 field) fun v => Exact.done fun _ => v).congr fun body v => ?_
  constructor
  · rintro ⟨_, rest, rfl, rfl⟩
    exact ⟨rest, rfl⟩
  · rintro ⟨rest, rfl⟩
    exact ⟨v, rest, rfl, rfl⟩

/-- The body of a text that is complete and UTF-8 begins with the field of that text. -/
theorem open_of_complete {name : String}
    (hlong : 2 + Argument.textLength body ≤ body.length)
    (hname : Argument.textBytes body = Utf8.encode name) :
    (Command.open name).Fits ∧
      body = putText name ++ body.drop (2 + Argument.textLength body) := by
  have hlength : (Utf8.encode name).length = Argument.textLength body := by
    rw [← hname, Argument.textBytes, List.length_take, List.length_drop]
    omega
  have hfits : (Utf8.encode name).length ≤ maxTextLength := by
    have hlt := Argument.textLength_lt body
    unfold maxTextLength
    omega
  refine ⟨by rwa [Utf8.length_encode] at hfits, ?_⟩
  rw [putText_eq, kept_eq_self.2 hfits, hlength, ← hname, Argument.textBytes,
    ← List.drop_drop, List.append_assoc, List.take_append_drop]
  exact leBytes_take (by omega)

/-- Either the name of a handle is read, and the body is complete, or the body is refused. -/
theorem decode_of_text (body : Bytes) :
    (∃ name, decode 4 body = .ok (some (.open name)) ∧
      (Argument.text "handle name").Complete body ∧ (Command.open name).Fits ∧
      ∃ rest, body = (Command.open name).body ++ rest) ∨
    ∃ fault, decode 4 body = .error fault ∧ (Argument.text "handle name").Refused body fault := by
  have hdecode : decode 4 body =
      (takeText "handle name" body).map fun p => some (.open p.1) := rfl
  rw [takeText_eq] at hdecode
  cases hs : ((Argument.text "handle name").layout body).shortage? body.length with
  | some cause =>
    rw [hs] at hdecode
    exact .inr ⟨_, hdecode, .inl ⟨cause, hs, rfl⟩⟩
  | none =>
    rw [hs] at hdecode
    have hlong : 2 + Argument.textLength body ≤ body.length := Layout.shortage?_eq_none.1 hs
    cases hname : Utf8.decode (Argument.textBytes body) with
    | ok name =>
      rw [hname] at hdecode
      have hvalid := Utf8.decode_eq_ok_iff.1 hname
      obtain ⟨hfits, hbody⟩ := open_of_complete hlong hvalid
      exact .inl ⟨name, hdecode, ⟨hlong, name, hvalid⟩, hfits, _, hbody⟩
    | error flaw =>
      rw [hname] at hdecode
      exact .inr ⟨_, hdecode, .inr ⟨hs, _, flaw, rfl, hname, rfl⟩⟩

/-- Either some command is read, and the body is complete, or the body is refused. -/
theorem decode_of_argument {a : Argument} (ha : argument? code = some a) (body : Bytes) :
    (∃ c, decode code body = .ok (some c) ∧ a.Complete body ∧ c.code = code ∧ c.Fits ∧
      ∃ rest, body = c.body ++ rest ∧ ∀ payload, c = .lock payload → rest = []) ∨
    ∃ fault, decode code body = .error fault ∧ a.Refused body fault := by
  have hreads := reads code
  rw [ha] at hreads
  cases hreads with
  | nothing c hcode hbody hfits hlock h =>
    exact .inl ⟨c, h body, trivial, hcode, hfits, body, by rw [hbody]; rfl,
      fun payload hc => absurd hc (hlock payload)⟩
  | number field make hcode hbody hfits hlock h =>
    cases hd : decodeU64 field body with
    | ok v =>
      obtain ⟨rest, rfl⟩ := ((exact_number field).accepts body v).1 hd
      refine .inl ⟨make v, ?_, ?_, hcode v, hfits v, rest, by rw [hbody], fun payload hc =>
        absurd hc (hlock v payload)⟩
      · rw [h, hd]
        rfl
      · show 8 ≤ (encodeU64 v ++ rest).length
        rw [List.length_append, length_encodeU64]
        omega
    | error fault =>
      obtain ⟨cause, hcause, rfl⟩ := ((exact_number field).refuses body fault).1 hd
      refine .inr ⟨.decode cause, ?_, .inl ⟨cause, hcause, rfl⟩⟩
      rw [h, hd]
      rfl
  | text hcode =>
    subst hcode
    obtain ⟨name, hdecode, hcomplete, hfits, rest, hbody⟩ | hrefused := decode_of_text body
    · exact .inl ⟨.open name, hdecode, hcomplete, rfl, hfits, rest, hbody, fun _ hc => by cases hc⟩
    · exact .inr hrefused
  | payload hcode =>
    subst hcode
    exact .inl ⟨.lock body, rfl, trivial, rfl, trivial, [], (List.append_nil body).symm,
      fun _ _ => rfl⟩

theorem decode_of_unknown (ha : argument? code = none) (body : Bytes) :
    decode code body = .ok none ∧ ∀ c : Command, c.code ≠ code := by
  have hreads := reads code
  rw [ha] at hreads
  cases hreads with
  | unknown h hnone => exact ⟨h body, hnone⟩

theorem exists_command {a : Argument} (ha : argument? code = some a) :
    ∃ c : Command, c.code = code := by
  have hreads := reads code
  rw [ha] at hreads
  cases hreads with
  | nothing c hcode => exact ⟨c, hcode⟩
  | number _ make hcode => exact ⟨make 0, hcode 0⟩
  | text hcode => exact ⟨.open "", hcode.symm⟩
  | payload hcode => exact ⟨.lock [], hcode.symm⟩

/-- What is read behind a number that is known. -/
theorem exists_argument (h : decode code body ≠ .ok none) : ∃ a, argument? code = some a := by
  cases ha : argument? code with
  | none => exact absurd (decode_of_unknown ha body).1 h
  | some a => exact ⟨a, rfl⟩

/-- The decoder of commands accepts exactly its grammar. -/
theorem exact (code : UInt8) (body : Bytes) : Exact code body where
  unknown := by
    cases ha : argument? code with
    | none =>
      obtain ⟨hdecode, hcode⟩ := decode_of_unknown ha body
      exact ⟨fun _ => hcode, fun _ => hdecode⟩
    | some a =>
      obtain ⟨c, hcode⟩ := exists_command ha
      refine ⟨fun h => ?_, fun h => absurd hcode (h c)⟩
      obtain ⟨_, hdecode, -⟩ | ⟨_, hdecode, -⟩ := decode_of_argument ha body <;>
      · rw [hdecode] at h
        cases h
  accepts c := by
    constructor
    · intro h
      obtain ⟨a, ha⟩ := exists_argument (by rw [h]; nofun)
      obtain ⟨d, hdecode, -, hd⟩ | ⟨fault, hdecode, -⟩ := decode_of_argument ha body
      · rw [hdecode] at h
        cases h
        exact hd
      · rw [hdecode] at h
        cases h
    · rintro ⟨rfl, hfits, rest, rfl, hlock⟩
      rw [decode_body_append c hlock, carried_eq_self hfits]
  complete := by
    constructor
    · rintro ⟨c, h⟩
      obtain ⟨a, ha⟩ := exists_argument (by rw [h]; nofun)
      obtain ⟨_, -, hcomplete, -⟩ | ⟨fault, hdecode, -⟩ := decode_of_argument ha body
      · exact ⟨a, ha, hcomplete⟩
      · rw [hdecode] at h
        cases h
    · rintro ⟨a, ha, hcomplete⟩
      obtain ⟨c, hdecode, -⟩ | ⟨fault, -, hrefused⟩ := decode_of_argument ha body
      · exact ⟨c, hdecode⟩
      · exact absurd hrefused hcomplete.not_refused
  refuses fault := by
    constructor
    · intro h
      obtain ⟨a, ha⟩ := exists_argument (by rw [h]; nofun)
      obtain ⟨c, hdecode, -⟩ | ⟨g, hdecode, hrefused⟩ := decode_of_argument ha body
      · rw [hdecode] at h
        cases h
      · rw [hdecode] at h
        cases h
        exact ⟨a, ha, hrefused⟩
    · rintro ⟨a, ha, hrefused⟩
      obtain ⟨c, -, hcomplete, -⟩ | ⟨g, hdecode, hg⟩ := decode_of_argument ha body
      · exact absurd hrefused hcomplete.not_refused
      · rw [hdecode, hg.unique hrefused]

end Command

end LeaseLock.Wire

namespace LeaseLock

/-! ## Lock requests -/

/-- The bits of a mode are accepted, and no others. -/
theorem Mode.ofBits_cases (bits : UInt32) :
    (∃ mode : Mode, mode.bits = bits ∧ ofBits bits = .ok mode) ∨
      (∀ mode : Mode, mode.bits ≠ bits) ∧ ofBits bits = .error (.badMode bits) := by
  unfold ofBits
  split
  · rename_i hone
    exact .inl ⟨shared, hone.symm, rfl⟩
  · rename_i hone
    split
    · rename_i htwo
      exact .inl ⟨exclusive, htwo.symm, rfl⟩
    · rename_i htwo
      refine .inr ⟨fun mode => ?_, rfl⟩
      cases mode
      · exact Ne.symm hone
      · exact Ne.symm htwo

namespace Coordinator

variable {ρ : Type}

/-- What happens to a lock request that cannot be read: its sender is told, and it is counted. -/
def State.unread (s : State ρ) (fault : Fault) (reply : ρ) : LockOutcome × Turn ρ :=
  (.refused fault.code,
    { state := { s with tally := { s.tally with protocolErrors := s.tally.protocolErrors + 1 } }
      events := []
      answers := [(reply, .malformed fault)] })

/-- How a lock request in the form of bytes is read. -/
inductive State.Dispatched (s : State ρ) (session : Nat) (payload : Bytes) (reply : ρ) : Prop
  /-- Its first bytes are a handle, the bits of a mode and a flag, and the lock is asked for; any
  flag but zero means not to wait. -/
  | asked (handle : UInt64) (mode : Mode) (flag : UInt8) (rest : Bytes)
      (spelt : payload = encodeU64 handle ++ encodeU32 mode.bits ++ flag :: rest)
      (acts : s.dispatch session payload reply =
        s.acquire session handle.toNat mode (flag != 0) reply)
  /-- It is too short. -/
  | short (cause : Malformed) (length : payload.length < Wire.LockRequest.size)
      (names : Wire.LockRequest.layout.shortage? payload.length = some cause)
      (code : (Fault.decode cause).code = .protocol)
      (tells : s.dispatch session payload reply = s.unread (.decode cause) reply)
  /-- Its bits belong to no mode. -/
  | stray (handle : UInt64) (bits : UInt32) (flag : UInt8) (rest : Bytes)
      (spelt : payload = encodeU64 handle ++ encodeU32 bits ++ flag :: rest)
      (modeless : ∀ mode : Mode, mode.bits ≠ bits)
      (code : (Fault.badMode bits).code = .badMode)
      (tells : s.dispatch session payload reply = s.unread (.badMode bits) reply)

theorem State.dispatched (s : State ρ) (session : Nat) (payload : Bytes) (reply : ρ) :
    s.Dispatched session payload reply := by
  have hexact := Wire.LockRequest.exact
  cases hd : Wire.LockRequest.decode payload with
  | ok r =>
    obtain ⟨handle, bits, tryOnly⟩ := r
    obtain ⟨flag, rest, hspelt, rfl⟩ := (hexact.accepts payload _).1 hd
    obtain ⟨mode, rfl, hmode⟩ | ⟨hnone, hmode⟩ := Mode.ofBits_cases bits
    · refine .asked handle mode flag rest hspelt ?_
      have hread : readRequest payload = .ok (⟨handle, mode.bits, flag != 0⟩, mode) := by
        rw [readRequest, hd]
        show (Mode.ofBits mode.bits >>= _) = _
        rw [hmode]
        rfl
      rw [dispatch, hread]
    · refine .stray handle bits flag rest hspelt hnone rfl ?_
      have hread : readRequest payload = .error (.badMode bits) := by
        rw [readRequest, hd]
        show (Mode.ofBits bits >>= _) = _
        rw [hmode]
        rfl
      rw [dispatch, hread]
      rfl
  | error fault =>
    obtain ⟨cause, hcause, rfl⟩ := (hexact.refuses payload fault).1 hd
    refine .short cause (Nat.lt_of_not_le fun hlong => ?_) hcause rfl ?_
    · rw [Wire.Layout.shortage?_eq_none.2 hlong] at hcause
      cases hcause
    · have hread : readRequest payload = .error (.decode cause) := by
        rw [readRequest, hd]
        rfl
      rw [dispatch, hread]
      rfl

end Coordinator

/-! ## The wire -/

/-- Every decoder of the wire accepts exactly its grammar, and what it refuses it refuses for the
first field that does not fit, or because a name is not UTF-8.  So a lock request in the form of
bytes asks for what its first bytes say, or its sender is told why it does not. -/
theorem decoders_exact :
    (∀ code body, Wire.Command.Exact code body) ∧
    Wire.Exact Wire.LockRequest.layout Wire.LockRequest.decode (fun bytes r =>
      ∃ flag rest, bytes = encodeU64 r.handle ++ encodeU32 r.mode ++ flag :: rest ∧
        r.tryOnly = (flag != 0)) ∧
    Wire.Exact [("lock generation", 8)] Wire.LockGrant.decode
      (fun bytes g => ∃ rest, bytes = g.encode ++ rest) ∧
    Wire.Exact [("session id", 8), ("lease ttl", 8)] Wire.SessionGrant.decode
      (fun bytes g => ∃ rest, bytes = g.encode ++ rest) ∧
    Wire.Exact [("request id", 4), ("command", 1)] Wire.Request.decode
      (fun frame r => frame = r.encode) ∧
    Wire.Exact [("request id", 4), ("status", 4)] Wire.Response.decode
      (fun frame r => frame = r.encode) ∧
    ∀ {ρ : Type} (s : Coordinator.State ρ) (session : Nat) (payload : Bytes) (reply : ρ),
      s.Dispatched session payload reply :=
  ⟨Wire.Command.exact, Wire.LockRequest.exact, Wire.LockGrant.exact, Wire.SessionGrant.exact,
    Wire.Request.exact, Wire.Response.exact, Coordinator.State.dispatched⟩

end LeaseLock
