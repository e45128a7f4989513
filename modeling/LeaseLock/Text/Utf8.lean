import LeaseLock.Bytes

/-
  LeaseLock: UTF-8 text.
  Decoding reads one byte at a time.  Between bytes it is either between characters or inside a
  sequence, and then it knows which values the next byte may take.  `Utf8.pieces` cuts a byte
  string into characters and ill-formed parts: a part ends before the first byte that cannot
  continue it, so it is as long as a prefix of a well-formed sequence can be.  `decode` refuses
  the first ill-formed part and tells where it stands; `decodeLossy` replaces each of them by one
  replacement character.
-/

namespace LeaseLock.Utf8

/-! ## Encoding -/

/-- The UTF-8 form of a text. -/
def encodeChars (cs : List Char) : Bytes := cs.flatMap String.utf8EncodeChar

/-- The UTF-8 form of a string. -/
def encode (s : String) : Bytes := encodeChars s.toList

/-- The longest prefix of whole characters whose UTF-8 form has at most `limit` bytes. -/
def prefixWithin : Nat → List Char → List Char
  | _, [] => []
  | limit, c :: rest =>
    if c.utf8Size ≤ limit then c :: prefixWithin (limit - c.utf8Size) rest else []

theorem encodeChars_append (cs ds : List Char) :
    encodeChars (cs ++ ds) = encodeChars cs ++ encodeChars ds := by
  simp [encodeChars]

/-- The length of the UTF-8 form of a text. -/
def size : List Char → Nat
  | [] => 0
  | c :: rest => c.utf8Size + size rest

theorem length_encodeChars (cs : List Char) : (encodeChars cs).length = size cs := by
  induction cs with
  | nil => rfl
  | cons c cs ih =>
    rw [show c :: cs = [c] ++ cs from rfl, encodeChars_append, List.length_append, ih]
    simp [encodeChars, size]

theorem length_encodeChars_prefixWithin (limit : Nat) (cs : List Char) :
    (encodeChars (prefixWithin limit cs)).length ≤ limit := by
  induction cs generalizing limit with
  | nil => simp [prefixWithin, encodeChars]
  | cons c cs ih =>
    unfold prefixWithin
    split
    · have := ih (limit - c.utf8Size)
      rw [length_encodeChars] at this ⊢
      rw [size]
      omega
    · simp [encodeChars]

theorem prefixWithin_eq_self {limit : Nat} {cs : List Char}
    (h : (encodeChars cs).length ≤ limit) : prefixWithin limit cs = cs := by
  induction cs generalizing limit with
  | nil => rfl
  | cons c cs ih =>
    rw [length_encodeChars, size] at h
    unfold prefixWithin
    rw [if_pos (by omega), ih]
    rw [length_encodeChars]
    omega

/-! ## Decoding -/

/-- A sequence that has begun but not ended. -/
structure Partial where
  /-- The bits collected so far. -/
  code : Nat
  /-- The bytes read so far. -/
  taken : Nat
  /-- The bytes that are still missing. -/
  left : Nat
  /-- The least value of the next byte. -/
  low : Nat
  /-- The greatest value of the next byte. -/
  high : Nat

/-- A character, or a part that belongs to none. -/
inductive Piece where
  /-- A character. -/
  | char (c : Char)
  /-- So many bytes that no byte string can complete to a character. -/
  | invalid (length : Nat)
  /-- So many bytes that begin a character at the end of the input. -/
  | cut (length : Nat)
deriving DecidableEq, Repr

/-- What a byte begins when it stands between characters: a character of its own, a longer
sequence, or nothing at all. -/
def start (b : UInt8) : Piece ⊕ Partial :=
  let n := b.toNat
  if n ≤ 0x7f then .inl (.char (Char.ofNat n))
  else if 0xc2 ≤ n ∧ n ≤ 0xdf then .inr ⟨n - 0xc0, 1, 1, 0x80, 0xbf⟩
  else if n = 0xe0 then .inr ⟨0, 1, 2, 0xa0, 0xbf⟩
  else if n = 0xed then .inr ⟨0xd, 1, 2, 0x80, 0x9f⟩
  else if 0xe1 ≤ n ∧ n ≤ 0xef then .inr ⟨n - 0xe0, 1, 2, 0x80, 0xbf⟩
  else if n = 0xf0 then .inr ⟨0, 1, 3, 0x90, 0xbf⟩
  else if 0xf1 ≤ n ∧ n ≤ 0xf3 then .inr ⟨n - 0xf0, 1, 3, 0x80, 0xbf⟩
  else if n = 0xf4 then .inr ⟨4, 1, 3, 0x80, 0x8f⟩
  else .inl (.invalid 1)

/-- The pieces of a byte string, read on from the middle of a sequence if there is one. -/
def piecesFrom : Option Partial → Bytes → List Piece
  | none, [] => []
  | some p, [] => [.cut p.taken]
  | none, b :: rest =>
    match start b with
    | .inl piece => piece :: piecesFrom none rest
    | .inr p => piecesFrom (some p) rest
  | some p, b :: rest =>
    if p.low ≤ b.toNat ∧ b.toNat ≤ p.high then
      let code := p.code * 64 + (b.toNat - 0x80)
      if p.left ≤ 1 then .char (Char.ofNat code) :: piecesFrom none rest
      else piecesFrom (some ⟨code, p.taken + 1, p.left - 1, 0x80, 0xbf⟩) rest
    else
      .invalid p.taken ::
        match start b with
        | .inl piece => piece :: piecesFrom none rest
        | .inr q => piecesFrom (some q) rest

/-- The characters and ill-formed parts of a byte string, in order. -/
def pieces (bytes : Bytes) : List Piece := piecesFrom none bytes

/-- Why a byte string is not UTF-8. -/
inductive Flaw where
  /-- `length` bytes from `index` on begin no character. -/
  | invalid (length index : Nat)
  /-- The input ends inside the character that starts at `index`. -/
  | incomplete (index : Nat)
deriving DecidableEq, Repr

/-- The wording of a flaw. -/
def Flaw.message : Flaw → String
  | .invalid length index => s!"invalid utf-8 sequence of {length} bytes from index {index}"
  | .incomplete index => s!"incomplete utf-8 byte sequence from index {index}"

/-- The characters, or the first piece that is none; `index` bytes stand before the pieces. -/
def collect (index : Nat) : List Piece → Except Flaw (List Char)
  | [] => .ok []
  | .char c :: rest => (collect (index + c.utf8Size) rest).map (c :: ·)
  | .invalid length :: _ => .error (.invalid length index)
  | .cut _ :: _ => .error (.incomplete index)

/-- The text that a byte string encodes. -/
def decode (bytes : Bytes) : Except Flaw String :=
  (collect 0 (pieces bytes)).map String.ofList

/-- The character that stands for an ill-formed part. -/
def replacement : Char := '\uFFFD'

/-- The text of a byte string, with one replacement character for each ill-formed part. -/
def decodeLossy (bytes : Bytes) : String :=
  .ofList ((pieces bytes).map fun
    | .char c => c
    | .invalid _ => replacement
    | .cut _ => replacement)

end LeaseLock.Utf8
