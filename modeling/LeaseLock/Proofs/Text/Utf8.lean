import LeaseLock.Wire.Frame

/-
  LeaseLock: texts are read as they were written.
  The bytes of a character are read one after another: the first says how many follow and which
  values the second may take (`start_two` and its like), every other adds six bits (`pieces_next`).
  So the UTF-8 form of a text is read as that text (`pieces_encodeChars`), by the strict reader and
  by the one that replaces what is ill-formed.
-/

namespace LeaseLock.Utf8

variable {n : Nat} {rest : Bytes}

/-! ## Single bytes -/

theorem toNat_byte (h : n < 256) : (UInt8.ofNat n).toNat = n := UInt8.toNat_ofNat_of_lt h

/-- A byte of its own. -/
theorem start_one (h : n ≤ 0x7f) : start (UInt8.ofNat n) = .inl (.char (Char.ofNat n)) := by
  unfold start
  rw [toNat_byte (by omega)]
  exact if_pos h

/-- The first of two bytes. -/
theorem start_two (hlow : 2 ≤ n) (hhigh : n ≤ 0x1f) :
    start (UInt8.ofNat (n + 0xc0)) = .inr ⟨n, 1, 1, 0x80, 0xbf⟩ := by
  unfold start
  rw [toNat_byte (by omega)]
  dsimp only
  rw [if_neg (by omega), if_pos (by omega), Nat.add_sub_cancel]

/-- The first of three bytes: what follows is neither too small nor a surrogate. -/
theorem start_three (h : n ≤ 0xf) : start (UInt8.ofNat (n + 0xe0)) =
    .inr ⟨n, 1, 2, if n = 0 then 0xa0 else 0x80, if n = 0xd then 0x9f else 0xbf⟩ := by
  unfold start
  rw [toNat_byte (by omega)]
  dsimp only
  rw [if_neg (by omega), if_neg (by omega)]
  by_cases hzero : n = 0
  · subst hzero
    rfl
  · rw [if_neg (by omega)]
    by_cases hd : n = 0xd
    · subst hd
      rfl
    · rw [if_neg (by omega), if_pos (by omega), if_neg hzero, if_neg hd, Nat.add_sub_cancel]

/-- The first of four bytes: what follows is neither too small nor too large. -/
theorem start_four (h : n ≤ 4) : start (UInt8.ofNat (n + 0xf0)) =
    .inr ⟨n, 1, 3, if n = 0 then 0x90 else 0x80, if n = 4 then 0x8f else 0xbf⟩ := by
  unfold start
  rw [toNat_byte (by omega)]
  dsimp only
  rw [if_neg (by omega), if_neg (by omega), if_neg (by omega), if_neg (by omega),
    if_neg (by omega)]
  by_cases hzero : n = 0
  · subst hzero
    rfl
  · rw [if_neg (by omega)]
    by_cases hfour : n = 4
    · subst hfour
      rfl
    · rw [if_pos (by omega), if_neg hzero, if_neg hfour, Nat.add_sub_cancel]

/-! ## Sequences -/

theorem pieces_start {b : UInt8} {p : Partial} (h : start b = .inr p) (rest : Bytes) :
    piecesFrom none (b :: rest) = piecesFrom (some p) rest := by
  rw [piecesFrom, h]

/-- A byte in the middle of a sequence adds six bits. -/
theorem pieces_next {code taken left low high : Nat} (hn : n < 64) (hlow : low ≤ n + 0x80)
    (hhigh : n + 0x80 ≤ high) (hleft : 1 < left) (rest : Bytes) :
    piecesFrom (some ⟨code, taken, left, low, high⟩) (UInt8.ofNat (n + 0x80) :: rest) =
      piecesFrom (some ⟨code * 64 + n, taken + 1, left - 1, 0x80, 0xbf⟩) rest := by
  rw [piecesFrom, toNat_byte (by omega), if_pos ⟨hlow, hhigh⟩, if_neg (by omega : ¬ left ≤ 1),
    Nat.add_sub_cancel]

/-- The last byte of a sequence. -/
theorem pieces_last {code taken low high : Nat} (hn : n < 64) (hlow : low ≤ n + 0x80)
    (hhigh : n + 0x80 ≤ high) (rest : Bytes) :
    piecesFrom (some ⟨code, taken, 1, low, high⟩) (UInt8.ofNat (n + 0x80) :: rest) =
      .char (Char.ofNat (code * 64 + n)) :: piecesFrom none rest := by
  rw [piecesFrom, toNat_byte (by omega), if_pos ⟨hlow, hhigh⟩, if_pos (Nat.le_refl 1),
    Nat.add_sub_cancel]

/-- The bytes of a character are read as this character. -/
theorem pieces_encodeChar (c : Char) (rest : Bytes) :
    piecesFrom none (String.utf8EncodeChar c ++ rest) = .char c :: piecesFrom none rest := by
  have hvalid : c.val.toNat < 0xd800 ∨ 0xdfff < c.val.toNat ∧ c.val.toNat < 0x110000 := c.valid
  have hchar : ∀ code, code = c.val.toNat → Char.ofNat code = c := by
    rintro _ rfl
    exact Char.ofNat_toNat c
  unfold String.utf8EncodeChar
  dsimp only
  generalize c.val.toNat = v at hvalid hchar ⊢
  split
  · rename_i hone
    rw [List.cons_append, List.nil_append, piecesFrom, start_one hone, hchar v rfl]
  · split
    · rename_i htwo
      rw [List.cons_append, List.cons_append, List.nil_append,
        pieces_start (start_two (by omega) (by omega)),
        pieces_last (by omega) (by omega) (by omega), hchar _ (by omega)]
    · split
      · rename_i hthree
        have hlow : (if v / 4096 % 0x10 = 0 then 0xa0 else 0x80) ≤ v / 64 % 0x40 + 0x80 := by
          split <;> omega
        have hhigh : v / 64 % 0x40 + 0x80 ≤ if v / 4096 % 0x10 = 0xd then 0x9f else 0xbf := by
          split <;> omega
        rw [List.cons_append, List.cons_append, List.cons_append, List.nil_append,
          pieces_start (start_three (by omega)), pieces_next (by omega) hlow hhigh (by omega),
          pieces_last (by omega) (by omega) (by omega), hchar _ (by omega)]
      · have hlow : (if v / 262144 % 8 = 0 then 0x90 else 0x80) ≤ v / 4096 % 0x40 + 0x80 := by
          split <;> omega
        have hhigh : v / 4096 % 0x40 + 0x80 ≤ if v / 262144 % 8 = 4 then 0x8f else 0xbf := by
          split <;> omega
        rw [List.cons_append, List.cons_append, List.cons_append, List.cons_append,
          List.nil_append, pieces_start (start_four (by omega)),
          pieces_next (by omega) hlow hhigh (by omega),
          pieces_next (by omega) (by omega) (by omega) (by omega),
          pieces_last (by omega) (by omega) (by omega), hchar _ (by omega)]

/-! ## Texts -/

theorem pieces_encodeChars (cs : List Char) : pieces (encodeChars cs) = cs.map .char := by
  unfold pieces
  induction cs with
  | nil => rfl
  | cons c cs ih =>
    show piecesFrom none (String.utf8EncodeChar c ++ encodeChars cs) = _
    rw [pieces_encodeChar, ih]
    rfl

theorem collect_chars (index : Nat) (cs : List Char) : collect index (cs.map .char) = .ok cs := by
  induction cs generalizing index with
  | nil => rfl
  | cons c cs ih =>
    show (collect _ (cs.map .char)).map _ = _
    rw [ih]
    rfl

theorem length_encode (s : String) : (encode s).length = s.utf8ByteSize := by
  rw [← String.size_toByteArray, ← String.utf8Encode_toList]
  unfold encode encodeChars List.utf8Encode
  simp

theorem decode_encode (s : String) : decode (encode s) = .ok s := by
  unfold decode encode
  rw [pieces_encodeChars, collect_chars]
  exact congrArg Except.ok (String.ofList_toList)

/-- Nothing has to be replaced in what was written. -/
theorem decodeLossy_encode (s : String) : decodeLossy (encode s) = s := by
  unfold decodeLossy encode
  rw [pieces_encodeChars, List.map_map]
  show String.ofList (s.toList.map id) = s
  rw [List.map_id, String.ofList_toList]

end LeaseLock.Utf8

namespace LeaseLock.Wire

/-- The message of a response that reports an error. -/
theorem Response.message_error (id status : UInt32) (message : String) :
    (Response.error id status message).message = message := Utf8.decodeLossy_encode message

end LeaseLock.Wire
