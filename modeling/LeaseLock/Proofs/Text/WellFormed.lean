import LeaseLock.Proofs.Text.Utf8

/-
  LeaseLock: what is read as text is the UTF-8 form of that text.
  The converse of `Utf8.decode_encode`.  A byte string in which every piece is a character begins
  with the bytes of the first of them: the leading byte says how many must follow, and each that
  follows is taken off with the bounds that the reader has checked (`more_of_char`,
  `last_of_char`).  The bits collected that way are those that `encodeChar_two` and its like write
  back, so nothing overlong, no surrogate and nothing past the last character is ever read.
-/

namespace LeaseLock.Utf8

variable {bytes rest : Bytes} {cs : List Char} {ps : List Piece}

/-! ## Characters by their bits -/

theorem toNat_ofNat {v : Nat} (h : v < 0xd800 ∨ 0xdfff < v ∧ v < 0x110000) :
    (Char.ofNat v).val.toNat = v := by
  have hvalid : v.isValidChar := h
  unfold Char.ofNat
  rw [dif_pos hvalid]
  exact UInt32.toNat_ofNatLT

theorem encodeChar_one {v : Nat} (h : v ≤ 0x7f) :
    String.utf8EncodeChar (Char.ofNat v) = [UInt8.ofNat v] := by
  unfold String.utf8EncodeChar
  rw [toNat_ofNat (by omega)]
  exact if_pos h

theorem encodeChar_two {a b : Nat} (hlow : 2 ≤ a) (hhigh : a ≤ 0x1f) (hb : b < 64) :
    String.utf8EncodeChar (Char.ofNat (a * 64 + b)) =
      [UInt8.ofNat (a + 0xc0), UInt8.ofNat (b + 0x80)] := by
  unfold String.utf8EncodeChar
  rw [toNat_ofNat (by omega)]
  dsimp only
  rw [if_neg (by omega), if_pos (by omega), show (a * 64 + b) / 64 % 0x20 = a by omega,
    show (a * 64 + b) % 0x40 = b by omega]

theorem encodeChar_three {a b c : Nat} (ha : a ≤ 0xf) (hb : b < 64) (hc : c < 64)
    (hlow : a = 0 → 0x20 ≤ b) (hhigh : a = 0xd → b < 0x20) :
    String.utf8EncodeChar (Char.ofNat ((a * 64 + b) * 64 + c)) =
      [UInt8.ofNat (a + 0xe0), UInt8.ofNat (b + 0x80), UInt8.ofNat (c + 0x80)] := by
  unfold String.utf8EncodeChar
  rw [toNat_ofNat (by omega)]
  dsimp only
  rw [if_neg (by omega), if_neg (by omega), if_pos (by omega),
    show ((a * 64 + b) * 64 + c) / 4096 % 0x10 = a by omega,
    show ((a * 64 + b) * 64 + c) / 64 % 0x40 = b by omega,
    show ((a * 64 + b) * 64 + c) % 0x40 = c by omega]

theorem encodeChar_four {a b c d : Nat} (ha : a ≤ 4) (hb : b < 64) (hc : c < 64) (hd : d < 64)
    (hlow : a = 0 → 0x10 ≤ b) (hhigh : a = 4 → b < 0x10) :
    String.utf8EncodeChar (Char.ofNat (((a * 64 + b) * 64 + c) * 64 + d)) =
      [UInt8.ofNat (a + 0xf0), UInt8.ofNat (b + 0x80), UInt8.ofNat (c + 0x80),
        UInt8.ofNat (d + 0x80)] := by
  unfold String.utf8EncodeChar
  rw [toNat_ofNat (by omega)]
  dsimp only
  rw [if_neg (by omega), if_neg (by omega), if_neg (by omega),
    show (((a * 64 + b) * 64 + c) * 64 + d) / 262144 % 8 = a by omega,
    show (((a * 64 + b) * 64 + c) * 64 + d) / 4096 % 0x40 = b by omega,
    show (((a * 64 + b) * 64 + c) * 64 + d) / 64 % 0x40 = c by omega,
    show (((a * 64 + b) * 64 + c) * 64 + d) % 0x40 = d by omega]

/-! ## Bytes in the middle of a sequence -/

/-- Inside a sequence that comes to a character, one more byte stands within the bounds. -/
theorem next_of_char {p : Partial} {c : Char} (hlow : 0x80 ≤ p.low) (hhigh : p.high ≤ 0xbf)
    (h : piecesFrom (some p) bytes = .char c :: ps) :
    ∃ n rest, n < 64 ∧ p.low ≤ n + 0x80 ∧ n + 0x80 ≤ p.high ∧
      bytes = UInt8.ofNat (n + 0x80) :: rest := by
  cases bytes with
  | nil => cases h
  | cons b rest =>
    rw [piecesFrom] at h
    split at h
    · rename_i hb
      exact ⟨b.toNat - 0x80, rest, by omega, by omega, by omega,
        by rw [Nat.sub_add_cancel (by omega), UInt8.ofNat_toNat]⟩
    · cases h

theorem more_of_char {code taken left low high : Nat} {c : Char} (hlow : 0x80 ≤ low)
    (hhigh : high ≤ 0xbf) (hleft : 1 < left)
    (h : piecesFrom (some ⟨code, taken, left, low, high⟩) bytes = .char c :: ps) :
    ∃ n rest, n < 64 ∧ low ≤ n + 0x80 ∧ n + 0x80 ≤ high ∧
      bytes = UInt8.ofNat (n + 0x80) :: rest ∧
      piecesFrom (some ⟨code * 64 + n, taken + 1, left - 1, 0x80, 0xbf⟩) rest = .char c :: ps := by
  obtain ⟨n, rest, hn, hl, hh, rfl⟩ := next_of_char hlow hhigh h
  rw [pieces_next hn hl hh hleft] at h
  exact ⟨n, rest, hn, hl, hh, rfl, h⟩

theorem last_of_char {code taken low high : Nat} {c : Char} (hlow : 0x80 ≤ low)
    (hhigh : high ≤ 0xbf)
    (h : piecesFrom (some ⟨code, taken, 1, low, high⟩) bytes = .char c :: ps) :
    ∃ n rest, n < 64 ∧ low ≤ n + 0x80 ∧ n + 0x80 ≤ high ∧
      bytes = UInt8.ofNat (n + 0x80) :: rest ∧ c = Char.ofNat (code * 64 + n) ∧
      piecesFrom none rest = ps := by
  obtain ⟨n, rest, hn, hl, hh, rfl⟩ := next_of_char hlow hhigh h
  rw [pieces_last hn hl hh] at h
  obtain ⟨hc, hrest⟩ := List.cons.inj h
  exact ⟨n, rest, hn, hl, hh, rfl, (Piece.char.inj hc).symm, hrest⟩

/-! ## Whole characters -/

/-- A byte that begins nothing. -/
theorem start_none {b : UInt8} (h : 0x80 ≤ b.toNat ∧ b.toNat < 0xc2 ∨ 0xf4 < b.toNat) :
    start b = .inl (.invalid 1) := by
  unfold start
  dsimp only
  rw [if_neg (by omega), if_neg (by omega), if_neg (by omega), if_neg (by omega),
    if_neg (by omega), if_neg (by omega), if_neg (by omega), if_neg (by omega)]

/-- What a byte begins: a character of its own, a sequence of two, three or four bytes, or
nothing. -/
theorem start_cases (b : UInt8) :
    (∃ n, n ≤ 0x7f ∧ b = UInt8.ofNat n) ∨
    (∃ n, 2 ≤ n ∧ n ≤ 0x1f ∧ b = UInt8.ofNat (n + 0xc0)) ∨
    (∃ n, n ≤ 0xf ∧ b = UInt8.ofNat (n + 0xe0)) ∨
    (∃ n, n ≤ 4 ∧ b = UInt8.ofNat (n + 0xf0)) ∨ start b = .inl (.invalid 1) := by
  have hwrite : ∀ k, k ≤ b.toNat → b = UInt8.ofNat (b.toNat - k + k) := fun k hk => by
    rw [Nat.sub_add_cancel hk, UInt8.ofNat_toNat]
  by_cases hone : b.toNat ≤ 0x7f
  · exact .inl ⟨b.toNat, hone, UInt8.ofNat_toNat.symm⟩
  by_cases htwo : 0xc2 ≤ b.toNat ∧ b.toNat ≤ 0xdf
  · exact .inr (.inl ⟨b.toNat - 0xc0, by omega, by omega, hwrite 0xc0 (by omega)⟩)
  by_cases hthree : 0xe0 ≤ b.toNat ∧ b.toNat ≤ 0xef
  · exact .inr (.inr (.inl ⟨b.toNat - 0xe0, by omega, hwrite 0xe0 (by omega)⟩))
  by_cases hfour : 0xf0 ≤ b.toNat ∧ b.toNat ≤ 0xf4
  · exact .inr (.inr (.inr (.inl ⟨b.toNat - 0xf0, by omega, hwrite 0xf0 (by omega)⟩)))
  exact .inr (.inr (.inr (.inr (start_none (by omega)))))

/-- A byte string whose first piece is a character begins with the bytes of that character. -/
theorem first_of_char {c : Char} (h : piecesFrom none bytes = .char c :: ps) :
    ∃ rest, bytes = String.utf8EncodeChar c ++ rest ∧ piecesFrom none rest = ps := by
  obtain ⟨b, bytes, rfl⟩ : ∃ b rest, bytes = b :: rest := by
    cases bytes with
    | nil => cases h
    | cons b rest => exact ⟨b, rest, rfl⟩
  obtain ⟨a, ha, rfl⟩ | ⟨a, hlow, hhigh, rfl⟩ | ⟨a, ha, rfl⟩ | ⟨a, ha, rfl⟩ | hnone :=
    start_cases b
  · rw [piecesFrom, start_one ha] at h
    obtain ⟨hc, hrest⟩ := List.cons.inj h
    rw [← Piece.char.inj hc]
    exact ⟨bytes, by rw [encodeChar_one ha]; rfl, hrest⟩
  · rw [pieces_start (start_two hlow hhigh)] at h
    obtain ⟨n, rest, hn, -, -, rfl, rfl, hrest⟩ := last_of_char (by omega) (by omega) h
    exact ⟨rest, by rw [encodeChar_two hlow hhigh hn]; rfl, hrest⟩
  · rw [pieces_start (start_three ha)] at h
    obtain ⟨n, rest, hn, hl, hh, rfl, hmore⟩ :=
      more_of_char (by split <;> omega) (by split <;> omega) (by omega) h
    obtain ⟨m, rest, hm, -, -, rfl, rfl, hrest⟩ := last_of_char (by omega) (by omega) hmore
    refine ⟨rest, ?_, hrest⟩
    rw [encodeChar_three ha hn hm (fun hzero => by rw [if_pos hzero] at hl; omega)
      (fun hd => by rw [if_pos hd] at hh; omega)]
    rfl
  · rw [pieces_start (start_four ha)] at h
    obtain ⟨n, rest, hn, hl, hh, rfl, hsecond⟩ :=
      more_of_char (by split <;> omega) (by split <;> omega) (by omega) h
    obtain ⟨m, rest, hm, -, -, rfl, hthird⟩ :=
      more_of_char (by omega) (by omega) (by omega) hsecond
    obtain ⟨k, rest, hk, -, -, rfl, rfl, hrest⟩ := last_of_char (by omega) (by omega) hthird
    refine ⟨rest, ?_, hrest⟩
    rw [encodeChar_four ha hn hm hk (fun hzero => by rw [if_pos hzero] at hl; omega)
      (fun hfour => by rw [if_pos hfour] at hh; omega)]
    rfl
  · rw [piecesFrom, hnone] at h
    cases h

/-- Only nothing has no pieces. -/
theorem piecesFrom_ne_nil (p : Partial) (bytes : Bytes) : piecesFrom (some p) bytes ≠ [] := by
  induction bytes generalizing p with
  | nil => exact List.cons_ne_nil _ _
  | cons b bytes ih =>
    rw [piecesFrom]
    split
    · dsimp only
      split
      · exact List.cons_ne_nil _ _
      · exact ih _
    · exact List.cons_ne_nil _ _

theorem eq_nil_of_pieces (h : piecesFrom none bytes = []) : bytes = [] := by
  cases bytes with
  | nil => rfl
  | cons b bytes =>
    rw [piecesFrom] at h
    cases hstart : start b with
    | inl piece =>
      rw [hstart] at h
      cases h
    | inr p =>
      rw [hstart] at h
      exact absurd h (piecesFrom_ne_nil p bytes)

/-! ## Texts -/

theorem eq_encodeChars_of_pieces (h : piecesFrom none bytes = cs.map .char) :
    bytes = encodeChars cs := by
  induction cs generalizing bytes with
  | nil => exact eq_nil_of_pieces h
  | cons c cs ih =>
    obtain ⟨rest, hbytes, hrest⟩ := first_of_char h
    rw [hbytes, ih hrest]
    rfl

theorem pieces_of_collect {index : Nat} (h : collect index ps = .ok cs) :
    ps = cs.map .char := by
  induction ps generalizing index cs with
  | nil => cases h; rfl
  | cons piece ps ih =>
    cases piece with
    | char c =>
      rw [collect] at h
      cases hrest : collect (index + c.utf8Size) ps with
      | error flaw => rw [hrest] at h; cases h
      | ok ds =>
        rw [hrest] at h
        obtain rfl := Except.ok.inj h
        rw [ih hrest]
        rfl
    | invalid | cut => cases h

/-- A byte string is read as a text exactly if it is the UTF-8 form of that text. -/
theorem decode_eq_ok_iff {text : String} : decode bytes = .ok text ↔ bytes = encode text := by
  constructor
  · intro h
    unfold decode at h
    cases hread : collect 0 (pieces bytes) with
    | error flaw => rw [hread] at h; cases h
    | ok cs =>
      rw [hread] at h
      obtain rfl := Except.ok.inj h
      rw [encode, String.toList_ofList]
      exact eq_encodeChars_of_pieces (pieces_of_collect hread)
  · rintro rfl
    exact decode_encode text

/-! ## Flaws -/

/-- A part that is no character is no longer than what there is. -/
theorem le_of_invalid {p : Partial} {length : Nat}
    (h : piecesFrom (some p) bytes = .invalid length :: ps) : length ≤ p.taken + bytes.length := by
  induction bytes generalizing p with
  | nil => cases h
  | cons b bytes ih =>
    rw [piecesFrom] at h
    split at h
    · dsimp only at h
      split at h
      · cases h
      · have hle : length ≤ p.taken + 1 + bytes.length := ih h
        rw [List.length_cons]
        omega
    · obtain ⟨hlength, -⟩ := List.cons.inj h
      rw [← Piece.invalid.inj hlength]
      exact Nat.le_add_right _ _

theorem le_of_first_invalid {length : Nat}
    (h : piecesFrom none bytes = .invalid length :: ps) : length ≤ bytes.length := by
  cases bytes with
  | nil => cases h
  | cons b bytes =>
    have hinside : ∀ {p : Partial}, p.taken = 1 →
        piecesFrom (some p) bytes = .invalid length :: ps → length ≤ (b :: bytes).length := by
      intro p hp hpieces
      have hle := le_of_invalid hpieces
      rw [List.length_cons]
      omega
    obtain ⟨a, ha, rfl⟩ | ⟨a, hlow, hhigh, rfl⟩ | ⟨a, ha, rfl⟩ | ⟨a, ha, rfl⟩ | hnone :=
      start_cases b
    · rw [piecesFrom, start_one ha] at h
      cases h
    · rw [pieces_start (start_two hlow hhigh)] at h
      exact hinside rfl h
    · rw [pieces_start (start_three ha)] at h
      exact hinside rfl h
    · rw [pieces_start (start_four ha)] at h
      exact hinside rfl h
    · rw [piecesFrom, hnone] at h
      obtain ⟨hlength, -⟩ := List.cons.inj h
      rw [← Piece.invalid.inj hlength]
      exact Nat.le_add_left 1 _

/-- A flaw stands behind characters that are well-formed, and inside the byte string. -/
theorem flaw_of_collect {index : Nat} {flaw : Flaw}
    (h : collect index (piecesFrom none bytes) = .error flaw) :
    ∃ cs rest, bytes = encodeChars cs ++ rest ∧
      ((∃ length, length ≤ rest.length ∧ flaw = .invalid length (index + size cs)) ∨
        flaw = .incomplete (index + size cs)) := by
  generalize hps : piecesFrom none bytes = ps at h
  induction ps generalizing bytes index with
  | nil => cases h
  | cons piece ps ih =>
    cases piece with
    | char c =>
      obtain ⟨tail, rfl, htail⟩ := first_of_char hps
      rw [collect] at h
      cases hrest : collect (index + c.utf8Size) ps with
      | ok cs => rw [hrest] at h; cases h
      | error other =>
        rw [hrest] at h
        obtain rfl := Except.error.inj h
        obtain ⟨cs, rest, rfl, hflaw⟩ := ih htail hrest
        refine ⟨c :: cs, rest, (List.append_assoc _ _ _).symm, ?_⟩
        rwa [size, ← Nat.add_assoc]
    | invalid length =>
      obtain rfl := Except.error.inj h
      exact ⟨[], bytes, rfl, .inl ⟨length, le_of_first_invalid hps, rfl⟩⟩
    | cut length =>
      obtain rfl := Except.error.inj h
      exact ⟨[], bytes, rfl, .inr rfl⟩

/-- What is no text is refused where the first text in it ends. -/
theorem flaw_of_decode {flaw : Flaw} (h : decode bytes = .error flaw) :
    ∃ text rest, bytes = encode text ++ rest ∧
      ((∃ length, length ≤ rest.length ∧ flaw = .invalid length (encode text).length) ∨
        flaw = .incomplete (encode text).length) := by
  unfold decode at h
  cases hread : collect 0 (pieces bytes) with
  | ok cs => rw [hread] at h; cases h
  | error other =>
    rw [hread] at h
    obtain rfl := Except.error.inj h
    obtain ⟨cs, rest, hbytes, hflaw⟩ := flaw_of_collect hread
    refine ⟨String.ofList cs, rest, ?_, ?_⟩
    · rw [encode, String.toList_ofList, hbytes]
    · rwa [encode, String.toList_ofList, length_encodeChars, ← Nat.zero_add (size cs)]

end LeaseLock.Utf8
