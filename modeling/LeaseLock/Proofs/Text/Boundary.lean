import LeaseLock.Proofs.Text.Utf8

/-
  LeaseLock: where a text is cut.
  A text can be cut between two characters, and the bytes tell where that is: a character has one
  byte that continues none and then only bytes that continue it (`isBoundary_encodeChars`).  So the
  longest prefix of whole characters within a limit (`prefix_prefixWithin`) is found in the bytes
  alone, by stepping back from the limit (`boundaryBefore_encodeChars`).
-/

namespace LeaseLock.Utf8

variable {cs front : List Char} {limit : Nat}

/-! ## Prefixes of whole characters -/

theorem prefixWithin_prefix (limit : Nat) (cs : List Char) : prefixWithin limit cs <+: cs := by
  induction cs generalizing limit with
  | nil => exact List.nil_prefix
  | cons c cs ih =>
    rw [prefixWithin]
    split
    · exact List.cons_prefix_cons.2 ⟨rfl, ih _⟩
    · exact List.nil_prefix

/-- Every prefix that fits is a prefix of the one that is kept. -/
theorem prefix_prefixWithin (h : front <+: cs) (hfits : size front ≤ limit) :
    front <+: prefixWithin limit cs := by
  induction cs generalizing front limit with
  | nil => rw [List.prefix_nil.1 h]; exact List.nil_prefix
  | cons c cs ih =>
    cases front with
    | nil => exact List.nil_prefix
    | cons d front =>
      obtain ⟨rfl, hfront⟩ := List.cons_prefix_cons.1 h
      rw [size] at hfits
      rw [prefixWithin, if_pos (by omega)]
      exact List.cons_prefix_cons.2 ⟨rfl, ih hfront (by omega)⟩

theorem size_le_of_prefix {front cs : List Char} (h : front <+: cs) : size front ≤ size cs := by
  obtain ⟨rest, rfl⟩ := h
  rw [← length_encodeChars, ← length_encodeChars, encodeChars_append, List.length_append]
  omega

theorem size_prefixWithin_le (limit : Nat) (cs : List Char) :
    size (prefixWithin limit cs) ≤ limit := by
  rw [← length_encodeChars]
  exact length_encodeChars_prefixWithin limit cs

/-- The bytes of a prefix are the first bytes of the text. -/
theorem take_encodeChars (h : front <+: cs) :
    (encodeChars cs).take (size front) = encodeChars front := by
  obtain ⟨rest, rfl⟩ := h
  rw [encodeChars_append, ← length_encodeChars, List.take_left']
  rfl

/-! ## Boundaries between characters -/

/-- Whether a byte continues a character that another has begun. -/
def continues (b : UInt8) : Bool := 0x80 ≤ b.toNat && b.toNat ≤ 0xbf

/-- Whether position `i` parts no character: it is one of the two ends, or the byte there
continues none. -/
def isBoundary (bytes : Bytes) (i : Nat) : Bool :=
  i == 0 || match bytes[i]? with
    | none => i == bytes.length
    | some b => !continues b

/-- The last boundary up to a position, found by stepping back. -/
def boundaryBefore (bytes : Bytes) : Nat → Nat
  | 0 => 0
  | i + 1 => if isBoundary bytes (i + 1) then i + 1 else boundaryBefore bytes i

theorem boundaryBefore_le (bytes : Bytes) (i : Nat) : boundaryBefore bytes i ≤ i := by
  induction i with
  | zero => exact Nat.le_refl 0
  | succ i ih =>
    rw [boundaryBefore]
    split <;> omega

theorem isBoundary_boundaryBefore (bytes : Bytes) (i : Nat) :
    isBoundary bytes (boundaryBefore bytes i) = true := by
  induction i with
  | zero => rfl
  | succ i ih =>
    rw [boundaryBefore]
    split
    · assumption
    · exact ih

theorem le_boundaryBefore {bytes : Bytes} {i j : Nat} (h : isBoundary bytes j = true)
    (hle : j ≤ i) : j ≤ boundaryBefore bytes i := by
  induction i with
  | zero => exact hle
  | succ i ih =>
    rw [boundaryBefore]
    split
    · exact hle
    · rename_i hnot
      have hne : j ≠ i + 1 := by
        rintro rfl
        exact hnot h
      exact ih (by omega)

theorem continues_ofNat {n : Nat} (h : n < 256) :
    continues (UInt8.ofNat n) = (0x80 ≤ n && n ≤ 0xbf) := by
  rw [continues, toNat_byte h]

/-- A character is one byte that continues none and then bytes that continue it. -/
theorem encodeChar_shape (c : Char) :
    ∃ b tail, String.utf8EncodeChar c = b :: tail ∧ continues b = false ∧
      ∀ x ∈ tail, continues x = true := by
  have hcont : ∀ n, continues (UInt8.ofNat (n % 0x40 + 0x80)) = true := fun n => by
    rw [continues_ofNat (by omega), Bool.and_eq_true, decide_eq_true_iff, decide_eq_true_iff]
    omega
  have hstart : ∀ n, n < 256 → n < 0x80 ∨ 0xbf < n → continues (UInt8.ofNat n) = false := by
    intro n hn h
    rw [continues_ofNat hn, Bool.and_eq_false_iff, decide_eq_false_iff_not,
      decide_eq_false_iff_not]
    omega
  have hnil : ∀ x ∈ ([] : Bytes), continues x = true := fun _ hx => absurd hx List.not_mem_nil
  have hbound : c.val.toNat < 0x110000 := by
    have hvalid : c.val.toNat < 0xd800 ∨ 0xdfff < c.val.toNat ∧ c.val.toNat < 0x110000 := c.valid
    omega
  unfold String.utf8EncodeChar
  dsimp only
  generalize c.val.toNat = v at hbound ⊢
  split
  · exact ⟨_, _, rfl, hstart _ (by omega) (by omega), hnil⟩
  · split
    · exact ⟨_, _, rfl, hstart _ (by omega) (by omega),
          List.forall_mem_cons.2 ⟨hcont _, hnil⟩⟩
    · split
      · exact ⟨_, _, rfl, hstart _ (by omega) (by omega),
          List.forall_mem_cons.2 ⟨hcont _, List.forall_mem_cons.2 ⟨hcont _, hnil⟩⟩⟩
      · exact ⟨_, _, rfl, hstart _ (by omega) (by omega),
          List.forall_mem_cons.2 ⟨hcont _, List.forall_mem_cons.2 ⟨hcont _,
            List.forall_mem_cons.2 ⟨hcont _, hnil⟩⟩⟩⟩

/-- A text begins with no byte that continues a character. -/
theorem isBoundary_append_encodeChars (front : Bytes) (cs : List Char) :
    isBoundary (front ++ encodeChars cs) front.length = true := by
  unfold isBoundary
  rw [List.getElem?_append_right (Nat.le_refl _), Nat.sub_self]
  cases cs with
  | nil => simp [encodeChars]
  | cons c cs =>
    obtain ⟨b, tail, hc, hb, -⟩ := encodeChar_shape c
    have hfirst : (encodeChars (c :: cs))[0]? = some b := by
      simp [encodeChars, hc]
    simp [hfirst, hb]

/-- Inside a character there is no boundary. -/
theorem isBoundary_encodeChar_append {c : Char} {i : Nat} (hpos : 0 < i) (h : i < c.utf8Size)
    (rest : Bytes) : isBoundary (String.utf8EncodeChar c ++ rest) i = false := by
  obtain ⟨b, tail, hc, -, htail⟩ := encodeChar_shape c
  have hlength : (b :: tail).length = c.utf8Size := by
    rw [← hc, String.length_utf8EncodeChar]
  obtain ⟨j, rfl⟩ : ∃ j, i = j + 1 := ⟨i - 1, by omega⟩
  have hj : j < tail.length := by
    rw [List.length_cons] at hlength
    omega
  unfold isBoundary
  rw [hc, List.cons_append, List.getElem?_cons_succ, List.getElem?_append_left hj,
    List.getElem?_eq_getElem hj]
  simp [htail _ (List.getElem_mem hj)]

/-- A boundary behind a part of a byte string is a boundary of the rest. -/
theorem isBoundary_of_append {front rest : Bytes} {j : Nat}
    (h : isBoundary (front ++ rest) (front.length + j) = true) : isBoundary rest j = true := by
  cases j with
  | zero => rfl
  | succ j =>
    unfold isBoundary at h ⊢
    rw [List.getElem?_append_right (by omega), Nat.add_sub_cancel_left, List.length_append] at h
    cases hget : rest[j + 1]? with
    | none =>
      rw [hget] at h
      simp only [Bool.or_eq_true, beq_iff_eq] at h ⊢
      omega
    | some b =>
      rw [hget] at h
      simp only [Bool.or_eq_true, beq_iff_eq] at h ⊢
      exact h.imp (fun hzero => by omega) id

/-- The boundaries of a text are the ends of its prefixes. -/
theorem isBoundary_encodeChars {i : Nat} :
    isBoundary (encodeChars cs) i = true ↔ ∃ front, front <+: cs ∧ size front = i := by
  constructor
  · intro h
    induction cs generalizing i with
    | nil =>
      refine ⟨[], List.nil_prefix, ?_⟩
      have hend : i = 0 ∨ i = 0 := by
        simpa only [isBoundary, encodeChars, List.flatMap_nil, List.getElem?_nil, List.length_nil,
          Bool.or_eq_true, beq_iff_eq] using h
      exact (hend.elim id id).symm
    | cons c cs ih =>
      by_cases hzero : i = 0
      · exact ⟨[], List.nil_prefix, hzero.symm⟩
      have hsplit : encodeChars (c :: cs) = String.utf8EncodeChar c ++ encodeChars cs := rfl
      rw [hsplit] at h
      have hsize : c.utf8Size ≤ i := by
        refine Nat.le_of_not_lt fun hlt => ?_
        rw [isBoundary_encodeChar_append (by omega) hlt] at h
        cases h
      obtain ⟨j, rfl⟩ : ∃ j, i = (String.utf8EncodeChar c).length + j :=
        ⟨i - c.utf8Size, by rw [String.length_utf8EncodeChar]; omega⟩
      obtain ⟨front, hfront, rfl⟩ := ih (isBoundary_of_append h)
      refine ⟨c :: front, List.cons_prefix_cons.2 ⟨rfl, hfront⟩, ?_⟩
      rw [size, String.length_utf8EncodeChar]
  · rintro ⟨front, ⟨rest, rfl⟩, rfl⟩
    rw [encodeChars_append, ← length_encodeChars]
    exact isBoundary_append_encodeChars _ _

/-- Stepping back from a limit ends where the longest prefix within the limit ends. -/
theorem boundaryBefore_encodeChars (limit : Nat) (cs : List Char) :
    boundaryBefore (encodeChars cs) (min (encodeChars cs).length limit) =
      size (prefixWithin limit cs) := by
  have hprefix := prefixWithin_prefix limit cs
  refine Nat.le_antisymm ?_ (le_boundaryBefore (isBoundary_encodeChars.2 ⟨_, hprefix, rfl⟩) ?_)
  · obtain ⟨front, hfront, hsize⟩ :=
      isBoundary_encodeChars.1 (isBoundary_boundaryBefore (encodeChars cs)
        (min (encodeChars cs).length limit))
    have hle := boundaryBefore_le (encodeChars cs) (min (encodeChars cs).length limit)
    rw [← hsize] at hle ⊢
    exact size_le_of_prefix (prefix_prefixWithin hfront (by omega))
  · rw [length_encodeChars]
    have hwhole := size_le_of_prefix hprefix
    have hlimit := size_prefixWithin_le limit cs
    omega

end LeaseLock.Utf8
