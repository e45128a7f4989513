/-
  LeaseLock: byte strings and little-endian integers.
  `leBytes w n` are the `w` low bytes of `n`, least significant first, and `leValue` reads them
  back; `beBytes` is the same with the most significant byte first.  The fixed widths that the
  wire uses (8, 16, 32 and 64 bits) are wrappers.
-/

namespace LeaseLock

/-- A byte string. -/
abbrev Bytes := List UInt8

/-- The number of values that `w` bytes can take. -/
def byteSpan : Nat → Nat
  | 0 => 1
  | w + 1 => 256 * byteSpan w

/-! ## Little-endian integers -/

/-- The `w` low bytes of `n`, least significant first; higher bytes are dropped. -/
def leBytes : Nat → Nat → Bytes
  | 0, _ => []
  | w + 1, n => UInt8.ofNat n :: leBytes w (n / 256)

/-- The number whose bytes these are, least significant first. -/
def leValue : Bytes → Nat
  | [] => 0
  | b :: rest => b.toNat + 256 * leValue rest

@[simp] theorem length_leBytes (w n : Nat) : (leBytes w n).length = w := by
  induction w generalizing n with
  | zero => rfl
  | succ w ih => simp [leBytes, ih]

theorem leValue_leBytes (w n : Nat) : leValue (leBytes w n) = n % byteSpan w := by
  induction w generalizing n with
  | zero => simp [leBytes, leValue, byteSpan, Nat.mod_one]
  | succ w ih =>
    rw [leBytes, leValue, ih, byteSpan, Nat.mod_mul]
    simp

theorem leValue_leBytes_of_lt {w n : Nat} (h : n < byteSpan w) : leValue (leBytes w n) = n := by
  rw [leValue_leBytes, Nat.mod_eq_of_lt h]

theorem leValue_lt (l : Bytes) : leValue l < byteSpan l.length := by
  induction l with
  | nil => simp [leValue, byteSpan]
  | cons b rest ih =>
    rw [leValue, List.length_cons, byteSpan]
    have := b.toNat_lt
    omega

theorem leBytes_leValue (l : Bytes) : leBytes l.length (leValue l) = l := by
  induction l with
  | nil => rfl
  | cons b rest ih =>
    have hb := b.toNat_lt
    rw [List.length_cons, leBytes, leValue]
    congr 1
    · rw [UInt8.ofNat_add, UInt8.ofNat_toNat, UInt8.ofNat_mul]
      simp
    · rw [Nat.add_mul_div_left _ _ (by omega), Nat.div_eq_of_lt hb, Nat.zero_add, ih]

/-! ## The widths in use -/

/-- Two bytes, least significant first. -/
def encodeU16 (v : UInt16) : Bytes := leBytes 2 v.toNat

/-- Four bytes, least significant first. -/
def encodeU32 (v : UInt32) : Bytes := leBytes 4 v.toNat

/-- Eight bytes, least significant first. -/
def encodeU64 (v : UInt64) : Bytes := leBytes 8 v.toNat

@[simp] theorem length_encodeU16 (v : UInt16) : (encodeU16 v).length = 2 := length_leBytes ..

@[simp] theorem length_encodeU32 (v : UInt32) : (encodeU32 v).length = 4 := length_leBytes ..

@[simp] theorem length_encodeU64 (v : UInt64) : (encodeU64 v).length = 8 := length_leBytes ..

theorem leValue_encodeU16 (v : UInt16) : leValue (encodeU16 v) = v.toNat :=
  leValue_leBytes_of_lt v.toNat_lt

theorem leValue_encodeU32 (v : UInt32) : leValue (encodeU32 v) = v.toNat :=
  leValue_leBytes_of_lt v.toNat_lt

theorem leValue_encodeU64 (v : UInt64) : leValue (encodeU64 v) = v.toNat :=
  leValue_leBytes_of_lt v.toNat_lt

/-! ## Big-endian integers -/

/-- The `w` low bytes of `n`, most significant first. -/
def beBytes (w n : Nat) : Bytes := (leBytes w n).reverse

/-- The number whose bytes these are, most significant first. -/
def beValue (l : Bytes) : Nat := leValue l.reverse

theorem beValue_beBytes_of_lt {w n : Nat} (h : n < byteSpan w) : beValue (beBytes w n) = n := by
  rw [beValue, beBytes, List.reverse_reverse, leValue_leBytes_of_lt h]

theorem beBytes_beValue (l : Bytes) : beBytes l.length (beValue l) = l := by
  have := leBytes_leValue l.reverse
  rw [List.length_reverse] at this
  rw [beBytes, beValue, this, List.reverse_reverse]

@[simp] theorem length_beBytes (w n : Nat) : (beBytes w n).length = w := by
  simp [beBytes]

end LeaseLock
