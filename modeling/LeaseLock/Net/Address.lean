import LeaseLock.Fault
import LeaseLock.Text.Scan

/-
  LeaseLock: network addresses in text.
  An address is four octets or eight groups of sixteen bits, and a number that tells the services
  of that host apart.  Groups are written in hexadecimal; the first longest run of at least two
  zero groups is written as `::`; an address that stands for four octets ends in them.  Reading
  also takes other spellings of the groups, but octets without leading zeros only.
-/

namespace LeaseLock.Net

/-! ## Types -/

/-- Four octets. -/
structure Ipv4 where
  /-- The first octet. -/
  a : UInt8
  /-- The second octet. -/
  b : UInt8
  /-- The third octet. -/
  c : UInt8
  /-- The fourth octet. -/
  d : UInt8
deriving DecidableEq, Repr

/-- Eight groups of sixteen bits. -/
structure Ipv6 where
  /-- The groups. -/
  groups : List UInt16
  /-- There are eight of them. -/
  length_eq : groups.length = 8
deriving DecidableEq, Repr

/-- A place to connect to or to listen at. -/
inductive Address where
  /-- Octets and the number of a service. -/
  | v4 (ip : Ipv4) (service : UInt16)
  /-- Groups, the number of a scope (zero for none) and the number of a service. -/
  | v6 (ip : Ipv6) (scope : UInt32) (service : UInt16)
deriving DecidableEq, Repr

/-! ## Writing -/

/-- The two groups that octets fill. -/
def Ipv4.groups (ip : Ipv4) : List UInt16 :=
  [ip.a.toUInt16 * 256 + ip.b.toUInt16, ip.c.toUInt16 * 256 + ip.d.toUInt16]

/-- The text of octets. -/
def Ipv4.text (ip : Ipv4) : String :=
  ".".intercalate ([ip.a, ip.b, ip.c, ip.d].map fun octet => toString octet.toNat)

/-- The octets that the last two groups hold. -/
def octetsOf (g h : UInt16) : Ipv4 := ⟨(g / 256).toUInt8, g.toUInt8, (h / 256).toUInt8, h.toUInt8⟩

/-- The text of groups. -/
def groupsText (groups : List UInt16) : String :=
  ":".intercalate (groups.map fun g => .ofList (Nat.toDigits 16 g.toNat))

/-- The length of the run of zeros at the front. -/
def leadingZeros (groups : List UInt16) : Nat := (groups.takeWhile (· == 0)).length

/-- The start and the length of the first longest run of zeros, counted from `i`. -/
def longestZeros (i : Nat) : List UInt16 → Nat × Nat
  | [] => (i, 0)
  | g :: rest =>
    let n := leadingZeros (g :: rest)
    let (start, m) := longestZeros (i + 1) rest
    if m ≤ n then (i, n) else (start, m)

/-- The text of an address of eight groups. -/
def Ipv6.text (ip : Ipv6) : String :=
  match ip.groups with
  | [0, 0, 0, 0, 0, 0xffff, g, h] => "::ffff:" ++ (octetsOf g h).text
  | groups =>
    let (start, n) := longestZeros 0 groups
    if n < 2 then groupsText groups
    else groupsText (groups.take start) ++ "::" ++ groupsText (groups.drop (start + n))

/-- The text of an address. -/
def Address.text : Address → String
  | .v4 ip service => s!"{ip.text}:{service.toNat}"
  | .v6 ip scope service =>
    let zone := if scope = 0 then "" else s!"%{scope.toNat}"
    s!"[{ip.text}{zone}]:{service.toNat}"

/-! ## Reading -/

open Scan

/-- Take an octet: up to three digits without a leading zero. -/
def octet : Scan UInt8 := fun s =>
  (run isDecimal
    (fun ds => ds.length ≤ 3 && (ds.head? != some '0' || ds.length == 1) && valueOf 10 ds < 256)
    s).map fun (ds, rest) => (UInt8.ofNat (valueOf 10 ds), rest)

/-- Take four octets. -/
def ipv4 : Scan Ipv4 := fun s => do
  let (a, s) ← octet s
  let (_, s) ← char '.' s
  let (b, s) ← octet s
  let (_, s) ← char '.' s
  let (c, s) ← octet s
  let (_, s) ← char '.' s
  let (d, s) ← octet s
  return (⟨a, b, c, d⟩, s)

/-- Take a group: up to four hexadecimal digits. -/
def group : Scan UInt16 := fun s =>
  (run isHex (fun ds => ds.length ≤ 4) s).map fun (ds, rest) =>
    (UInt16.ofNat (valueOf 16 ds), rest)

/-- Take what stands behind a colon, which the first of a row does without. -/
def separated {α : Type} (first : Bool) (scan : Scan α) : Scan α := fun s =>
  if first then scan s
  else do
    let (_, s) ← char ':' s
    scan s

/-- Take at most `room` groups in a row; the last two may be written as octets, which ends the
row.  Tells whether it did. -/
def groupRow (first : Bool) : Nat → List Char → (List UInt16 × Bool) × List Char
  | 0, s => (([], false), s)
  | room + 1, s =>
    match if room = 0 then none else separated first ipv4 s with
    | some (ip, s) => ((ip.groups, true), s)
    | none =>
      match separated first group s with
      | none => (([], false), s)
      | some (g, s) =>
        let ((groups, octets), s) := groupRow false room s
        ((g :: groups, octets), s)

/-- An address with zeros between its first and its last groups. -/
def Ipv6.ofEnds? (front back : List UInt16) : Option Ipv6 :=
  if h : front.length + back.length ≤ 8 then
    some ⟨front ++ List.replicate (8 - (front.length + back.length)) 0 ++ back, by simp; omega⟩
  else none

/-- Take eight groups, or fewer with `::` for at least one group of zeros. -/
def ipv6 : Scan Ipv6 := fun s =>
  let ((front, octets), s) := groupRow true 8 s
  if front.length = 8 then (Ipv6.ofEnds? front []).map fun ip => (ip, s)
  else if octets then none
  else do
    let (_, s) ← char ':' s
    let (_, s) ← char ':' s
    let ((back, _), s) := groupRow true (7 - front.length) s
    let ip ← Ipv6.ofEnds? front back
    return (ip, s)

/-- Take the number of a scope, which a percent sign precedes; there may be none. -/
def scope : List Char → UInt32 × List Char := fun s =>
  match char '%' s >>= fun (_, s) => decimal (byteSpan 4) s with
  | some (n, s) => (UInt32.ofNat n, s)
  | none => (0, s)

/-- Take the number of a service, which a colon precedes. -/
def service : Scan UInt16 := fun s => do
  let (_, s) ← char ':' s
  let (n, s) ← decimal (byteSpan 2) s
  return (UInt16.ofNat n, s)

/-- Take octets and the number of a service. -/
def addressV4 : Scan Address := fun s => do
  let (ip, s) ← ipv4 s
  let (n, s) ← service s
  return (.v4 ip n, s)

/-- Take groups in brackets and the number of a service. -/
def addressV6 : Scan Address := fun s => do
  let (_, s) ← char '[' s
  let (ip, s) ← ipv6 s
  let (zone, s) := scope s
  let (_, s) ← char ']' s
  let (n, s) ← service s
  return (.v6 ip zone n, s)

/-- Take an address. -/
def address : Scan Address := fun s => addressV4 s <|> addressV6 s

/-- The address that a text is. -/
def Address.ofText? (text : String) : Option Address := whole address text

end LeaseLock.Net
