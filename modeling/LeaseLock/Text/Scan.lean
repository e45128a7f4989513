/-
  LeaseLock: reading text from its front.
  A scanner takes something off the front of a text and returns the rest.  A numeral is a whole run
  of digits: it is never cut short to make it fit.
-/

namespace LeaseLock

/-- What taking something off the front of a text gives: the thing and the rest. -/
abbrev Scan (α : Type) := List Char → Option (α × List Char)

namespace Scan

/-- Take this character. -/
def char (c : Char) : Scan Unit
  | [] => none
  | d :: rest => if d = c then some ((), rest) else none

/-- Whether a character is one of the ten digits. -/
def isDecimal (c : Char) : Bool := '0' ≤ c && c ≤ '9'

/-- Whether a character is a hexadecimal digit, in either case. -/
def isHex (c : Char) : Bool := isDecimal c || ('a' ≤ c && c ≤ 'f') || ('A' ≤ c && c ≤ 'F')

/-- What a hexadecimal digit stands for. -/
def digitValue (c : Char) : Nat :=
  if isDecimal c then c.toNat - '0'.toNat
  else if 'a' ≤ c then c.toNat - 'a'.toNat + 10
  else c.toNat - 'A'.toNat + 10

/-- What digits stand for, most significant first. -/
def valueOf (radix : Nat) (digits : List Char) : Nat :=
  digits.foldl (fun n c => n * radix + digitValue c) 0

/-- Take the whole run of digits of a class, if it is not empty and passes a test. -/
def run (isDigit : Char → Bool) (ok : List Char → Bool) : Scan (List Char) := fun s =>
  let digits := s.takeWhile isDigit
  if digits.isEmpty || !ok digits then none else some (digits, s.dropWhile isDigit)

/-- Take a decimal numeral below a limit. -/
def decimal (limit : Nat) : Scan Nat := fun s =>
  (run isDecimal (fun ds => valueOf 10 ds < limit) s).map fun (ds, rest) => (valueOf 10 ds, rest)

/-- The value of a text that is nothing but what a scanner takes. -/
def whole {α : Type} (scan : Scan α) (s : String) : Option α :=
  match scan s.toList with
  | some (a, []) => some a
  | _ => none

theorem run_append {isDigit : Char → Bool} {ok : List Char → Bool} {s digits rest : List Char}
    (h : run isDigit ok s = some (digits, rest)) : s = digits ++ rest := by
  simp only [run] at h
  split at h
  · simp at h
  · obtain ⟨rfl, rfl⟩ := Prod.mk.inj (Option.some.inj h)
    exact List.takeWhile_append_dropWhile.symm

theorem decimal_lt {limit n : Nat} {s rest : List Char} (h : decimal limit s = some (n, rest)) :
    n < limit := by
  obtain ⟨⟨ds, r⟩, hrun, heq⟩ := Option.map_eq_some_iff.1 h
  obtain ⟨rfl, rfl⟩ := Prod.mk.inj heq
  simp only [run] at hrun
  split at hrun
  · simp at hrun
  · rename_i hok
    obtain ⟨rfl, rfl⟩ := Prod.mk.inj (Option.some.inj hrun)
    simp at hok
    exact hok.2

end Scan

end LeaseLock
