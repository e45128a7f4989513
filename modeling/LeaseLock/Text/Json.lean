import LeaseLock.Text.Scan
import LeaseLock.Text.Utf8

/-
  LeaseLock: reading JSON.
  A text is read as one value with blanks around it.  Nothing beyond the format is taken: no
  leading zeros, no bare control characters in strings, no halves of surrogate pairs.  Values can
  be nested in each other only so deep, and a number must not lie beyond the largest double.
-/

namespace LeaseLock

/-- A JSON value. -/
inductive JsonValue where
  /-- The value that stands for none. -/
  | null
  /-- Yes or no. -/
  | bool (b : Bool)
  /-- The number `mantissa` times ten to the power `exponent`. -/
  | number (mantissa exponent : Int)
  /-- A text. -/
  | string (text : String)
  /-- A sequence of values. -/
  | array (elements : List JsonValue)
  /-- Values by their names, in the order in which they were written. -/
  | object (members : List (String × JsonValue))

namespace JsonValue

/-- The depth at which a value is refused. -/
def depthLimit : Nat := 128

/-- What follows the blanks at the front. -/
def trim (s : List Char) : List Char :=
  s.dropWhile fun c => c = ' ' || c = '\t' || c = '\n' || c = '\r'

/-! ## Numbers -/

/-- Whether a positive number lies beyond the largest double, rounding included. -/
def isHuge (mantissa : Nat) (exponent : Int) : Bool :=
  let bound := Nat.pow 2 1024 - Nat.pow 2 970
  if mantissa = 0 then false
  else if 400 < exponent then true
  else if 0 ≤ exponent then bound ≤ mantissa * Nat.pow 10 exponent.toNat
  else if (Nat.toDigits 10 mantissa).length ≤ 300 + (-exponent).toNat then false
  else bound * Nat.pow 10 (-exponent).toNat ≤ mantissa

/-- The digits behind a decimal point; without a point there are none. -/
def fractionDigits : Scan (List Char)
  | '.' :: s => Scan.run Scan.isDecimal (fun _ => true) s
  | s => some ([], s)

/-- The power of ten behind an `e`; without one it is zero. -/
def exponentPart : Scan Int
  | c :: s =>
    if c = 'e' || c = 'E' then
      let (negative, s) := match s with
        | '-' :: s => (true, s)
        | '+' :: s => (false, s)
        | s => (false, s)
      (Scan.run Scan.isDecimal (fun _ => true) s).map fun (ds, s) =>
        let n : Int := Scan.valueOf 10 ds
        (if negative then -n else n, s)
    else some (0, c :: s)
  | [] => some (0, [])

/-- Take a number without its sign. -/
def unsigned (negative : Bool) : Scan JsonValue := fun s => do
  let (whole, s) ← Scan.run Scan.isDecimal (fun ds => ds.head? != some '0' || ds.length == 1) s
  let (part, s) ← fractionDigits s
  let (e, s) ← exponentPart s
  let mantissa := Scan.valueOf 10 (whole ++ part)
  let exponent := e - part.length
  if isHuge mantissa exponent then none
  else return (.number (if negative then -mantissa else mantissa) exponent, s)

/-! ## Strings -/

/-- The number that four hexadecimal digits stand for. -/
def unit (a b c d : Char) : Option Nat :=
  if [a, b, c, d].all Scan.isHex then some (Scan.valueOf 16 [a, b, c, d]) else none

/-- The character of an escape by one letter. -/
def unescape : Char → Option Char
  | '"' => some '"'
  | '\\' => some '\\'
  | '/' => some '/'
  | 'b' => some '\x08'
  | 'f' => some '\x0c'
  | 'n' => some '\n'
  | 'r' => some '\r'
  | 't' => some '\t'
  | _ => none

/-- The character that a pair of surrogates stands for. -/
def surrogates (high low : Nat) : Char :=
  Char.ofNat (0x10000 + (high - 0xd800) * 0x400 + (low - 0xdc00))

/-- Take the rest of a string, up to the quotation mark that ends it. -/
def stringRest : Scan (List Char)
  | [] => none
  | '"' :: s => some ([], s)
  | '\\' :: 'u' :: a :: b :: c :: d :: s => do
    let n ← unit a b c d
    if n < 0xd800 || 0xdfff < n then
      let (cs, s) ← stringRest s
      return (Char.ofNat n :: cs, s)
    else if 0xdc00 ≤ n then none
    else
      match s with
      | '\\' :: 'u' :: e :: f :: g :: h :: s => do
        let m ← unit e f g h
        if m < 0xdc00 || 0xdfff < m then none
        else
          let (cs, s) ← stringRest s
          return (surrogates n m :: cs, s)
      | _ => none
  | '\\' :: c :: s => do
    let c ← unescape c
    let (cs, s) ← stringRest s
    return (c :: cs, s)
  | c :: s =>
    if c.toNat < 0x20 || c = '\\' then none
    else do
      let (cs, s) ← stringRest s
      return (c :: cs, s)

/-! ## Values -/

/-- Take a given word. -/
def word (w : List Char) (value : JsonValue) : Scan JsonValue := fun s =>
  if w.isPrefixOf s then some (value, s.drop w.length) else none

mutual

/-- Take a value; `room` bounds the steps, `depth` the nesting. -/
def value (room depth : Nat) (s : List Char) : Option (JsonValue × List Char) :=
  match room with
  | 0 => none
  | room + 1 =>
    match trim s with
    | 'n' :: s => word ['u', 'l', 'l'] .null s
    | 't' :: s => word ['r', 'u', 'e'] (.bool true) s
    | 'f' :: s => word ['a', 'l', 's', 'e'] (.bool false) s
    | '"' :: s => (stringRest s).map fun (cs, s) => (.string (.ofList cs), s)
    | '[' :: s =>
      if depth ≤ 1 then none
      else
        match trim s with
        | ']' :: s => some (.array [], s)
        | s => (elements room (depth - 1) s).map fun (vs, s) => (.array vs, s)
    | '\x7b' :: s =>
      if depth ≤ 1 then none
      else
        match trim s with
        | '\x7d' :: s => some (.object [], s)
        | s => (members room (depth - 1) s).map fun (ms, s) => (.object ms, s)
    | '-' :: s => unsigned true s
    | s => unsigned false s

/-- Take elements up to the bracket that ends them. -/
def elements (room depth : Nat) (s : List Char) : Option (List JsonValue × List Char) :=
  match room with
  | 0 => none
  | room + 1 => do
    let (v, s) ← value room depth s
    match trim s with
    | ']' :: s => some ([v], s)
    | ',' :: s => do
      let (vs, s) ← elements room depth s
      return (v :: vs, s)
    | _ => none

/-- Take members up to the brace that ends them. -/
def members (room depth : Nat) (s : List Char) : Option (List (String × JsonValue) × List Char) :=
  match room with
  | 0 => none
  | room + 1 =>
    match trim s with
    | '"' :: s => do
      let (name, s) ← stringRest s
      let (_, s) ← Scan.char ':' (trim s)
      let (v, s) ← value room depth s
      match trim s with
      | '\x7d' :: s => some ([(.ofList name, v)], s)
      | ',' :: s => do
        let (ms, s) ← members room depth s
        return ((.ofList name, v) :: ms, s)
      | _ => none
    | _ => none

end

/-- The value that a text is. -/
def ofText? (s : String) : Option JsonValue :=
  let text := s.toList
  match value (text.length + 1) depthLimit text with
  | some (v, rest) => if (trim rest).isEmpty then some v else none
  | none => none

/-- The value that a byte string is the text of. -/
def ofBytes? (bytes : Bytes) : Option JsonValue :=
  match Utf8.decode bytes with
  | .ok text => ofText? text
  | .error _ => none

end JsonValue

end LeaseLock
