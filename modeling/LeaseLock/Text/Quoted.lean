/-
  LeaseLock: quoted text in JSON.
  A quotation mark, a backslash and the control characters below the blank are escaped, five of
  the latter by a letter; every other character stands for itself.
-/

namespace LeaseLock.Quoted

/-- The written form of a character inside quotation marks. -/
def escape (c : Char) : List Char :=
  if c = '"' then ['\\', '"']
  else if c = '\\' then ['\\', '\\']
  else if c = '\x08' then ['\\', 'b']
  else if c = '\x0c' then ['\\', 'f']
  else if c = '\n' then ['\\', 'n']
  else if c = '\r' then ['\\', 'r']
  else if c = '\t' then ['\\', 't']
  else if c.toNat < 0x20 then
    ['\\', 'u', '0', '0', Nat.digitChar (c.toNat / 16), Nat.digitChar (c.toNat % 16)]
  else [c]

/-- A text in quotation marks. -/
def quote (s : String) : String :=
  .ofList ('"' :: s.toList.flatMap escape ++ ['"'])

end LeaseLock.Quoted
