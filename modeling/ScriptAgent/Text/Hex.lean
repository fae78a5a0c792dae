/-!
# Hexadecimal digits
-/

namespace ScriptAgent.Text

/-- The value of a hexadecimal digit of either case. -/
def hexValue? (c : Char) : Option Nat :=
  let n := c.toNat
  if 48 ≤ n ∧ n ≤ 57 then some (n - 48)
  else if 97 ≤ n ∧ n ≤ 102 then some (n - 87)
  else if 65 ≤ n ∧ n ≤ 70 then some (n - 55)
  else none

/-- The digit of a value below sixteen, in small letters. -/
def hexDigit (n : Nat) : Char :=
  if n < 10 then Char.ofNat (48 + n) else Char.ofNat (87 + n)

/-- The value of a digit below ten. -/
def decimalValue (c : Char) : Nat :=
  c.toNat - 48

/-- The number that decimal digits write. -/
def readDecimal (cs : List Char) : Nat :=
  cs.foldl (fun n c => n * 10 + decimalValue c) 0

end ScriptAgent.Text
