import ScriptAgent.Number.Binary64
import ScriptAgent.Text.Hex

/-!
# The double nearest to a decimal

A decimal is a fraction of two naturals; it is scaled by a power of two until the quotient has 53
bits, and rounded once.
-/

namespace ScriptAgent.Number

/-- The infinity above all doubles. -/
def infinity : Float := 1.0 / 0.0

/-- The exponent of two with which the quotient of two naturals has 53 bits, or the least one. -/
def binaryPlace (p q : Nat) : Int :=
  let k : Int := (p.log2 : Int) - q.log2 - 52
  let isBelow : Bool := p * Nat.pow 2 (-(k + 52)).toNat < q * Nat.pow 2 (k + 52).toNat
  max (if isBelow then k - 1 else k) (-1074)

/-- The double nearest to `n * 10 ^ e`, a tie going to the even significand. -/
def nearest (n : Nat) (e : Int) : Float :=
  let place := (Nat.toDigits 10 n).length + e
  if n == 0 || place < -330 then 0.0
  else if place > 310 then infinity
  else
    let p := n * Nat.pow 10 e.toNat
    let q := Nat.pow 10 (-e).toNat
    let k := binaryPlace p q
    let m := divNearestEven (p * Nat.pow 2 (-k).toNat) (q * Nat.pow 2 k.toNat)
    if k ≥ 0 && m * Nat.pow 2 k.toNat ≥ Nat.pow 2 1024 then infinity else ofDyadic ⟨false, m, k⟩

/-- The double that characters write without a sign: digits with or without a point, and an
exponent if there is one. -/
def readFloat? (cs : List Char) : Option Float :=
  let whole := cs.takeWhile Char.isDigit
  let rest := cs.dropWhile Char.isDigit
  let (fraction, rest) := match rest with
    | '.' :: rest => (rest.takeWhile Char.isDigit, rest.dropWhile Char.isDigit)
    | _ => ([], rest)
  let exponent? : Option Int := match rest with
    | [] => some 0
    | e :: rest =>
      if e == 'e' || e == 'E' then
        let (down, ds) := match rest with
          | '-' :: ds => (true, ds)
          | '+' :: ds => (false, ds)
          | _ => (false, rest)
        if !ds.isEmpty && ds.all Char.isDigit then
          let n := Text.readDecimal ds
          some (if down then -(n : Int) else n)
        else none
      else none
  if whole.isEmpty && fraction.isEmpty then none
  else exponent?.map fun e => nearest (Text.readDecimal (whole ++ fraction)) (e - fraction.length)

example : (nearest 1 (-1) == 0.1) = true ∧ (nearest 17976931348623157 292 == 1.7976931348623157e308) = true
    ∧ (nearest 5 (-324) == 5e-324) = true := by decide +kernel

end ScriptAgent.Number
