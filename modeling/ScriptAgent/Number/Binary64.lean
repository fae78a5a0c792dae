/-!
# The dyadic form of a double

A finite double is `significand * 2 ^ exponent` up to its sign.  The questions asked of doubles
elsewhere (is it whole, what is left after division, which single is nearest) are answered here in
exact `Nat` and `Int` arithmetic on that form.
-/

namespace ScriptAgent.Number

/-- A finite double taken apart: `(-1)^negative * significand * 2 ^ exponent`. -/
structure Dyadic where
  negative : Bool
  significand : Nat
  exponent : Int
deriving DecidableEq, Repr

/-- Whether the sign bit is set. -/
def signBit (x : Float) : Bool :=
  x.toBits >>> 63 == 1

/-- The biased exponent field. -/
def exponentField (x : Float) : Nat :=
  ((x.toBits >>> 52) &&& 0x7ff).toNat

/-- The fraction field. -/
def fractionField (x : Float) : Nat :=
  (x.toBits &&& 0xfffffffffffff).toNat

/-- Neither infinite nor not-a-number. -/
def isFinite (x : Float) : Bool :=
  exponentField x != 0x7ff

/-- Not-a-number. -/
def isNaN (x : Float) : Bool :=
  exponentField x == 0x7ff && fractionField x != 0

/-- The dyadic form of a finite double. -/
def toDyadic (x : Float) : Dyadic :=
  let e := exponentField x
  let f := fractionField x
  if e == 0 then ⟨signBit x, f, -1074⟩ else ⟨signBit x, f + Nat.pow 2 52, (e : Int) - 1075⟩

/-- A finite double without a fractional part. -/
def isWhole (x : Float) : Bool :=
  isFinite x &&
    let d := toDyadic x
    d.exponent ≥ 0 || d.significand % Nat.pow 2 (-d.exponent).toNat == 0

/-- The integer part of a finite double, toward zero. -/
def truncate (x : Float) : Int :=
  let d := toDyadic x
  let n : Nat :=
    if d.exponent ≥ 0 then d.significand * Nat.pow 2 d.exponent.toNat
    else d.significand / Nat.pow 2 (-d.exponent).toNat
  if d.negative then -(n : Int) else n

/-- The double with the given sign, nearest to `significand * 2 ^ exponent` when that is exact. -/
def ofDyadic (d : Dyadic) : Float :=
  let scaled : Float :=
    if d.exponent ≥ 0 then Float.ofNat (d.significand * Nat.pow 2 d.exponent.toNat)
    else
      -- `n / 2 ^ k = n * 5 ^ k / 10 ^ k`
      let k := (-d.exponent).toNat
      Float.ofScientific (d.significand * Nat.pow 5 k) true k
  if d.negative then -scaled else scaled

/-- The remainder of a division of doubles, with the sign of the dividend; not-a-number when the
dividend is infinite or the divisor zero. -/
def remainder (x y : Float) : Float :=
  if isNaN x || isNaN y || !isFinite x then 0.0 / 0.0
  else if !isFinite y then x
  else
    let a := toDyadic x
    let b := toDyadic y
    if b.significand == 0 then 0.0 / 0.0
    else
      let e := min a.exponent b.exponent
      let n := a.significand * Nat.pow 2 (a.exponent - e).toNat
      let m := b.significand * Nat.pow 2 (b.exponent - e).toNat
      ofDyadic ⟨a.negative, n % m, e⟩

/-- Division of naturals rounded to nearest, a tie going to the even quotient. -/
def divNearestEven (n d : Nat) : Nat :=
  let q := n / d
  let r := n % d
  if 2 * r < d then q else if d < 2 * r then q + 1 else if q % 2 == 0 then q else q + 1

/-- The nearest double with a significand of 24 bits and the exponent range of a 32-bit number;
beyond that range an infinity. -/
def toSingle (x : Float) : Float :=
  if !isFinite x then x
  else
    let d := toDyadic x
    if d.significand == 0 then x
    else
      let bits := d.significand.log2 + 1
      -- the place of the last bit kept
      let e : Int := max (d.exponent + bits - 24) (-149)
      let drop := e - d.exponent
      let n : Nat :=
        if drop ≤ 0 then d.significand * Nat.pow 2 (-drop).toNat
        else divNearestEven d.significand (Nat.pow 2 drop.toNat)
      let tooLarge : Bool := e ≥ 0 && n * Nat.pow 2 e.toNat ≥ Nat.pow 2 128
      if tooLarge then (if d.negative then -1.0 / 0.0 else 1.0 / 0.0)
      else ofDyadic ⟨d.negative, n, e⟩

example : isWhole 4.0 = true ∧ isWhole 4.5 = false ∧ isWhole 1e300 = true := by decide +kernel
example : truncate (-2.75) = -2 := by decide +kernel
example : (remainder 5.5 2.0 == 1.5) = true := by decide +kernel

end ScriptAgent.Number
