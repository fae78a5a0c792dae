import ScriptAgent.Number.Binary64

/-!
# The fewest digits that read back

Every decimal that lies between a double's two halfway points reads back as that double.  Among
those decimals `shortest` takes one with the fewest digits, and of these the nearest.  The search
walks the decimal grids from coarse to fine; seventeen digits always suffice.
-/

namespace ScriptAgent.Number

/-- The decimal `digits * 10 ^ exponent`, without its sign. -/
structure Decimal where
  digits : Nat
  exponent : Int
deriving DecidableEq, Repr

/-- The reals that round to `significand * 2 ^ exponent`, scaled by four: from `low` to `high`,
ends included exactly for an even significand. -/
structure Basin where
  low : Nat
  value : Nat
  high : Nat
  closed : Bool
  /-- The power of two all three are counted in. -/
  exponent : Int
deriving Repr

/-- The basin of a positive number with significands of `bits` bits and no exponent below
`least`. -/
def Basin.ofDyadic (bits : Nat) (least : Int) (d : Dyadic) : Basin :=
  let m := d.significand
  -- below a power of two the grid is twice as fine
  let gap := if m == Nat.pow 2 (bits - 1) && d.exponent != least then 1 else 2
  ⟨4 * m - gap, 4 * m, 4 * m + 2, m % 2 == 0, d.exponent - 2⟩

/-- Whether `n / d` lies in the basin, for bounds counted in the same unit. -/
def Basin.admits (b : Basin) (scaled low high : Nat) : Bool :=
  if b.closed then low ≤ scaled && scaled ≤ high else low < scaled && scaled < high

/-- The number of decimal digits of a natural. -/
def digitCount (n : Nat) : Nat :=
  (Nat.toDigits 10 n).length

/-- The point of the grid of step `10 ^ k` that lies in the basin, the nearer one of the two next
to the value. -/
def Basin.onGrid (b : Basin) (k : Int) : Option Nat :=
  -- everything is multiplied by `10 ^ (-k)` or `2 ^ (-exponent)` to become a natural
  let ten := if k < 0 then Nat.pow 10 (-k).toNat else 1
  let two := if b.exponent ≥ 0 then Nat.pow 2 b.exponent.toNat else 1
  let unit := (if k ≥ 0 then Nat.pow 10 k.toNat else 1) * (if b.exponent < 0 then Nat.pow 2 (-b.exponent).toNat else 1)
  let scale := ten * two
  let low := b.low * scale
  let value := b.value * scale
  let high := b.high * scale
  let below := value / unit
  let above := below + 1
  let inBelow := below != 0 && b.admits (below * unit) low high
  let inAbove := b.admits (above * unit) low high
  match inBelow, inAbove with
  | true, true => if 2 * (value % unit) ≤ unit then some below else some above
  | true, false => some below
  | false, true => some above
  | false, false => none

/-- The place of the leading digit: `10 ^ p ≤ value < 10 ^ (p + 1)`. -/
def Basin.leadingPlace (b : Basin) : Int :=
  if b.exponent ≥ 0 then (digitCount (b.value * Nat.pow 2 b.exponent.toNat) : Int) - 1
  else
    let d := Nat.pow 2 (-b.exponent).toNat
    if b.value ≥ d then (digitCount (b.value / d) : Int) - 1
    else (digitCount (b.value * Nat.pow 10 400 / d) : Int) - 401

/-- A digit string without its trailing zeros, the exponent raised to match. -/
def Decimal.trim : Nat → Decimal → Decimal
  | 0, d => d
  | fuel + 1, d =>
    if d.digits != 0 && d.digits % 10 == 0 then Decimal.trim fuel ⟨d.digits / 10, d.exponent + 1⟩ else d

/-- The first grid, from coarse to fine, that has a point in the basin. -/
def Basin.search (b : Basin) (place : Int) : List Nat → Decimal
  | [] => ⟨0, 0⟩
  | n :: rest =>
    let k := place - (n : Int) + 1
    match b.onGrid k with
    | some digits => Decimal.trim 20 ⟨digits, k⟩
    | none => b.search place rest

/-- The shortest decimal in the basin of a number, sign left out. -/
def shortestIn (bits : Nat) (least : Int) (d : Dyadic) : Decimal :=
  if d.significand == 0 then ⟨0, 0⟩
  else
    let b := Basin.ofDyadic bits least d
    b.search b.leadingPlace ((List.range 18).drop 1)

/-- The shortest decimal that reads back as the given finite double, sign left out. -/
def shortest (x : Float) : Decimal :=
  shortestIn 53 (-1074) (toDyadic x)

/-- A number that is a single, with a significand of at most 24 bits. -/
def narrowed (d : Dyadic) : Dyadic :=
  let e : Int := max (d.exponent + ((d.significand.log2 : Int) - 23)) (-149)
  if e ≤ d.exponent then { d with significand := d.significand * Nat.pow 2 (d.exponent - e).toNat, exponent := e }
  else { d with significand := d.significand / Nat.pow 2 (e - d.exponent).toNat, exponent := e }

/-- The shortest decimal that reads back as the given finite single, sign left out. -/
def shortestSingle (x : Float) : Decimal :=
  shortestIn 24 (-149) (narrowed (toDyadic x))

example : shortest 0.1 = ⟨1, -1⟩ ∧ shortest 1e23 = ⟨1, 23⟩ ∧ shortest (0.1 + 0.2) = ⟨30000000000000004, -17⟩ := by
  decide +kernel
example : shortestSingle (toSingle 0.7) = ⟨7, -1⟩ ∧ shortestSingle (toSingle 16777216.0) = ⟨16777216, 0⟩
    ∧ shortestSingle (toSingle 1e-45) = ⟨1, -45⟩ := by decide +kernel
example : shortest 5e-324 = ⟨5, -324⟩ ∧ shortest 1200.0 = ⟨12, 2⟩ := by decide +kernel

end ScriptAgent.Number
