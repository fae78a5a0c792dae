import ScriptAgent.Number.Shortest

/-!
# Written numbers

All texts of a double share the shortest digits and differ in where positional notation ends and in
whether a whole number keeps its `.0`.  A `Style` states that choice; the five styles in use are
values of it.
-/

namespace ScriptAgent.Number

/-- How the shortest digits of a double are laid out. -/
structure Style where
  /-- Whether the leading place and the value itself call for an exponent. -/
  scientific : Int → Float → Bool
  /-- Whether a whole number is followed by `.0` in positional notation. -/
  keepPoint : Bool
  /-- Whether zero loses its sign. -/
  plainZero : Bool

/-- A string of `n` zeros. -/
def zeros (n : Nat) : String :=
  String.ofList (List.replicate n '0')

/-- Positional notation. -/
def Decimal.positional (d : Decimal) (keepPoint : Bool) : String :=
  let ds := Nat.toDigits 10 d.digits
  if d.exponent ≥ 0 then
    String.ofList ds ++ zeros d.exponent.toNat ++ (if keepPoint then ".0" else "")
  else
    let places := (-d.exponent).toNat
    if ds.length > places then
      String.ofList (ds.take (ds.length - places)) ++ "." ++ String.ofList (ds.drop (ds.length - places))
    else "0." ++ zeros (places - ds.length) ++ String.ofList ds

/-- One digit, the others after a point, and the exponent. -/
def Decimal.scientific (d : Decimal) : String :=
  let ds := Nat.toDigits 10 d.digits
  let e : Int := d.exponent + (ds.length - 1 : Nat)
  let tail := if ds.length > 1 then "." ++ String.ofList (ds.drop 1) else ""
  String.ofList (ds.take 1) ++ tail ++ "e" ++ toString e

/-- The place of the leading digit. -/
def Decimal.leadingPlace (d : Decimal) : Int :=
  d.exponent + (digitCount d.digits : Int) - 1

/-- A number written in the given style with the given digits. -/
def Style.renderAs (s : Style) (digits : Float → Decimal) (x : Float) : String :=
  if isNaN x then "NaN"
  else
    let sign := if signBit x then "-" else ""
    if !isFinite x then sign ++ "inf"
    else
      let d := digits x
      if d.digits == 0 then (if s.plainZero then "" else sign) ++ (if s.keepPoint then "0.0" else "0")
      else
        sign ++ if s.scientific d.leadingPlace x then d.scientific else d.positional s.keepPoint

/-- A double written in the given style. -/
def Style.render (s : Style) (x : Float) : String :=
  s.renderAs shortest x

/-- Positional from `0.00001` up to below `1e16`, always with a point or an exponent. -/
def jsonStyle : Style := ⟨fun p _ => p < -5 || p ≥ 16, true, false⟩

/-- Positional from `0.000001` up to below `1e13`, always with a point or an exponent. -/
def singleStyle : Style := ⟨fun p _ => p < -6 || p ≥ 13, true, false⟩

/-- A single written with its own digits. -/
def singleText (x : Float) : String :=
  singleStyle.renderAs shortestSingle x

/-- Never an exponent, no point for a whole number. -/
def plainStyle : Style := ⟨fun _ _ => false, false, false⟩

/-- Positional from `0.0001` up to below `1e16`, always with a point or an exponent. -/
def debugStyle : Style := ⟨fun p _ => p < -4 || p ≥ 16, true, false⟩

/-- The text scripts see: positional while the magnitude stays between the singles nearest to
`1e-13` and `1e13`, zero always unsigned. -/
def scriptStyle : Style :=
  ⟨fun _ x => x.abs > 9999999827968.0 || x.abs < 9.9999998245167e-14, true, true⟩

example : jsonStyle.render 4.0 = "4.0" ∧ jsonStyle.render 1e16 = "1e16" ∧ jsonStyle.render 1e-7 = "1e-7"
    ∧ jsonStyle.render 1.8446744073709552e19 = "1.8446744073709552e19"
    ∧ jsonStyle.render (-0.0) = "-0.0" := by decide +kernel
example : plainStyle.render 1e21 = "1000000000000000000000" ∧ plainStyle.render 0.5 = "0.5"
    ∧ plainStyle.render 3.0 = "3" := by decide +kernel

end ScriptAgent.Number
