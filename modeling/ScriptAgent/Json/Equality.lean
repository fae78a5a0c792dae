import ScriptAgent.Json.Basic

/-!
# Two notions of equal JSON values

`Json.same` compares numbers by the doubles they stand for, so `1` and `1.0` are the same.
`Json.identical` also tells the forms of numbers apart.
-/

namespace ScriptAgent.Json

mutual

/-- Deep equality by the given comparison of numbers; objects are compared key by key. -/
def equalBy (eq : Numeral → Numeral → Bool) : Json → Json → Bool
  | .null, .null => true
  | .bool a, .bool b => a == b
  | .num a, .num b => eq a b
  | .str a, .str b => a == b
  | .arr a, .arr b => equalItems eq a b
  | .obj a, .obj b => a.length == b.length && equalFields eq a b
  | _, _ => false

/-- Two lists with equal items in equal places. -/
def equalItems (eq : Numeral → Numeral → Bool) : List Json → List Json → Bool
  | [], [] => true
  | a :: as, b :: bs => equalBy eq a b && equalItems eq as bs
  | _, _ => false

/-- Every entry has an equal partner under its key. -/
def equalFields (eq : Numeral → Numeral → Bool) : List (String × Json) → Dict Json → Bool
  | [], _ => true
  | (k, v) :: rest, other =>
    (match other.get? k with
      | some w => equalBy eq v w
      | none => false) && equalFields eq rest other

end

/-- Deep equality in which `1` and `1.0` are the same number. -/
def same (a b : Json) : Bool :=
  equalBy (fun x y => x.toFloat == y.toFloat) a b

/-- Deep equality of values and of the forms of their numbers. -/
def identical (a b : Json) : Bool :=
  equalBy Numeral.identical a b

end ScriptAgent.Json
