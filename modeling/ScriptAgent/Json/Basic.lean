import ScriptAgent.Dict
import ScriptAgent.Number.Binary64

/-!
# JSON values

Numbers keep the form they were read in: an integer of at most 64 bits, or a double.  Objects keep
their keys in order.
-/

namespace ScriptAgent

/-- A number: an integer between `-2^63` and `2^64 - 1`, or a finite double. -/
inductive Numeral where
  | int (n : Int)
  | float (x : Float)

namespace Numeral

/-- The double nearest to the number. -/
def toFloat : Numeral → Float
  | .int n => Float.ofInt n
  | .float x => x

/-- The number as a natural, if it is an integer that is not negative. -/
def toNat? : Numeral → Option Nat
  | .int n => if 0 ≤ n then some n.toNat else none
  | .float _ => none

/-- A number without a fractional part. -/
def isWhole : Numeral → Bool
  | .int _ => true
  | .float x => Number.isWhole x

/-- The same number in the same form. -/
def identical : Numeral → Numeral → Bool
  | .int a, .int b => a == b
  | .float a, .float b => a == b
  | _, _ => false

end Numeral

/-- A JSON value. -/
inductive Json where
  | null
  | bool (b : Bool)
  | num (n : Numeral)
  | str (s : String)
  | arr (items : List Json)
  | obj (fields : List (String × Json))
deriving Inhabited

namespace Json

/-- The number `n`. -/
def int (n : Int) : Json := .num (.int n)

/-- The number `n`. -/
def nat (n : Nat) : Json := .num (.int n)

/-- The double `x`, or null if it is not finite. -/
def float (x : Float) : Json :=
  if Number.isFinite x then .num (.float x) else .null

/-- The object with the given entries; the last entry of a key counts. -/
def object (entries : List (String × Json)) : Json :=
  .obj (Dict.ofList entries)

/-- The text, or null if there is none. -/
def optStr : Option String → Json
  | some s => .str s
  | none => .null

/-- The entries of an object. -/
def fields? : Json → Option (Dict Json)
  | .obj fields => some fields
  | _ => none

/-- The items of an array. -/
def items? : Json → Option (List Json)
  | .arr items => some items
  | _ => none

/-- The text of a string. -/
def str? : Json → Option String
  | .str s => some s
  | _ => none

/-- The field of an object. -/
def get? (v : Json) (key : String) : Option Json :=
  v.fields?.bind (Dict.get? · key)

/-- The value null. -/
def isNull : Json → Bool
  | .null => true
  | _ => false

/-- The double nearest to a number. -/
def float? : Json → Option Float
  | .num n => some n.toFloat
  | _ => none

/-- An integer that is not negative. -/
def nat? : Json → Option Nat
  | .num n => n.toNat?
  | _ => none

end Json

end ScriptAgent
