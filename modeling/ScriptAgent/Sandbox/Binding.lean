import ScriptAgent.Sandbox.Backend
import ScriptAgent.Script.Value

/-!
# Values across the border

The host knows JSON values, scripts know script values.  A value of the host that a script holds
goes back as what it stands for; a value without a JSON form goes back as the name of its type.
-/

namespace ScriptAgent

open Script (Value)

namespace Binding

/-- The script value of a number. -/
def ofNumeral : Numeral → Value
  | .int n => if Script.fitsInt n then .int n else .float (Float.ofInt n)
  | .float x => .float x

mutual

/-- The script value of a JSON value. -/
def ofJson : Json → Value
  | .null => .unit
  | .bool b => .bool b
  | .num n => ofNumeral n
  | .str s => .str s
  | .arr items => .array (ofItems items)
  | .obj fields => .map (ofFields fields)

/-- The script values of items. -/
def ofItems : List Json → List Value
  | [] => []
  | v :: rest => ofJson v :: ofItems rest

/-- The script values of entries. -/
def ofFields : List (String × Json) → List (String × Value)
  | [] => []
  | (k, v) :: rest => (k, ofJson v) :: ofFields rest

end

mutual

/-- The JSON value of a script value, given those of the values of the host. -/
def toJson (hosted : Value → Json) : Value → Json
  | .unit => .null
  | .bool b => .bool b
  | .int n => .int n
  | .float x => .float x
  | .char c => .str c.toString
  | .str s => .str s
  | .array items => .arr (toItems hosted items)
  | .map entries => .obj (toFields hosted entries)
  | .fn callee curried => .str ("[[" ++ (Value.fn callee curried).longTypeName ++ "]]")
  | .range low high inclusive => .str ("[[" ++ (Value.range low high inclusive).longTypeName ++ "]]")
  | .cell _ => .null
  | .record id => hosted (.record id)
  | .object id => hosted (.object id)
  | .console => .str ("[[" ++ Value.console.longTypeName ++ "]]")

/-- The JSON values of items. -/
def toItems (hosted : Value → Json) : List Value → List Json
  | [] => []
  | v :: rest => toJson hosted v :: toItems hosted rest

/-- The JSON values of entries. -/
def toFields (hosted : Value → Json) : List (String × Value) → List (String × Json)
  | [] => []
  | (k, v) :: rest => (k, toJson hosted v) :: toFields hosted rest

end

end Binding

namespace Backend

/-- A JSON value as a script value. -/
def toScript (b : Backend) (v : Json) : Value :=
  Binding.ofJson (b.pass v)

/-- A script value as a JSON value. -/
def ofScript (b : Backend) (hosted : Value → Json) (v : Value) : Json :=
  b.pass (Binding.toJson hosted v)

end Backend

end ScriptAgent
