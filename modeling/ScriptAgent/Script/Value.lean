import ScriptAgent.Dict
import ScriptAgent.Number.Text
import ScriptAgent.Script.Ast
import ScriptAgent.Text.Quote

/-!
# Values of scripts

What expressions evaluate to.  Integers are words of 64 bits; an operation that leaves that range is
a fault, so no value does.  Records, host objects and shared variables live in the machine, and a
value only names them.
-/

namespace ScriptAgent.Script

/-- What a function value calls. -/
inductive Callee where
  | named (name : String)
  /-- A function without a name, by its place in the script, with the outer variables it uses; their
  values are the first arguments given. -/
  | closure (index : Nat) (captured : List String)
deriving DecidableEq, Repr

/-- A value. -/
inductive Value where
  | unit
  | bool (b : Bool)
  | int (n : Int)
  | float (x : Float)
  | char (c : Char)
  | str (s : String)
  | array (items : List Value)
  | map (entries : List (String × Value))
  | range (low high : Int) (inclusive : Bool)
  /-- A function with arguments already given. -/
  | fn (callee : Callee) (curried : List Value)
  /-- A variable that functions share. -/
  | cell (id : Nat)
  | record (id : Nat)
  | object (id : Nat)
  | console

namespace Value

instance : Inhabited Value := ⟨.unit⟩

/-- The value of a constant. -/
def ofLiteral : Literal → Value
  | .unit => .unit
  | .bool b => .bool b
  | .int n => .int n
  | .float x => .float x
  | .char c => .char c
  | .str s => .str s

/-- The name of a value's type, as scripts see it. -/
def typeName : Value → String
  | .unit => "()"
  | .bool _ => "bool"
  | .int _ => "i64"
  | .float _ => "f64"
  | .char _ => "char"
  | .str _ => "string"
  | .array _ => "array"
  | .map _ => "map"
  | .range _ _ false => "range"
  | .range _ _ true => "range="
  | .fn _ _ => "Fn"
  | .cell _ => "()"
  | .record _ => "Record"
  | .object _ => "Object"
  | .console => "Console"

/-- The name of a value's type in the signature of a missing function. -/
def signatureName : Value → String
  | .str _ => "&str | ImmutableString | String"
  | v => v.typeName

/-- The long name of a type, shown for values that have no JSON form of their own. -/
def longTypeName : Value → String
  | .range _ _ false => "core::ops::range::Range<i64>"
  | .range _ _ true => "core::ops::range::RangeInclusive<i64>"
  | .record _ => "codeloop::vm::binding::SealedRecord"
  | .object _ => "codeloop::vm::binding::ObjectHandle"
  | .console => "codeloop::vm::sandbox::Console"
  | v => v.typeName

/-- Whether a value is the empty one. -/
def isUnit : Value → Bool
  | .unit => true
  | _ => false

/-- Whether a value is a function. -/
def isFn : Value → Bool
  | .fn _ _ => true
  | _ => false

/-- Whether a value belongs to the host, not to the language. -/
def isHosted : Value → Bool
  | .record _ | .object _ | .console => true
  | _ => false

mutual

/-- Whether two values are of one type and the same; an integer is the same as a double of its value
if types may be mixed. -/
def same (mixed : Bool) : Value → Value → Bool
  | .unit, .unit => true
  | .bool a, .bool b => a == b
  | .int a, .int b => a == b
  | .float a, .float b => a == b
  | .int a, .float b => mixed && Float.ofInt a == b
  | .float a, .int b => mixed && a == Float.ofInt b
  | .char a, .char b => a == b
  | .str a, .str b => a == b
  | .array a, .array b => allSame mixed a b
  | .map a, .map b => allSameEntries mixed a b
  | .range a b c, .range d e f => a == d && b == e && c == f
  | _, _ => false

/-- Whether two lists hold the same values in order. -/
def allSame (mixed : Bool) : List Value → List Value → Bool
  | [], [] => true
  | a :: as, b :: bs => same mixed a b && allSame mixed as bs
  | _, _ => false

/-- Whether two maps hold the same values under the same names. -/
def allSameEntries (mixed : Bool) : List (String × Value) → List (String × Value) → Bool
  | [], [] => true
  | (k, a) :: as, (l, b) :: bs => k == l && same mixed a b && allSameEntries mixed as bs
  | _, _ => false

end

/-- The name of what a function value calls. -/
def calleeName : Callee → String
  | .named name => name
  | .closure index _ => "anon$" ++ toString index

mutual

/-- The text of a value inside an array or a map, given the text of the values of the host. -/
def inner (hosted : Value → String) : Value → String
  | .unit | .cell _ => "()"
  | .bool b => if b then "true" else "false"
  | .int n => toString n
  | .float x => Number.debugStyle.render x
  | .char c => c.toString
  | .str s => Text.quoted s
  | .array items => "[" ++ ", ".intercalate (innerAll hosted items) ++ "]"
  | .map entries => "#\x7b" ++ ", ".intercalate (innerEntries hosted entries) ++ "\x7d"
  | .range low high inclusive => toString low ++ (if inclusive then "..=" else "..") ++ toString high
  | .fn callee _ => "Fn(" ++ calleeName callee ++ ")"
  | v => hosted v

/-- The texts of items. -/
def innerAll (hosted : Value → String) : List Value → List String
  | [] => []
  | v :: rest => inner hosted v :: innerAll hosted rest

/-- The texts of entries. -/
def innerEntries (hosted : Value → String) : List (String × Value) → List String
  | [] => []
  | (k, v) :: rest => (Text.quoted k ++ ": " ++ inner hosted v) :: innerEntries hosted rest

end

/-- The text of a value on its own: empty for the empty value, a text as it is. -/
def text (hosted : Value → String) : Value → String
  | .unit => ""
  | .str s => s
  | .float x => Number.scriptStyle.render x
  | v => inner hosted v

/-- The text of a value that was thrown. -/
def thrownText (v : Value) : String :=
  v.text longTypeName

mutual

/-- How many items, entries and bytes of text a value holds at all depths. -/
def sizes : Value → Nat × Nat × Nat
  | .array items => sizesAll items
  | .map entries => sizesEntries entries
  | .str s => (0, 0, s.utf8ByteSize)
  | _ => (0, 0, 0)

/-- The sizes of items, each of which counts once more. -/
def sizesAll : List Value → Nat × Nat × Nat
  | [] => (0, 0, 0)
  | v :: rest =>
    let (a, m, s) := sizes v
    let (as, ms, ss) := sizesAll rest
    (a + as + 1, m + ms, s + ss)

/-- The sizes of entries, each of which counts once more. -/
def sizesEntries : List (String × Value) → Nat × Nat × Nat
  | [] => (0, 0, 0)
  | (_, v) :: rest =>
    let (a, m, s) := sizes v
    let (as, ms, ss) := sizesEntries rest
    (a + as, m + ms + 1, s + ss)

end

end Value

end ScriptAgent.Script
