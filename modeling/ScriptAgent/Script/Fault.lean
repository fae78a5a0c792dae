import ScriptAgent.Script.Value

/-!
# What goes wrong while a script runs

A fault can be caught by the script.  A fault inside a function knows the function it passed
through; what is reported is the innermost one, at its own place.
-/

namespace ScriptAgent.Script

/-- Why a computation failed. -/
inductive Fault where
  | variableNotFound (name : String)
  | functionNotFound (signature : String)
  /-- A type without a getter or a setter for a property. -/
  | noProperty (message : String)
  | notIndexable (types : String)
  | arrayBounds (size : Nat) (index : Int)
  | stringBounds (size : Nat) (index : Int)
  | bitBounds (index : Int)
  | mismatch (wanted actual : String)
  | arithmetic (message : String)
  | notIterable
  | constantTarget (method : String)
  | constantAssigned (name : String)
  | thisUnbound
  | moduleNotFound (path : String)
  | thrown (value : Value)
  | inside (function : String) (closure : Bool) (cause : Fault) (pos : Pos)

namespace Fault

/-- A count of things that are all there is. -/
def onlySome (count : Nat) (one many : String) : String :=
  if count == 1 then "only 1 " ++ one else "only " ++ toString count ++ " " ++ many

/-- A place after a text. -/
def withPos (text : String) (pos : Pos) : String :=
  if pos.isNone then text
  else text ++ " (line " ++ toString pos.line ++
    (if pos.column == 0 then "" else ", position " ++ toString pos.column) ++ ")"

/-- The text of a fault, without its place. -/
def message : Fault → String
  | variableNotFound name => "Variable not found: " ++ name
  | functionNotFound signature => "Function not found: " ++ signature
  | noProperty message => message
  | notIndexable types => "Indexer unavailable: " ++ types
  | arrayBounds 0 index => "Array index " ++ toString index ++ " out of bounds: array is empty"
  | arrayBounds size index =>
    "Array index " ++ toString index ++ " out of bounds: " ++ onlySome size "element in array" "elements in array"
  | stringBounds 0 index => "String index " ++ toString index ++ " out of bounds: string is empty"
  | stringBounds size index =>
    "String index " ++ toString index ++ " out of bounds: " ++
      onlySome size "character in string" "characters in string"
  | bitBounds index => "Bit-field index " ++ toString index ++ " out of bounds: only 64 bits in bit-field"
  | mismatch wanted "" => "Data type incorrect, expecting " ++ wanted
  | mismatch "" actual => "Data type incorrect: " ++ actual
  | mismatch wanted actual => "Data type incorrect: " ++ actual ++ " (expecting " ++ wanted ++ ")"
  | arithmetic message => message
  | notIterable => "For loop expects iterable type"
  | constantTarget method => "Non-pure method '" ++ method ++ "' cannot be called on constant"
  | constantAssigned name => "Cannot modify constant: " ++ name
  | thisUnbound => "'this' not bound"
  | moduleNotFound path => "Module not found: " ++ path
  | thrown value => value.thrownText
  | inside function closure cause pos =>
    withPos cause.message pos ++
      (if closure then " in call to closure" else " in call to function '" ++ function ++ "'")

/-- The innermost fault and its place. -/
def root : Fault → Pos → Fault × Pos
  | inside _ _ cause pos, _ => root cause pos
  | f, pos => (f, pos)

/-- The kind of a fault, as a handler sees it. -/
def kind : Fault → String
  | variableNotFound _ => "ErrorVariableNotFound"
  | functionNotFound _ => "ErrorFunctionNotFound"
  | noProperty _ => "ErrorDotExpr"
  | notIndexable _ => "ErrorIndexingType"
  | arrayBounds .. => "ErrorArrayBounds"
  | stringBounds .. => "ErrorStringBounds"
  | bitBounds _ => "ErrorBitFieldBounds"
  | mismatch .. => "ErrorMismatchDataType"
  | arithmetic _ => "ErrorArithmetic"
  | notIterable => "ErrorFor"
  | constantTarget _ => "ErrorNonPureMethodCallOnConstant"
  | constantAssigned _ => "ErrorAssignmentToConstant"
  | thisUnbound => "ErrorUnboundThis"
  | moduleNotFound _ => "ErrorModuleNotFound"
  | thrown _ => "ErrorRuntime"
  | inside .. => "ErrorInFunctionCall"

/-- What else a handler learns from a fault. -/
def details : Fault → List (String × Value)
  | variableNotFound name => [("variable", .str name)]
  | functionNotFound signature => [("function", .str signature)]
  | noProperty message => [("property", .str message)]
  | notIndexable types => [("type", .str types)]
  | arrayBounds size index | stringBounds size index => [("length", .int size), ("index", .int index)]
  | bitBounds index => [("length", .int 64), ("index", .int index)]
  | mismatch wanted actual => [("requested", .str wanted), ("actual", .str actual)]
  | arithmetic _ | notIterable | thisUnbound | thrown _ => []
  | constantTarget method => [("function", .str method)]
  | constantAssigned name => [("variable", .str name)]
  | moduleNotFound path => [("module", .str path)]
  | inside function _ _ _ => [("function", .str function), ("source", .str "")]

/-- What a handler gets: the innermost value thrown, or a map that describes the fault. -/
def caught (f : Fault) (pos : Pos) : Value :=
  match (f.root pos).1 with
  | thrown value => value
  | _ =>
    let place := if pos.isNone then [] else [("line", Value.int pos.line), ("position", .int pos.column)]
    .map (Dict.ofList
      (("error", .str f.kind) :: ("message", .str f.message) :: place ++ f.details))

end Fault

end ScriptAgent.Script
