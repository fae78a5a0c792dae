import ScriptAgent.Script.Token

/-!
# Why a text is no script
-/

namespace ScriptAgent.Script

/-- The cause of a parse error. -/
inductive ParseFault where
  | lex (e : LexError)
  | incomplete
  | missing (token purpose : String)
  | expressionExpected (kind : String)
  | mismatched (wanted found : String)
  | variableExpected
  | propertyExpected
  | duplicateProperty (name : String)
  | duplicateVariable (name : String)
  | reserved (text : String)
  | unknownOperator (text : String)
  | assignToConstant (name : String)
  | badTarget
  | strayBreak
  | strayFunction
  | strayExport
  | functionName
  | functionParams (name : String)
  | functionBody (name : String)
  | duplicateParam (function param : String)
  | duplicateFunction (name : String) (params : Nat)
  | defaultNotLast
  | defaultCondition
  | integerAfterRange
  | tooDeep
  | tooLarge (what : String) (limit : Nat)
  | badIndex (message : String)
deriving DecidableEq, Repr

/-- The text of a parse error. -/
def ParseFault.message : ParseFault → String
  | .lex e => e.message
  | .incomplete => "Script is incomplete"
  | .missing token purpose => "Expecting '" ++ token ++ "' " ++ purpose
  | .expressionExpected kind => "Expecting " ++ kind ++ " expression"
  | .mismatched wanted found => "Expecting " ++ wanted ++ ", not " ++ found
  | .variableExpected => "Expecting name of a variable"
  | .propertyExpected => "Expecting name of a property"
  | .duplicateProperty name => "Duplicated property for object map literal: " ++ name
  | .duplicateVariable name => "Duplicated variable name: " ++ name
  | .reserved text =>
    if isNameShaped text then "'" ++ text ++ "' is a reserved keyword"
    else "'" ++ text ++ "' is a reserved symbol"
  | .unknownOperator text => "Unknown operator: '" ++ text ++ "'"
  | .assignToConstant name =>
    if name.isEmpty then "Cannot assign to a constant value" else "Cannot assign to constant " ++ name
  | .badTarget => "Expression cannot be assigned to"
  | .strayBreak => "Break statement should only be used inside a loop"
  | .strayFunction =>
    "Function definitions must be at global level and cannot be inside a block or another function"
  | .strayExport => "Export statement can only appear at global level"
  | .functionName => "Expecting function name in function declaration"
  | .functionParams name => "Expecting parameters for function " ++ name
  | .functionBody name => "Expecting body statement block for function " ++ name
  | .duplicateParam function param => "Duplicated parameter " ++ param ++ " for function " ++ function
  | .duplicateFunction name 0 => "Function " ++ name ++ " already exists"
  | .duplicateFunction name 1 => "Function " ++ name ++ " with 1 parameter already exists"
  | .duplicateFunction name n => "Function " ++ name ++ " with " ++ toString n ++ " parameters already exists"
  | .defaultNotLast => "Default switch case must be the last"
  | .defaultCondition => "This switch case cannot have a condition"
  | .integerAfterRange => "Integer switch case cannot follow a range case"
  | .tooDeep => "Expression exceeds maximum complexity"
  | .tooLarge what limit => what ++ " exceeds the maximum limit (" ++ toString limit ++ ")"
  | .badIndex message => message

/-- A parse error and its place. -/
structure ParseError where
  fault : ParseFault
  pos : Pos
deriving DecidableEq, Repr

end ScriptAgent.Script
