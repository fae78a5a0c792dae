import ScriptAgent.Json.Equality
import ScriptAgent.Json.Printer
import ScriptAgent.Schema.Basic

/-!
# Checking values against schemas

`Schema.check` finds the first place where a value breaks its schema; `Schema.fill` puts declared
defaults where a value is null or missing; `Schema.parse` fills and then checks.
-/

namespace ScriptAgent

/-- One step down into a value. -/
inductive PathStep where
  | field (key : String)
  | item (index : Nat)
deriving DecidableEq, Repr

/-- The steps to a place in a value, the last one first. -/
abbrev Path := List PathStep

namespace Path

/-- A place as a text, the whole value being `$`. -/
def render : Path → String
  | [] => "$"
  | .field key :: outer => render outer ++ "." ++ key
  | .item index :: outer => render outer ++ "[" ++ toString index ++ "]"

end Path

/-- Why a value does not satisfy a schema. -/
inductive Violation where
  | forbidden
  | noAlternative
  | wrongType (expected : List String) (actual : String)
  | notAmong (choices : List Json)
  | notEqual (constant : Json)
  | below (bound : Float)
  | above (bound : Float)
  | notAbove (bound : Float)
  | notBelow (bound : Float)
  | tooShort (length : Nat)
  | tooLong (length : Nat)
  | tooFew (count : Nat)
  | tooMany (count : Nat)
  | missing (field : String)
  | unexpected (field : String)

/-- The text of a violation. -/
def Violation.message : Violation → String
  | .forbidden => "no value is allowed here"
  | .noAlternative => "does not match any allowed schema"
  | .wrongType expected actual => "expected " ++ " or ".intercalate expected ++ ", got " ++ actual
  | .notAmong choices => "must be one of " ++ ", ".intercalate (choices.map Json.compact)
  | .notEqual constant => "must equal " ++ constant.compact
  | .below bound => "must be >= " ++ Number.plainStyle.render bound
  | .above bound => "must be <= " ++ Number.plainStyle.render bound
  | .notAbove bound => "must be > " ++ Number.plainStyle.render bound
  | .notBelow bound => "must be < " ++ Number.plainStyle.render bound
  | .tooShort length => "must be at least " ++ toString length ++ " characters"
  | .tooLong length => "must be at most " ++ toString length ++ " characters"
  | .tooFew count => "must have at least " ++ toString count ++ " items"
  | .tooMany count => "must have at most " ++ toString count ++ " items"
  | .missing field => "missing required field: " ++ field
  | .unexpected field => "unexpected field: " ++ field

/-- A violation and the place it was found at. -/
structure SchemaError where
  path : Path
  violation : Violation

/-- The place and the text of a violation. -/
def SchemaError.render (e : SchemaError) : String :=
  e.path.render ++ ": " ++ e.violation.message

/-- The name of the type of a value. -/
def Json.typeName : Json → String
  | .null => "null"
  | .bool _ => "boolean"
  | .num _ => "number"
  | .str _ => "string"
  | .arr _ => "array"
  | .obj _ => "object"

/-- Whether a value is of the named type; an unknown name admits every value. -/
def Json.hasType (v : Json) (name : String) : Bool :=
  if name == "integer" then
    match v with
    | .num n => n.isWhole
    | _ => false
  else if ["string", "number", "boolean", "object", "array", "null"].contains name then v.typeName == name
  else true

namespace SimpleRules

/-- The rules that look at the value as a whole. -/
def checkWhole (r : SimpleRules) (path : Path) (v : Json) : Except SchemaError Unit := do
  if !r.types.isEmpty && !r.types.any v.hasType then
    throw ⟨path, .wrongType r.types v.typeName⟩
  if let some choices := r.choices then
    if !choices.any (Json.same · v) then throw ⟨path, .notAmong choices⟩
  if let some constant := r.constant then
    if !Json.same constant v then throw ⟨path, .notEqual constant⟩

/-- The bounds on a number. -/
def checkNumber (r : SimpleRules) (path : Path) (n : Float) : Except SchemaError Unit := do
  if let some bound := r.minimum then
    if n < bound then throw ⟨path, .below bound⟩
  if let some bound := r.maximum then
    if n > bound then throw ⟨path, .above bound⟩
  if let some bound := r.exclusiveMinimum then
    if n ≤ bound then throw ⟨path, .notAbove bound⟩
  if let some bound := r.exclusiveMaximum then
    if n ≥ bound then throw ⟨path, .notBelow bound⟩

/-- The bounds on the length of a text. -/
def checkLength (r : SimpleRules) (path : Path) (length : Nat) : Except SchemaError Unit := do
  if let some bound := r.minLength then
    if length < bound then throw ⟨path, .tooShort bound⟩
  if let some bound := r.maxLength then
    if length > bound then throw ⟨path, .tooLong bound⟩

/-- The bounds on the number of items. -/
def checkCount (r : SimpleRules) (path : Path) (count : Nat) : Except SchemaError Unit := do
  if let some bound := r.minItems then
    if count < bound then throw ⟨path, .tooFew bound⟩
  if let some bound := r.maxItems then
    if count > bound then throw ⟨path, .tooMany bound⟩

/-- The required fields. -/
def checkRequired (r : SimpleRules) (path : Path) (fields : Dict Json) : Except SchemaError Unit := do
  match r.required.find? fun key => !fields.contains key with
  | some key => throw ⟨path, .missing key⟩
  | none => return

end SimpleRules

/-- Runs a check on every item of a list, with its place. -/
def checkEach (check : Path → Json → Except SchemaError Unit) (path : Path) :
    Nat → List Json → Except SchemaError Unit
  | _, [] => .ok ()
  | index, v :: vs => do
    check (.item index :: path) v
    checkEach check path (index + 1) vs

/-- Runs a check on every field of an object. -/
def checkFields (check : String → Json → Except SchemaError Unit) :
    List (String × Json) → Except SchemaError Unit
  | [] => .ok ()
  | (key, v) :: rest => do
    check key v
    checkFields check rest

namespace Schema

mutual

/-- The first violation of a schema by the value at a place. -/
def check (path : Path) (v : Json) : Schema → Except SchemaError Unit
  | .anything => .ok ()
  | .nothing => .error ⟨path, .forbidden⟩
  | .rules simple anyOf oneOf items properties extra => do
    match anyOf with
    | some options => if !admitsAny path v options then throw ⟨path, .noAlternative⟩
    | none => pure ()
    match oneOf with
    | some options => if !admitsAny path v options then throw ⟨path, .noAlternative⟩
    | none => pure ()
    simple.checkWhole path v
    match v with
    | .num n => simple.checkNumber path n.toFloat
    | .str s => simple.checkLength path s.length
    | .arr vs =>
      simple.checkCount path vs.length
      match items with
      | some schema => checkEach (fun place item => check place item schema) path 0 vs
      | none => pure ()
    | .obj fields =>
      simple.checkRequired path fields
      checkFields (fun key item =>
        let undeclared : Except SchemaError Unit :=
          if simple.closed then throw ⟨path, .unexpected key⟩
          else
            match extra with
            | some schema => check (.field key :: path) item schema
            | none => pure ()
        match properties with
        | some declared => checkDeclared path key item undeclared declared
        | none => undeclared) fields
    | _ => pure ()

/-- Whether one of the schemas admits the value. -/
def admitsAny (path : Path) (v : Json) : List Schema → Bool
  | [] => false
  | s :: rest => (check path v s).isOk || admitsAny path v rest

/-- Checks a field by its declaration, if it has one. -/
def checkDeclared (path : Path) (key : String) (v : Json) (undeclared : Except SchemaError Unit) :
    List (String × Schema) → Except SchemaError Unit
  | [] => undeclared
  | (k, schema) :: rest =>
    if k == key then check (.field key :: path) v schema else checkDeclared path key v undeclared rest

end

mutual

/-- The value with declared defaults in the place of nulls and missing fields. -/
def fill (v : Json) : Schema → Json
  | .anything => v
  | .nothing => v
  | .rules simple _ _ _ properties _ =>
    match v, simple.default with
    | .null, some default => default
    | .obj fields, _ =>
      match properties with
      | some declared => .obj (fillFields fields declared)
      | none => v
    | _, _ => v

/-- The fields of an object, each declared one filled in. -/
def fillFields (fields : Dict Json) : List (String × Schema) → Dict Json
  | [] => fields
  | (key, schema) :: rest =>
    match fields.get? key, schema.default? with
    | some current, _ => fillFields (fields.insert key (fill current schema)) rest
    | none, some default => fillFields (fields.insert key default) rest
    | none, none => fillFields fields rest

end

end Schema

/-- Checks a value against a schema in its JSON form. -/
def validate (schema v : Json) : Except SchemaError Unit :=
  (Schema.ofJson schema).check [] v

/-- Fills in defaults and checks the result. -/
def parseWith (schema v : Json) : Except SchemaError Json := do
  let filled := (Schema.ofJson schema).fill v
  validate schema filled
  return filled

end ScriptAgent
