import ScriptAgent.Instrument.Names
import ScriptAgent.Schema.Check
import ScriptAgent.Tool.Basic

/-!
# Host objects

An object has a fixed set of properties and tools.  Only the values of properties change, and only
by taking over the mutations of a run.
-/

namespace ScriptAgent

/-- A changed property: its value before a run and its latest value. -/
structure Mutation where
  object : String
  property : String
  before : Json
  after : Json

namespace Mutation

/-- The name of the changed slot. -/
def key (m : Mutation) : String :=
  m.object ++ ":" ++ m.property

/-- The JSON form of a mutation. -/
def toJson (m : Mutation) : Json :=
  .object [("object", .str m.object), ("property", .str m.property), ("before", m.before), ("after", m.after)]

/-- Reads a mutation. -/
def ofJson? (v : Json) : Option Mutation := do
  return ⟨← v.required "object" Json.str?, ← v.required "property" Json.str?,
    ← v.required "before" Json.any?, ← v.required "after" Json.any?⟩

end Mutation

/-- A declared property. -/
structure Property where
  name : String
  value : Json
  writable : Bool := true
  schema : Option Json := none
  description : Option String := none

namespace Property

/-- The JSON form of a property. -/
def toJson (p : Property) : Json :=
  .recordOf [("name", some (.str p.name)), ("value", some p.value), ("writable", some (.bool p.writable)),
    ("schema", p.schema), ("description", p.description.map .str)]

/-- Reads a property. -/
def ofJson? (v : Json) : Option Property := do
  return {
    name := ← v.required "name" Json.str?
    value := ← v.required "value" Json.any?
    writable := ← v.withDefault "writable" Json.bool? true
    schema := ← v.optional "schema" Json.any?
    description := ← v.optional "description" Json.str? }

/-- The property as it is shown to the model. -/
def describe (p : Property) : Json :=
  .object [("name", .str p.name), ("value", p.value), ("writable", .bool p.writable),
    ("schema", p.schema.getD .null), ("description", Json.optStr p.description)]

end Property

/-- Why an object is refused, or an access to it. -/
inductive ObjectError where
  | invalidName (name : String)
  | duplicateMember (object member : String)
  | tooManyProperties (object : String) (count : Nat)
  | unknownProperty (object property : String)
  | readOnly (object property : String)
  | schemaViolation (object property : String) (cause : SchemaError)

/-- How many properties an object may declare. -/
def maxProperties : Nat := 100

/-- The text of an object error. -/
def ObjectError.message : ObjectError → String
  | .invalidName name => "Invalid name: " ++ name
  | .duplicateMember object member => "Object " ++ object ++ " declares " ++ member ++ " more than once"
  | .tooManyProperties object count =>
    "Object " ++ object ++ " has " ++ toString count ++ " properties (max " ++ toString maxProperties ++ ")"
  | .unknownProperty object property => "Cannot add property " ++ property ++ " to sealed object " ++ object
  | .readOnly object property => "Property " ++ object ++ "." ++ property ++ " is not writable"
  | .schemaViolation object property cause =>
    "Invalid value for " ++ object ++ "." ++ property ++ ": " ++ cause.render

/-- A host object. -/
structure ObjectInstance where
  name : String
  description : Option String := none
  properties : List Property := []
  tools : List Tool := []

namespace ObjectInstance

/-- Checks the properties of an object one after the other, `seen` holding the names before. -/
def checkProperties (object : String) : List String → List Property → Except ObjectError (List String)
  | seen, [] => .ok seen
  | seen, p :: rest => do
    if !isIdentifier p.name then throw (.invalidName (object ++ "." ++ p.name))
    if seen.contains p.name then throw (.duplicateMember object p.name)
    match p.schema with
    | some schema =>
      match validate schema p.value with
      | .ok _ => checkProperties object (seen ++ [p.name]) rest
      | .error e => throw (.schemaViolation object p.name e)
    | none => checkProperties object (seen ++ [p.name]) rest

/-- Checks that names are new. -/
def checkNames (object : String) : List String → List String → Except ObjectError Unit
  | _, [] => .ok ()
  | seen, name :: rest =>
    if seen.contains name then throw (.duplicateMember object name)
    else checkNames object (seen ++ [name]) rest

/-- The object, if its names are names, no member is declared twice, and every value satisfies its
schema. -/
def build (o : ObjectInstance) : Except ObjectError ObjectInstance := do
  if !isIdentifier o.name then throw (.invalidName o.name)
  if o.properties.length > maxProperties then throw (.tooManyProperties o.name o.properties.length)
  let seen ← checkProperties o.name [] o.properties
  checkNames o.name seen (o.tools.flatMap Tool.names)
  return o

/-- A property by name. -/
def property? (o : ObjectInstance) (name : String) : Option Property :=
  o.properties.find? (·.name == name)

/-- The value of a property. -/
def get? (o : ObjectInstance) (name : String) : Option Json :=
  (o.property? name).map (·.value)

/-- The properties with one value replaced. -/
def setValue (name : String) (value : Json) : List Property → List Property
  | [] => []
  | p :: rest => if p.name == name then { p with value := value } :: rest else p :: setValue name value rest

/-- The object after a mutation; one of another object changes nothing. -/
def apply (o : ObjectInstance) (m : Mutation) : ObjectInstance :=
  if m.object == o.name then { o with properties := setValue m.property m.after o.properties } else o

/-- The object after mutations in order. -/
def reconcile (o : ObjectInstance) (ms : List Mutation) : ObjectInstance :=
  ms.foldl apply o

/-- The object as it is shown to the model. -/
def describe (o : ObjectInstance) : Json :=
  .object [("name", .str o.name), ("description", Json.optStr o.description),
    ("properties", .arr (o.properties.map Property.describe)), ("tools", .arr (o.tools.map Tool.describe))]

end ObjectInstance

end ScriptAgent
