import ScriptAgent.Json.Decode
import ScriptAgent.Schema.Check
import ScriptAgent.Text.Case

/-!
# Exits

An exit is a named action that ends the loop, with a schema for the value returned.
-/

namespace ScriptAgent

/-- A final action. -/
structure Exit where
  name : String
  aliases : List String := []
  description : String := ""
  schema : Option Json := none

namespace Exit

/-- The name and the aliases. -/
def names (e : Exit) : List String :=
  e.name :: e.aliases

/-- Whether an action names the exit; ASCII capitals and small letters are not told apart. -/
def matchesAction (e : Exit) (action : String) : Bool :=
  e.names.any (Text.sameIgnoringAsciiCase · action)

/-- The returned value with defaults filled in, if the schema admits it. -/
def parseValue (e : Exit) (v : Json) : Except SchemaError Json :=
  match e.schema with
  | some schema => parseWith schema v
  | none => .ok v

/-- The JSON form of an exit. -/
def toJson (e : Exit) : Json :=
  .recordOf [("name", some (.str e.name)),
    ("aliases", if e.aliases.isEmpty then none else some (.arr (e.aliases.map .str))),
    ("description", some (.str e.description)), ("schema", e.schema)]

/-- Reads an exit. -/
def ofJson? (v : Json) : Option Exit := do
  return {
    name := ← v.required "name" Json.str?
    aliases := ← v.withDefault "aliases" (Json.list? Json.str?) []
    description := ← v.withDefault "description" Json.str? ""
    schema := ← v.optional "schema" Json.any? }

end Exit

end ScriptAgent
