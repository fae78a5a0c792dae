import ScriptAgent.Json.Basic

/-!
# Schemas

A schema is read once from its JSON form.  Keywords with values of the wrong kind, and keywords
that are not known, ask for nothing.
-/

namespace ScriptAgent

/-- What a schema asks of a value without looking at other schemas. -/
structure SimpleRules where
  /-- Names of the admitted types; an empty list admits all. -/
  types : List String := []
  choices : Option (List Json) := none
  constant : Option Json := none
  minimum : Option Float := none
  maximum : Option Float := none
  exclusiveMinimum : Option Float := none
  exclusiveMaximum : Option Float := none
  minLength : Option Nat := none
  maxLength : Option Nat := none
  minItems : Option Nat := none
  maxItems : Option Nat := none
  /-- Fields an object must have. -/
  required : List String := []
  /-- Whether an object may have no fields but the declared ones. -/
  closed : Bool := false
  /-- What stands for a null or for a missing field. -/
  default : Option Json := none

/-- The simple rules with one keyword taken in. -/
def SimpleRules.withKeyword (r : SimpleRules) (key : String) (v : Json) : SimpleRules :=
  if key == "type" then
    match v with
    | .str name => { r with types := [name] }
    | .arr names => { r with types := names.filterMap Json.str? }
    | _ => r
  else if key == "enum" then { r with choices := v.items? }
  else if key == "const" then { r with constant := some v }
  else if key == "minimum" then { r with minimum := v.float? }
  else if key == "maximum" then { r with maximum := v.float? }
  else if key == "exclusiveMinimum" then { r with exclusiveMinimum := v.float? }
  else if key == "exclusiveMaximum" then { r with exclusiveMaximum := v.float? }
  else if key == "minLength" then { r with minLength := v.nat? }
  else if key == "maxLength" then { r with maxLength := v.nat? }
  else if key == "minItems" then { r with minItems := v.nat? }
  else if key == "maxItems" then { r with maxItems := v.nat? }
  else if key == "required" then { r with required := (v.items?.getD []).filterMap Json.str? }
  else if key == "default" then { r with default := some v }
  else r

/-- A schema. -/
inductive Schema where
  | anything
  | nothing
  | rules (simple : SimpleRules) (anyOf oneOf : Option (List Schema)) (items : Option Schema)
      (properties : Option (List (String × Schema))) (extra : Option Schema)

namespace Schema

/-- The parts of a schema collected from its keywords. -/
structure Parts where
  simple : SimpleRules := {}
  anyOf : Option (List Schema) := none
  oneOf : Option (List Schema) := none
  items : Option Schema := none
  properties : Option (List (String × Schema)) := none
  extra : Option Schema := none

/-- The schema made of the parts. -/
def Parts.toSchema (p : Parts) : Schema :=
  .rules p.simple p.anyOf p.oneOf p.items p.properties p.extra

mutual

/-- The schema a JSON value stands for. -/
def ofJson : Json → Schema
  | .bool false => .nothing
  | .obj fields => (ofKeywords fields).toSchema
  | _ => .anything

/-- The schemas of a list. -/
def ofItems : List Json → List Schema
  | [] => []
  | v :: vs => ofJson v :: ofItems vs

/-- The schemas of declared fields. -/
def ofFields : List (String × Json) → List (String × Schema)
  | [] => []
  | (key, v) :: rest => (key, ofJson v) :: ofFields rest

/-- The parts that the keywords of a schema object name. -/
def ofKeywords : List (String × Json) → Parts
  | [] => {}
  | (key, v) :: rest =>
    let parts := ofKeywords rest
    if key == "anyOf" then
      match v with
      | .arr options => { parts with anyOf := some (ofItems options) }
      | _ => parts
    else if key == "oneOf" then
      match v with
      | .arr options => { parts with oneOf := some (ofItems options) }
      | _ => parts
    else if key == "items" then { parts with items := some (ofJson v) }
    else if key == "properties" then
      match v with
      | .obj declared => { parts with properties := some (ofFields declared) }
      | _ => parts
    else if key == "additionalProperties" then
      match v with
      | .bool false => { parts with simple := { parts.simple with closed := true } }
      | .obj keywords => { parts with extra := some (ofKeywords keywords).toSchema }
      | _ => parts
    else { parts with simple := parts.simple.withKeyword key v }

end

/-- The default a schema declares. -/
def default? : Schema → Option Json
  | .rules r .. => r.default
  | _ => none

end Schema

end ScriptAgent
