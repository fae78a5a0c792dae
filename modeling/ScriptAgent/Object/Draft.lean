import ScriptAgent.Object.Instance

/-!
# Drafts of objects

A run works on a draft of each object.  A draft keeps the values from before the run and lists one
mutation for each property that was changed, in the order of the first changes.
-/

namespace ScriptAgent

/-- A working copy of an object. -/
structure Draft where
  name : String
  tools : List Tool
  properties : List Property
  /-- The values from before the run. -/
  initial : Dict Json
  mutations : List Mutation

namespace Draft

/-- The draft a run starts from. -/
def ofInstance (o : ObjectInstance) : Draft :=
  { name := o.name, tools := o.tools, properties := o.properties
    initial := Dict.ofList (o.properties.map fun p => (p.name, p.value)), mutations := [] }

/-- The tool that answers to a name. -/
def tool? (d : Draft) (name : String) : Option Tool :=
  d.tools.find? (·.answersTo name)

/-- A property by name. -/
def property? (d : Draft) (name : String) : Option Property :=
  d.properties.find? (·.name == name)

/-- Whether a property is declared. -/
def has (d : Draft) (name : String) : Bool :=
  (d.property? name).isSome

/-- The value of a property. -/
def get (d : Draft) (name : String) : Except ObjectError Json :=
  match d.property? name with
  | some p => .ok p.value
  | none => .error (.unknownProperty d.name name)

/-- The mutations after a change of a property. -/
def noteChange (m : Mutation) : List Mutation → List Mutation
  | [] => [m]
  | n :: rest =>
    if n.property == m.property then { n with after := m.after } :: rest else n :: noteChange m rest

/-- Writes a property: the draft after it, and the value stored if it is a new one. -/
def set (d : Draft) (name : String) (value : Json) : Except ObjectError (Draft × Option Json) := do
  match d.property? name with
  | none => throw (.unknownProperty d.name name)
  | some p =>
    if !p.writable then throw (.readOnly d.name name)
    let value ← match p.schema with
      | none => pure value
      | some schema =>
        match parseWith schema value with
        | .ok v => pure v
        | .error e => throw (.schemaViolation d.name name e)
    if Json.same p.value value then return (d, none)
    let m : Mutation := ⟨d.name, name, (d.initial.get? name).getD .null, value⟩
    return ({ d with
      properties := ObjectInstance.setValue name value d.properties
      mutations := noteChange m d.mutations }, some value)

/-- The values by name. -/
def values (d : Draft) : Dict Json :=
  Dict.ofList (d.properties.map fun p => (p.name, p.value))

end Draft

end ScriptAgent
