import ScriptAgent.Ids
import ScriptAgent.Instrument.Names
import ScriptAgent.Iteration
import ScriptAgent.Prompt.System
import ScriptAgent.Snapshot
import ScriptAgent.Text.Case

/-!
# Contexts

A context is all that the loop needs from one turn to the next: what scripts may use, the variables
they leave behind, what the model is told next, and the history.
-/

namespace ScriptAgent

/-- What governs a run. -/
structure ContextOptions where
  /-- How many turns an attempt may take. -/
  loopLimit : Nat := 3
  /-- A single, widened. -/
  temperature : Float := Number.toSingle 0.7
  model : String := "claude-sonnet-4-20250514"

/-- The state of a conversation. -/
structure Context where
  id : String
  instructions : String := ""
  options : ContextOptions := {}
  /-- What scripts find as global variables. -/
  «variables» : Dict Json := []
  objects : List ObjectInstance := []
  tools : List Tool := []
  exits : List Exit := []
  transcript : List Message := []
  iterations : List Iteration := []
  /-- What the model is told besides the first messages. -/
  pending : List Message := []
  /-- How many turns were begun since the last success. -/
  attempt : Nat := 0
  convention : Convention := .current
  /-- What the next run goes on from. -/
  resume : Option Snapshot := none
  /-- What the next iteration records first. -/
  correlation : Option Signal := none

namespace Context

/-! ### Validity -/

/-- A name between quotes. -/
def inQuotes (name : String) : String :=
  "\"" ++ name ++ "\""

/-- Checks names that scripts find as globals, given those before; all names together. -/
def checkGlobals (seen : List String) : List String → Except String (List String)
  | [] => .ok seen
  | name :: rest =>
    if !isIdentifier name then .error (inQuotes name ++ " is not a valid identifier")
    else if isReserved name then .error (inQuotes name ++ " is a reserved name")
    else if seen.contains name then .error (inQuotes name ++ " is defined more than once")
    else checkGlobals (seen ++ [name]) rest

/-- Checks names of exits, given those before in lower case. -/
def checkExits (seen : List String) : List String → Except String Unit
  | [] => .ok ()
  | name :: rest =>
    if isReserved name then .error ("Exit " ++ inQuotes name ++ " is a reserved name")
    else if seen.contains (Text.lower name) then .error ("Exit " ++ inQuotes name ++ " is defined more than once")
    else checkExits (seen ++ [Text.lower name]) rest

/-- Checks the names of variables, given the other globals. -/
def checkVariables (globals : List String) : List String → Except String Unit
  | [] => .ok ()
  | name :: rest =>
    if !isIdentifier name || isReserved name || globals.contains name then
      .error ("Variable " ++ inQuotes name ++ " cannot be injected")
    else checkVariables globals rest

/-- The names of tools and of objects. -/
def globalNames (c : Context) : List String :=
  c.tools.flatMap Tool.names ++ c.objects.map (·.name)

/-- Why a context is refused, if it is. -/
def check (c : Context) : Except String Unit := do
  if c.options.loopLimit == 0 then throw "loop limit must be at least 1"
  let globals ← checkGlobals [] c.globalNames
  checkExits [] (c.exits.flatMap Exit.names)
  checkVariables globals (Dict.keys c.variables)

/-- Refuses a context with names that hide each other or what scripts always find. -/
def validate (c : Context) : Except RunError Unit :=
  match c.check with
  | .ok () => .ok ()
  | .error message => .error (.invalidContext message)

/-! ### Steps of the loop -/

/-- What the first messages are made of. -/
def promptInputs (c : Context) : PromptInputs where
  instructions := c.instructions
  objects := c.objects
  tools := c.tools
  exits := c.exits
  transcript := c.transcript

/-- The name of the next iteration. -/
def nextId (c : Context) : String :=
  Ids.iteration c.id (c.iterations.length + 1)

/-- One more turn is begun. -/
def beginTurn (c : Context) : Context :=
  { c with attempt := c.attempt + 1 }

/-- One more iteration in the history. -/
def record (c : Context) (i : Iteration) : Context :=
  { c with iterations := c.iterations ++ [i] }

/-- More to tell the model. -/
def tell (c : Context) (ms : List Message) : Context :=
  { c with pending := c.pending ++ ms }

/-- An attempt has succeeded. -/
def finishAttempt (c : Context) : Context :=
  { c with pending := [], attempt := 0 }

/-- Values put over those of variables. -/
def carry (c : Context) (values : Dict Json) : Context :=
  { c with «variables» := Dict.overlay c.variables values }

/-- The objects after the mutations of a run. -/
def reconcile (c : Context) (ms : List Mutation) : Context :=
  { c with objects := c.objects.map (·.reconcile ms) }

/-- The latest iteration. -/
def lastIteration? (c : Context) : Option Iteration :=
  c.iterations.getLast?

end Context

end ScriptAgent
