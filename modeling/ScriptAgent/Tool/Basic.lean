import ScriptAgent.Signal
import ScriptAgent.Trace

/-!
# Tools

A tool is a host function that scripts may call, with its names and its schemas.  A handler is a
function of the input, of who calls, and of how often the tool was called before.
-/

namespace ScriptAgent

/-- What a handler learns about a call besides its input. -/
structure CallContext where
  callId : String
  tool : String
  /-- The owner, for a tool that is called as a method. -/
  object : Option String

/-- How a call of a tool ended. -/
inductive ToolOutcome where
  | value (v : Json)
  | failed (message : String)
  | signal (s : Signal)

/-- One run of a handler. -/
structure ToolRun where
  /-- How it ended; none if it never returns. -/
  outcome : Option ToolOutcome
  /-- How long it took. -/
  duration : Millis := 0
  /-- The reason with which it fired the abort latch. -/
  fires : Option String := none

/-- A host function. -/
abbrev Handler := Json → CallContext → Nat → ToolRun

/-- A host function exposed to scripts. -/
structure Tool where
  name : String
  aliases : List String := []
  description : String := ""
  inputSchema : Option Json := none
  outputSchema : Option Json := none
  handler : Handler
  /-- Tells the call counts of tools apart. -/
  key : Nat := 0

namespace Tool

/-- The name and the aliases. -/
def names (t : Tool) : List String :=
  t.name :: t.aliases

/-- Whether the tool answers to a name. -/
def answersTo (t : Tool) (name : String) : Bool :=
  t.names.contains name

/-- The tool as it is shown to the model. -/
def describe (t : Tool) : Json :=
  .recordOf [("name", some (.str t.name)), ("description", some (.str t.description)),
    ("aliases", if t.aliases.isEmpty then none else some (.arr (t.aliases.map .str))),
    ("input", t.inputSchema), ("output", t.outputSchema)]

end Tool

end ScriptAgent
