import ScriptAgent.Instrument.Hooks
import ScriptAgent.Json.Decode

/-!
# Signals

A signal is how a script asks to pause, to hand over, or to think again.  It ends the script but is
no error.  Signals are kept in snapshots, so each has a JSON form that reads back as itself.
-/

namespace ScriptAgent

/-- The call that raised an interrupt. -/
structure ToolCallInfo where
  id : String
  name : String
  object : Option String := none
  inputSchema : Option Json := none
  outputSchema : Option Json := none
  input : Json := .null
  assignment : Option Assignment := none

/-- A request to pause everything until a result is there. -/
structure Interrupt where
  reason : String
  toolCall : Option ToolCallInfo := none
  «variables» : Dict Json := []
  line : Option Nat := none
  stack : Option String := none

/-- What ties a resumed run to the call it waited for. -/
structure Correlation where
  snapshotId : String
  toolCall : Option ToolCallInfo := none
  resolved : Bool
  value : Option Json := none
  error : Option String := none

/-- A request to suspend or to hand over control. -/
inductive Signal where
  | think (reason : String) (context : Option Json)
  | listen (reason : Option String)
  | execute (target : String) (input : Json)
  | transition (target : String) (reason : Option String)
  | interrupt (details : Interrupt)
  | correlation (details : Correlation)

/-- The JSON form of an assignment. -/
def Assignment.toJson (a : Assignment) : Json :=
  .object [("variable", .str a.target), ("callee", .str a.callee), ("line", .nat a.line)]

/-- Reads an assignment. -/
def Assignment.ofJson? (v : Json) : Option Assignment := do
  return ⟨← v.required "variable" Json.str?, ← v.required "callee" Json.str?, ← v.required "line" Json.word32?⟩

/-- The JSON form of a call's details. -/
def ToolCallInfo.toJson (c : ToolCallInfo) : Json :=
  .recordOf [("id", some (.str c.id)), ("name", some (.str c.name)), ("object", c.object.map .str),
    ("input_schema", c.inputSchema), ("output_schema", c.outputSchema), ("input", some c.input),
    ("assignment", c.assignment.map Assignment.toJson)]

/-- Reads a call's details. -/
def ToolCallInfo.ofJson? (v : Json) : Option ToolCallInfo := do
  return {
    id := ← v.required "id" Json.str?
    name := ← v.required "name" Json.str?
    object := ← v.optional "object" Json.str?
    inputSchema := ← v.optional "input_schema" Json.any?
    outputSchema := ← v.optional "output_schema" Json.any?
    input := ← v.withDefault "input" Json.any? .null
    assignment := ← v.optional "assignment" Assignment.ofJson? }

/-- The entries of the JSON form of an interrupt. -/
def Interrupt.entries (d : Interrupt) : List (String × Option Json) :=
  [("reason", some (.str d.reason)), ("tool_call", d.toolCall.map ToolCallInfo.toJson),
    ("variables", some (.obj d.variables)), ("line", d.line.map .nat), ("stack", d.stack.map .str)]

/-- The JSON form of an interrupt. -/
def Interrupt.toJson (d : Interrupt) : Json :=
  .recordOf d.entries

/-- Reads an interrupt. -/
def Interrupt.ofJson? (v : Json) : Option Interrupt := do
  return {
    reason := ← v.required "reason" Json.str?
    toolCall := ← v.optional "tool_call" ToolCallInfo.ofJson?
    «variables» := ← v.withDefault "variables" (Json.dict? Json.any?) []
    line := ← v.optional "line" Json.word32?
    stack := ← v.optional "stack" Json.str? }

namespace Signal

/-- The name of a signal's kind. -/
def kind : Signal → String
  | .think .. => "think"
  | .listen .. => "listen"
  | .execute .. => "execute"
  | .transition .. => "transition"
  | .interrupt .. => "interrupt"
  | .correlation .. => "snapshot_correlation"

/-- Whether a signal suspends everything. -/
def isInterrupt : Signal → Bool
  | .interrupt _ => true
  | _ => false

/-- Whether a signal ends an iteration well without suspending. -/
def isHandoff : Signal → Bool
  | .listen _ | .execute .. | .transition .. => true
  | _ => false

/-- Why a signal was raised, for people. -/
def reason : Signal → String
  | .think reason _ => reason
  | .listen reason => reason.getD "Waiting for input"
  | .execute target _ => "Execute " ++ target
  | .transition target reason => reason.getD ("Transition to " ++ target)
  | .interrupt details => details.reason
  | .correlation details => "Resumed from snapshot " ++ details.snapshotId

/-- The kind and the reason. -/
def render (s : Signal) : String :=
  s.kind ++ " signal: " ++ s.reason

/-- The number of entries a think signal carries on. -/
def contextSize : Option Json → Nat
  | some (.obj fields) => fields.length
  | some .null | none => 0
  | some _ => 1

/-- The JSON form of a signal, its kind under `type`. -/
def toJson (s : Signal) : Json :=
  .recordOf (("type", some (.str s.kind)) ::
    match s with
    | .think reason context => [("reason", some (.str reason)), ("context", context)]
    | .listen reason => [("reason", reason.map .str)]
    | .execute target input => [("target", some (.str target)), ("input", some input)]
    | .transition target reason => [("target", some (.str target)), ("reason", reason.map .str)]
    | .interrupt d => d.entries
    | .correlation d =>
      [("snapshot_id", some (.str d.snapshotId)), ("tool_call", d.toolCall.map ToolCallInfo.toJson),
        ("resolved", some (.bool d.resolved)), ("value", d.value), ("error", d.error.map .str)])

/-- Reads a think signal's parts. -/
def thinkOfJson? (v : Json) : Option Signal := do
  return .think (← v.required "reason" Json.str?) (← v.optional "context" Json.any?)

/-- Reads a signal. -/
def ofJson? (v : Json) : Option Signal := do
  let kind ← v.required "type" Json.str?
  if kind == "think" then thinkOfJson? v
  else if kind == "listen" then return .listen (← v.optional "reason" Json.str?)
  else if kind == "execute" then
    return .execute (← v.required "target" Json.str?) (← v.withDefault "input" Json.any? .null)
  else if kind == "transition" then
    return .transition (← v.required "target" Json.str?) (← v.optional "reason" Json.str?)
  else if kind == "interrupt" then return .interrupt (← Interrupt.ofJson? v)
  else if kind == "snapshot_correlation" then
    return .correlation {
      snapshotId := ← v.required "snapshot_id" Json.str?
      toolCall := ← v.optional "tool_call" ToolCallInfo.ofJson?
      resolved := ← v.required "resolved" Json.bool?
      value := ← v.optional "value" Json.any?
      error := ← v.optional "error" Json.str? }
  else none

end Signal

end ScriptAgent
