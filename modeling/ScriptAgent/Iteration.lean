import ScriptAgent.Model.Message
import ScriptAgent.Object.Instance
import ScriptAgent.Trace

/-!
# Iterations

An iteration records one turn of the loop: what the model was sent, what it wrote, and what came of
it.  Records are kept in a history and never change.
-/

namespace ScriptAgent

/-- How an iteration ended. -/
inductive IterationStatus where
  | success
  /-- The model asked to think again. -/
  | incomplete
  | failed
deriving DecidableEq, Repr

namespace IterationStatus

/-- The name of a status. -/
def name : IterationStatus → String
  | success => "success"
  | incomplete => "partial"
  | failed => "error"

/-- The status of a name. -/
def ofName? (s : String) : Option IterationStatus :=
  [success, incomplete, failed].find? (·.name == s)

end IterationStatus

/-- Why an iteration failed. -/
inductive IterationError where
  | invalidCode (message : String)
  | codeExecution (message stack : String)
  | assignment (message stack : String)
  | timeout (millis : Nat)
  | memoryLimit (bytes : Nat)
  | aborted (reason : String)
  | exit (action message : String)
  | generation (message : String)
deriving DecidableEq, Repr

namespace IterationError

/-- The text of an error. -/
def message : IterationError → String
  | invalidCode message => "Invalid code: " ++ message
  | codeExecution message _ => message
  | assignment message _ => "Assignment error: " ++ message
  | timeout millis => "Execution timed out after " ++ toString millis ++ " ms"
  | memoryLimit bytes => "Execution exceeded the memory limit of " ++ toString bytes ++ " bytes"
  | aborted reason => "Execution aborted: " ++ reason
  | exit action message => "Invalid return statement (action: " ++ action ++ "): " ++ message
  | generation message => "Generation failed: " ++ message

/-- The excerpt of the script that belongs to an error. -/
def stack : IterationError → Option String
  | codeExecution _ stack | assignment _ stack => some stack
  | _ => none

/-- The JSON form of an error, its kind under `kind`. -/
def toJson : IterationError → Json
  | invalidCode message => .object [("kind", .str "invalid_code"), ("message", .str message)]
  | codeExecution message stack =>
    .object [("kind", .str "code_execution"), ("message", .str message), ("stack", .str stack)]
  | assignment message stack =>
    .object [("kind", .str "assignment"), ("message", .str message), ("stack", .str stack)]
  | timeout millis => .object [("kind", .str "timeout"), ("timeout_ms", .nat millis)]
  | memoryLimit bytes => .object [("kind", .str "memory_limit"), ("limit_bytes", .nat bytes)]
  | aborted reason => .object [("kind", .str "aborted"), ("reason", .str reason)]
  | exit action message =>
    .object [("kind", .str "exit"), ("action", .str action), ("message", .str message)]
  | generation message => .object [("kind", .str "generation"), ("message", .str message)]

/-- Reads an error. -/
def ofJson? (v : Json) : Option IterationError := do
  let text (key : String) : Option String := v.required key Json.str?
  match ← text "kind" with
  | "invalid_code" => return invalidCode (← text "message")
  | "code_execution" => return codeExecution (← text "message") (← text "stack")
  | "assignment" => return assignment (← text "message") (← text "stack")
  | "timeout" => return timeout (← v.required "timeout_ms" Json.word64?)
  | "memory_limit" => return memoryLimit (← v.required "limit_bytes" Json.word64?)
  | "aborted" => return aborted (← text "reason")
  | "exit" => return exit (← text "action") (← text "message")
  | "generation" => return generation (← text "message")
  | _ => none

end IterationError

/-- The call of the model that an iteration began with. -/
structure ModelCall where
  id : String
  model : String
  startedAt : Millis
  endedAt : Millis
  usage : Usage
  cost : Float
  cached : Bool
  /-- What the model wrote, as it came. -/
  output : String

namespace ModelCall

/-- The JSON form of a call. -/
def toJson (c : ModelCall) : Json :=
  .object [("id", .str c.id), ("model", .str c.model), ("started_at", .nat c.startedAt),
    ("ended_at", .nat c.endedAt), ("input_tokens", .nat c.usage.input), ("output_tokens", .nat c.usage.output),
    ("cost", .float c.cost), ("cached", .bool c.cached), ("output", .str c.output)]

/-- Reads a call. -/
def ofJson? (v : Json) : Option ModelCall := do
  return {
    id := ← v.required "id" Json.str?
    model := ← v.required "model" Json.str?
    startedAt := ← v.required "started_at" Json.word64?
    endedAt := ← v.required "ended_at" Json.word64?
    usage := ← Usage.ofJson? v
    cost := ← v.required "cost" Json.float?
    cached := ← v.required "cached" Json.bool?
    output := ← v.required "output" Json.str? }

end ModelCall

/-- One turn of the loop. -/
structure Iteration where
  id : String
  code : Option String := none
  status : IterationStatus := .success
  /-- The latest values of variables. -/
  «variables» : Dict Json := []
  signal : Option Signal := none
  mutations : List Mutation := []
  call : Option ModelCall := none
  traces : List Trace := []
  error : Option IterationError := none
  /-- The exit that was taken. -/
  exit : Option String := none
  returnValue : Option Json := none
  /-- What the model was sent. -/
  messages : List Message := []
  startedAt : Millis
  endedAt : Millis

namespace Iteration

/-- Whether the iteration reached what it was to reach. -/
def isSuccess (i : Iteration) : Bool :=
  i.status == .success

/-- Whether the iteration was interrupted. -/
def isInterrupted (i : Iteration) : Bool :=
  i.signal.any Signal.isInterrupt

/-- How long the iteration took. -/
def duration (i : Iteration) : Millis :=
  i.endedAt - i.startedAt

/-- The traces of one type. -/
def tracesOf (i : Iteration) (typeName : String) : List Trace :=
  i.traces.filter (·.typeName == typeName)

/-- The JSON form of an iteration. -/
def toJson (i : Iteration) : Json :=
  .recordOf [("id", some (.str i.id)), ("code", i.code.map .str), ("status", some (.str i.status.name)),
    ("variables", some (.obj i.variables)), ("signal", i.signal.map Signal.toJson),
    ("mutations", some (.arr (i.mutations.map Mutation.toJson))), ("llm", i.call.map ModelCall.toJson),
    ("traces", some (.arr (i.traces.map Trace.toJson))), ("error", i.error.map IterationError.toJson),
    ("exit", i.exit.map .str), ("return_value", i.returnValue),
    ("messages", some (.arr (i.messages.map Message.toJson))), ("started_at", some (.nat i.startedAt)),
    ("ended_at", some (.nat i.endedAt))]

/-- Reads an iteration. -/
def ofJson? (v : Json) : Option Iteration := do
  return {
    id := ← v.required "id" Json.str?
    code := ← v.optional "code" Json.str?
    status := ← v.required "status" fun s => s.str?.bind IterationStatus.ofName?
    «variables» := ← v.withDefault "variables" (Json.dict? Json.any?) []
    signal := ← v.optional "signal" Signal.ofJson?
    mutations := ← v.withDefault "mutations" (Json.list? Mutation.ofJson?) []
    call := ← v.optional "llm" ModelCall.ofJson?
    traces := ← v.withDefault "traces" (Json.list? Trace.ofJson?) []
    error := ← v.optional "error" IterationError.ofJson?
    exit := ← v.optional "exit" Json.str?
    returnValue := ← v.optional "return_value" Json.any?
    messages := ← v.withDefault "messages" (Json.list? Message.ofJson?) []
    startedAt := ← v.required "started_at" Json.word64?
    endedAt := ← v.required "ended_at" Json.word64? }

end Iteration

end ScriptAgent
