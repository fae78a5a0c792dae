import ScriptAgent.Sandbox.Excerpt
import ScriptAgent.Sandbox.Run

/-!
# Executions

An execution is a run as the host sees it: places refer to the script as it was written, an
interrupt carries what is needed to resume, and traces tell how it ended.
-/

namespace ScriptAgent

/-- Why an execution failed. -/
inductive ExecutionError where
  | execution (message stack : String) (line column : Option Nat)
  | assignment (message stack : String) (line : Option Nat)
  | timeout (millis : Nat)
  | memoryLimit (bytes : Nat) (line : Option Nat)
  | aborted (reason : String)
deriving DecidableEq, Repr

namespace ExecutionError

/-- The text of an execution error. -/
def message : ExecutionError → String
  | execution message _ _ _ => message
  | assignment message _ _ => message
  | timeout millis => "Execution timed out after " ++ toString millis ++ " ms"
  | memoryLimit bytes _ => "Execution exceeded the memory limit of " ++ toString bytes ++ " bytes"
  | aborted reason => "Execution aborted: " ++ reason

/-- The name of an error's kind. -/
def kind : ExecutionError → String
  | execution .. => "execution"
  | assignment .. => "assignment"
  | timeout _ => "timeout"
  | memoryLimit .. => "memory_limit"
  | aborted _ => "aborted"

/-- The excerpt that belongs to an error, or nothing. -/
def stack : ExecutionError → String
  | execution _ stack _ _ | assignment _ stack _ => stack
  | _ => ""

/-- The JSON form of an execution error, its kind under `kind`. -/
def toJson (e : ExecutionError) : Json :=
  .recordOf (("kind", some (.str e.kind)) ::
    match e with
    | execution message stack line column =>
      [("message", some (.str message)), ("stack", some (.str stack)), ("line", line.map .nat),
        ("column", column.map .nat)]
    | assignment message stack line =>
      [("message", some (.str message)), ("stack", some (.str stack)), ("line", line.map .nat)]
    | timeout millis => [("timeout_ms", some (.nat millis))]
    | memoryLimit bytes line => [("limit_bytes", some (.nat bytes)), ("line", line.map .nat)]
    | aborted reason => [("reason", some (.str reason))])

/-- Reads an execution error. -/
def ofJson? (v : Json) : Option ExecutionError := do
  let kind ← v.required "kind" Json.str?
  if kind == "execution" then
    return execution (← v.required "message" Json.str?) (← v.required "stack" Json.str?)
      (← v.optional "line" Json.word32?) (← v.optional "column" Json.word32?)
  else if kind == "assignment" then
    return assignment (← v.required "message" Json.str?) (← v.required "stack" Json.str?)
      (← v.optional "line" Json.word32?)
  else if kind == "timeout" then return timeout (← v.required "timeout_ms" Json.word64?)
  else if kind == "memory_limit" then
    return memoryLimit (← v.required "limit_bytes" Json.word64?) (← v.optional "line" Json.word32?)
  else if kind == "aborted" then return aborted (← v.required "reason" Json.str?)
  else none

end ExecutionError

/-- How an execution ended. -/
inductive Outcome where
  | completed (value : Json)
  | suspended (signal : Signal)
  | failed (error : ExecutionError)

namespace Outcome

/-- The signal of an execution that was suspended. -/
def signal? : Outcome → Option Signal
  | suspended s => some s
  | _ => none

/-- The error of an execution that failed. -/
def error? : Outcome → Option ExecutionError
  | failed e => some e
  | _ => none

/-- The JSON form of an outcome. -/
def toJson : Outcome → Json
  | completed value => .object [("outcome", .str "completed"), ("value", value)]
  | suspended signal => .object [("outcome", .str "suspended"), ("signal", signal.toJson)]
  | failed error => .object [("outcome", .str "failed"), ("error", error.toJson)]

end Outcome

/-- What an execution gives back. -/
structure Execution where
  outcome : Outcome
  «variables» : Dict Json
  lineHits : List (Nat × Nat)
  mutations : List Mutation

namespace Execution

/-- The JSON form of an execution. -/
def toJson (e : Execution) : Json :=
  .object [("outcome", e.outcome.toJson), ("variables", .obj e.variables),
    ("line_hits", .object (e.lineHits.map fun (line, hits) => (toString line, .nat hits))),
    ("mutations", .arr (e.mutations.map Mutation.toJson))]

/-- A signal with what is needed to resume, as far as it does not say so itself. -/
def annotate (s : Signal) (vars : Dict Json) (line : Option Nat) (source : String) : Signal :=
  match s with
  | .interrupt d =>
    let line := d.line.or line
    .interrupt { d with
      «variables» := if d.variables.isEmpty then vars else d.variables
      line
      stack := d.stack.or (line.map (Excerpt.ofSignal source)) }
  | other => other

/-- A failure at its place in the script as it was written. -/
def errorOf (f : Failure) (m : Machine) (j : Job) : ExecutionError :=
  let line := f.line.or m.line
  let column := match line, f.column with
    | some line, some column => some (j.compiled.map.sourceColumn line column)
    | _, _ => none
  let stack := (line.map fun line => Excerpt.ofError j.compiled.source line column).getD ""
  match f.kind with
  | .execution => .execution f.message stack line column
  | .assignment => .assignment f.message stack line
  | .timedOut => .timeout j.limits.timeout
  | .outOfMemory => .memoryLimit j.limits.memory line
  | .aborted => .aborted f.message

/-- The traces of the end of an execution. -/
def endTraces (o : Outcome) (started ended : Millis) (lines : Nat) : List Trace :=
  .codeExecution started ended lines ::
    match o with
    | .failed e =>
      let aborted := match e with
        | .aborted reason => [.abortSignal ended reason]
        | _ => []
      let (line, column) := match e with
        | .execution _ _ line column => (line, column)
        | .assignment _ _ line => (line, none)
        | _ => (none, none)
      aborted ++ [.codeExecutionException ended e.message e.stack line column]
    | _ => []

/-- Whether the script was stopped by the host, and did not come to an end of its own. -/
def wasStopped : Outcome → Bool
  | .failed (.timeout _) | .failed (.aborted _) => true
  | _ => false

end Execution

/-- Executes a script. -/
def Job.execute (j : Job) (host : Host) : Execution × Host :=
  let report := j.run host
  let m := report.machine
  let outcome : Outcome := match report.ending with
    | .completed value => .completed value
    | .suspended s => .suspended (Execution.annotate s report.variables m.line j.compiled.source)
    | .failed f => .failed (Execution.errorOf f m j)
  let vars := if j.backend == .isolated && Execution.wasStopped outcome then [] else report.variables
  let traces := Execution.endTraces outcome host.millis m.host.millis m.lineHits.length
  ({ outcome, «variables» := vars, lineHits := m.lineHits
     mutations := m.drafts.toList.flatMap (·.mutations) },
    { m.host with traces := m.host.traces ++ traces })

end ScriptAgent
