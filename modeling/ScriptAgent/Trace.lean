import ScriptAgent.Signal

/-!
# Traces

Traces record what happened during an iteration, in order.  A list of traces only ever grows.
-/

namespace ScriptAgent

/-- Milliseconds of a clock. -/
abbrev Millis := Nat

/-- One invocation of a tool, whatever came of it. -/
structure ToolCallTrace where
  id : String
  tool : String
  object : Option String := none
  input : Json
  output : Option Json := none
  error : Option String := none
  /-- A signal counts as success. -/
  success : Bool
  startedAt : Millis
  endedAt : Millis

/-- One event. -/
inductive Trace where
  | modelCallStarted (at_ : Millis) (model : String)
  | modelCallSuccess (at_ ended : Millis) (model : String) (inputTokens outputTokens : Nat)
  | comment (at_ : Millis) (line : Nat) (text : String)
  | log (at_ : Millis) (message : String) (args : List Json)
  | codeExecution (at_ ended : Millis) (lines : Nat)
  | property (at_ : Millis) (object member : String) (value : Json)
  | toolCall (call : ToolCallTrace)
  | toolSlow (at_ : Millis) (id tool : String) (object : Option String) (input : Json) (duration : Millis)
  | signal (at_ : Millis) (line : Option Nat) (signal : Signal)
  | abortSignal (at_ : Millis) (reason : String)
  | codeExecutionException (at_ : Millis) (message stack : String) (line column : Option Nat)
  | invalidCodeException (at_ : Millis) (message code : String)
  | yield (at_ : Millis) (value : Json)

namespace Trace

/-- The name of a trace's type. -/
def typeName : Trace → String
  | .modelCallStarted .. => "llm_call_started"
  | .modelCallSuccess .. => "llm_call_success"
  | .comment .. => "comment"
  | .log .. => "log"
  | .codeExecution .. => "code_execution"
  | .property .. => "property"
  | .toolCall _ => "tool_call"
  | .toolSlow .. => "tool_slow"
  | .signal .. => "signal"
  | .abortSignal .. => "abort_signal"
  | .codeExecutionException .. => "code_execution_exception"
  | .invalidCodeException .. => "invalid_code_exception"
  | .yield .. => "yield"

/-- When the event began. -/
def startedAt : Trace → Millis
  | .modelCallStarted t _ | .modelCallSuccess t _ _ _ _ | .comment t _ _ | .log t _ _
  | .codeExecution t _ _ | .property t .. | .toolSlow t _ _ _ _ _ | .signal t _ _ | .abortSignal t _
  | .codeExecutionException t _ _ _ _ | .invalidCodeException t _ _ | .yield t _ => t
  | .toolCall call => call.startedAt

/-- The JSON form of a trace, its type under `type`. -/
def toJson (t : Trace) : Json :=
  .recordOf (("type", some (.str t.typeName)) :: ("started_at", some (.nat t.startedAt)) ::
    match t with
    | .modelCallStarted _ model => [("model", some (.str model))]
    | .modelCallSuccess _ ended model input output =>
      [("ended_at", some (.nat ended)), ("model", some (.str model)), ("input_tokens", some (.nat input)),
        ("output_tokens", some (.nat output))]
    | .comment _ line text => [("line", some (.nat line)), ("comment", some (.str text))]
    | .log _ message args =>
      [("message", some (.str message)), ("args", if args.isEmpty then none else some (.arr args))]
    | .codeExecution _ ended lines => [("ended_at", some (.nat ended)), ("lines_executed", some (.nat lines))]
    | .property _ object member value =>
      [("object", some (.str object)), ("property", some (.str member)), ("value", some value)]
    | .toolCall c =>
      [("tool_call_id", some (.str c.id)), ("tool_name", some (.str c.tool)), ("object", c.object.map .str),
        ("input", some c.input), ("output", c.output), ("error", c.error.map .str),
        ("success", some (.bool c.success)), ("ended_at", some (.nat c.endedAt))]
    | .toolSlow _ id tool object input duration =>
      [("tool_call_id", some (.str id)), ("tool_name", some (.str tool)), ("object", object.map .str),
        ("input", some input), ("duration_ms", some (.nat duration))]
    | .signal _ line raised => [("line", line.map .nat), ("signal", some raised.toJson)]
    | .abortSignal _ reason => [("reason", some (.str reason))]
    | .codeExecutionException _ message stack line column =>
      [("message", some (.str message)), ("stack_trace", some (.str stack)), ("line", line.map .nat),
        ("column", column.map .nat)]
    | .invalidCodeException _ message code => [("message", some (.str message)), ("code", some (.str code))]
    | .yield _ value => [("value", some value)])

/-- Reads a trace. -/
def ofJson? (v : Json) : Option Trace := do
  let kind ← v.required "type" Json.str?
  let at_ ← v.required "started_at" Json.word64?
  if kind == "llm_call_started" then return .modelCallStarted at_ (← v.required "model" Json.str?)
  else if kind == "llm_call_success" then
    return .modelCallSuccess at_ (← v.required "ended_at" Json.word64?) (← v.required "model" Json.str?)
      (← v.required "input_tokens" Json.word64?) (← v.required "output_tokens" Json.word64?)
  else if kind == "comment" then
    return .comment at_ (← v.required "line" Json.word32?) (← v.required "comment" Json.str?)
  else if kind == "log" then
    return .log at_ (← v.required "message" Json.str?) (← v.withDefault "args" (Json.list? Json.any?) [])
  else if kind == "code_execution" then
    return .codeExecution at_ (← v.required "ended_at" Json.word64?) (← v.required "lines_executed" Json.word32?)
  else if kind == "property" then
    return .property at_ (← v.required "object" Json.str?) (← v.required "property" Json.str?)
      (← v.required "value" Json.any?)
  else if kind == "tool_call" then
    return .toolCall {
      id := ← v.required "tool_call_id" Json.str?
      tool := ← v.required "tool_name" Json.str?
      object := ← v.optional "object" Json.str?
      input := ← v.required "input" Json.any?
      output := ← v.optional "output" Json.any?
      error := ← v.optional "error" Json.str?
      success := ← v.required "success" Json.bool?
      startedAt := at_
      endedAt := ← v.required "ended_at" Json.word64? }
  else if kind == "tool_slow" then
    return .toolSlow at_ (← v.required "tool_call_id" Json.str?) (← v.required "tool_name" Json.str?)
      (← v.optional "object" Json.str?) (← v.required "input" Json.any?)
      (← v.required "duration_ms" Json.word64?)
  else if kind == "signal" then
    return .signal at_ (← v.optional "line" Json.word32?) (← v.required "signal" Signal.ofJson?)
  else if kind == "abort_signal" then return .abortSignal at_ (← v.required "reason" Json.str?)
  else if kind == "code_execution_exception" then
    return .codeExecutionException at_ (← v.required "message" Json.str?) (← v.required "stack_trace" Json.str?)
      (← v.optional "line" Json.word32?) (← v.optional "column" Json.word32?)
  else if kind == "invalid_code_exception" then
    return .invalidCodeException at_ (← v.required "message" Json.str?) (← v.required "code" Json.str?)
  else if kind == "yield" then return .yield at_ (← v.required "value" Json.any?)
  else none

end Trace

end ScriptAgent
