import ScriptAgent.Loop.Context
import ScriptAgent.Loop.Returned
import ScriptAgent.Model.Client
import ScriptAgent.Prompt.Feedback
import ScriptAgent.Sandbox.Execution
import ScriptAgent.Window.Truncate

/-!
# One turn of the loop

The model is sent a window of messages, its script is compiled and executed, and the outcome becomes
an iteration.  What the model has to know about it is told in the next turn.
-/

namespace ScriptAgent

/-- What runs the turns of a loop. -/
structure LoopSettings where
  backend : Backend := .inline
  limits : Limits := {}
  maxTokens : Option Nat := none

/-- A model, and how its scripts are run. -/
structure Agent where
  client : ModelClient
  settings : LoopSettings := {}

/-- What a turn changes. -/
structure TurnState where
  context : Context
  iteration : Iteration
  host : Host
  /-- What the model was asked so far. -/
  requests : List GenerateRequest

/-- A part of a turn; an error ends the run. -/
abbrev TurnM (α : Type) := ExceptT RunError (StateM TurnState) α

namespace Turn

/-! ### Recording -/

/-- Changes the context. -/
def onContext (f : Context → Context) : StateM TurnState Unit :=
  modify fun s => { s with context := f s.context }

/-- Changes the iteration. -/
def onIteration (f : Iteration → Iteration) : StateM TurnState Unit :=
  modify fun s => { s with iteration := f s.iteration }

/-- Leaves a trace. -/
def trace (f : Millis → Trace) : StateM TurnState Unit :=
  modify fun s => { s with host := s.host.trace (f s.host.millis) }

/-- Leaves a trace of a signal without a line. -/
def traceSignal (signal : Signal) : StateM TurnState Unit :=
  trace fun now => .signal now none signal

/-- Repeats to the model what it wrote, and tells it what came of it. -/
def giveFeedback (code : String) (message : Message) : StateM TurnState Unit :=
  onContext (·.tell [Feedback.assistant code, message])

/-- The iteration has failed. -/
def failWith (error : IterationError) : StateM TurnState Unit :=
  onIteration fun i => { i with status := .failed, error := some error }

/-! ### The window of messages -/

/-- All messages after that of the system. -/
def messagesAfter (c : Context) : Option Message → Except RunError (List Message)
  | some system => .ok (system :: Prompt.userMessage c.promptInputs :: c.pending)
  | none => .error (.protocol "Failed to render template")

/-- All messages before they are shortened. -/
def allMessages (c : Context) : Except RunError (List Message) :=
  messagesAfter c (Prompt.systemMessage? c.promptInputs)

/-- The messages the model is sent. -/
def window (client : ModelClient) (c : Context) : Except RunError (List Message) := do
  let messages ← allMessages c
  let budget := windowBudget (client.details c.options.model).contextSize
  match truncateMessages messages budget with
  | .ok shorter => return shorter.filter fun m => !Text.isBlankText m.content
  | .error used => throw (.model (.contextOverflow used budget))

/-- The request that sends messages to the model. -/
def request (r : Agent) (c : Context) (messages : List Message) : GenerateRequest where
  model := c.options.model
  systemPrompt := some ("\n\n".intercalate ((messages.filter (·.role == .system)).map (·.content)))
  messages := messages.filter (·.role != .system)
  temperature := c.options.temperature
  stopSequences := Fence.stopSequences
  maxTokens := r.settings.maxTokens

/-- Asks the model. -/
def generate (r : Agent) (messages : List Message) : TurnM String := do
  let s ← get
  let asked := request r s.context messages
  let started := s.host.millis
  trace fun now => .modelCallStarted now asked.model
  modify fun s => { s with requests := s.requests ++ [asked] }
  match r.client.respond s.requests asked with
  | .error failure => throw (.model failure)
  | .ok response =>
    let s ← get
    let ended := s.host.millis
    trace fun _ => .modelCallSuccess started ended response.model response.usage.input response.usage.output
    let output := response.text?.getD ""
    let call : ModelCall := {
      id := response.id, model := response.model, startedAt := started, endedAt := ended
      usage := response.usage, cost := response.cost, cached := response.cached, output }
    onIteration fun i => { i with call := some call }
    return output

/-! ### Outcomes -/

/-- A value was returned that is refused. -/
def refuse (code action message : String) : StateM TurnState Unit := do
  let error := IterationError.exit action message
  giveFeedback code (Feedback.invalidCode code error.message)
  failWith error

/-- An exit was asked for. -/
def takeExit (code action : String) (value : Json) : StateM TurnState Unit := do
  let exits := (← get).context.exits
  let leave (name : String) (value : Json) : StateM TurnState Unit :=
    onIteration fun i => { i with exit := some name, returnValue := some value, status := .success }
  if exits.isEmpty then leave action value
  else
    match exits.find? (·.matchesAction action) with
    | none =>
      refuse code action ("unknown exit, expected one of: " ++ ", ".intercalate (exits.map (·.name)))
    | some exit =>
      match exit.parseValue value with
      | .ok parsed => leave exit.name parsed
      | .error e => refuse code action e.render

/-- Whether a thought came after something was done. -/
def hasExecuted (c : Context) (assigned : Dict Json) (context : Option Json) : Bool :=
  !assigned.isEmpty || 0 < Signal.contextSize context || c.convention.reportsCodeExecuted

/-- A signal was raised; a thought is taken up again if something was done before it. -/
def takeSignal (code : String) (assigned : Dict Json) (signal : Signal) : StateM TurnState Unit := do
  let status ← match signal with
    | .think reason context =>
      if hasExecuted (← get).context assigned context then do
        onContext (·.carry ((context.bind Json.fields?).getD []))
        giveFeedback code (Feedback.thinking reason context)
        pure IterationStatus.incomplete
      else pure .success
    | _ => pure .success
  onIteration fun i => { i with signal := some signal, status }

/-- The error of an iteration whose script failed. -/
def errorOf : ExecutionError → IterationError
  | .execution message stack _ _ => .codeExecution message stack
  | .assignment message stack _ => .assignment message stack
  | .timeout millis => .timeout millis
  | .memoryLimit bytes _ => .memoryLimit bytes
  | .aborted reason => .aborted reason

/-- A script failed; of a run that was aborted the model is not told. -/
def takeFailure (code : String) (e : ExecutionError) : StateM TurnState Unit := do
  let error := errorOf e
  match error with
  | .aborted _ => pure ()
  | _ => giveFeedback code (Feedback.executionError error.message (error.stack.getD ""))
  failWith error

/-- The reason of a thought that nobody asked for. -/
def unaskedThought : Signal :=
  .think "Code ran but reached no final action" none

/-- A script returned a value. -/
def takeValue (code : String) (assigned : Dict Json) (value : Json) : StateM TurnState Unit :=
  match Returned.ofValue value with
  | .signal s => do
    traceSignal s
    takeSignal code assigned s
  | .exit action value => takeExit code action value
  | .invalid action message => refuse code action message
  | .nothing => takeSignal code assigned unaskedThought

/-- An execution has ended. -/
def takeExecution (compiled : Compiled) (e : Execution) : StateM TurnState Unit := do
  onContext fun c => (c.reconcile e.mutations).carry e.variables
  onIteration fun i => { i with mutations := e.mutations, «variables» := e.variables }
  let assigned := e.variables.filter fun (name, _) => compiled.variables.contains name
  match e.outcome with
  | .failed error => takeFailure compiled.source error
  | .suspended signal => takeSignal compiled.source assigned signal
  | .completed value => takeValue compiled.source assigned value

/-- Executes a script. -/
def execute (r : Agent) (compiled : Compiled) : StateM TurnState Execution := do
  let s ← get
  let job : Job := {
    backend := r.settings.backend, compiled, «variables» := s.context.variables, tools := s.context.tools
    objects := s.context.objects, limits := r.settings.limits }
  let (execution, host) := job.execute s.host
  set { s with host }
  return execution

/-- Compiles and executes a script. -/
def runCode (r : Agent) (code : String) : StateM TurnState Unit := do
  match compile code with
  | .error e =>
    trace fun now => .invalidCodeException now e.render code
    giveFeedback code (Feedback.invalidCode code e.render)
    failWith (.invalidCode e.render)
  | .ok compiled => takeExecution compiled (← execute r compiled)

/-- The turn itself. -/
def cycle (r : Agent) : TurnM Unit := do
  let messages ← window r.client (← get).context
  onIteration fun i => { i with messages }
  let response := Fence.parseResponse (← generate r messages)
  if !response.hasCode then throw (.protocol "The model response did not contain any code")
  onIteration fun i => { i with code := some response.code }
  runCode r response.code

/-- Records first what the run goes on from. -/
def recordCorrelation : StateM TurnState Unit := do
  if let some signal := (← get).context.correlation then
    onContext fun c => { c with correlation := none }
    traceSignal signal

/-- A turn from its start to its end: the error that ends the run, if any. -/
def whole (r : Agent) : StateM TurnState (Option RunError) := do
  recordCorrelation
  match ← (cycle r).run with
  | .ok () => return none
  | .error e =>
    failWith (.generation e.message)
    return some e

end Turn

/-- One turn of the loop. -/
def Agent.turn (r : Agent) (c : Context) (host : Host) (requests : List GenerateRequest) :
    Option RunError × TurnState :=
  let iteration : Iteration := { id := c.nextId, startedAt := host.millis, endedAt := 0 }
  let start : TurnState := ⟨c.beginTurn, iteration, { host with traces := [] }, requests⟩
  let done := Turn.whole r start
  (done.1, { done.2 with
    iteration := { done.2.iteration with traces := done.2.host.traces, endedAt := done.2.host.millis } })

end ScriptAgent
