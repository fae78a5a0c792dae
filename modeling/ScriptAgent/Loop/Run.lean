import ScriptAgent.Loop.Turn

/-!
# The loop

Turns are taken until the model reaches an exit or hands over, until a signal interrupts the run, or
until it fails.  A run that goes on from a settled snapshot first tells the model what came of it.
-/

namespace ScriptAgent

/-- What an observer of a run sees. -/
inductive Observation where
  | trace (t : Trace)
  | iterationEnd (i : Iteration)

/-- What the loop changes besides the context. -/
structure World where
  host : Host := {}
  /-- What the model was asked so far. -/
  requests : List GenerateRequest := []
  /-- What was observed so far. -/
  observed : List Observation := []

/-- How a run ended. -/
inductive RunEnding where
  | success
  | interrupted (snapshot : Snapshot) (signal : Signal)
  | failed (error : RunError)

/-- What a run gives back. -/
structure RunResult where
  ending : RunEnding
  context : Context
  world : World

namespace RunEnding

/-- The name of an ending. -/
def status : RunEnding → String
  | success => "success"
  | interrupted .. => "interrupted"
  | failed _ => "error"

/-- The error of a run that failed. -/
def error? : RunEnding → Option RunError
  | failed e => some e
  | _ => none

/-- The snapshot of a run that was interrupted. -/
def snapshot? : RunEnding → Option Snapshot
  | interrupted s _ => some s
  | _ => none

/-- The signal of a run that was interrupted. -/
def signal? : RunEnding → Option Signal
  | interrupted _ s => some s
  | _ => none

end RunEnding

namespace RunResult

/-- The exit that was taken. -/
def exit (r : RunResult) : Option String :=
  r.context.lastIteration?.bind (·.exit)

/-- The value that was returned with the exit. -/
def returnValue (r : RunResult) : Option Json :=
  r.context.lastIteration?.bind (·.returnValue)

end RunResult

namespace Agent

/-- An iteration is over. -/
def observe (w : World) (i : Iteration) : World :=
  { w with observed := w.observed ++ i.traces.map .trace ++ [.iterationEnd i] }

/-- The variables of a run that goes on from a snapshot. -/
def resumedVariables (c : Context) (s : Snapshot) : Context :=
  let c := c.carry s.variables
  match s.status, s.toolCall.bind (·.assignment) with
  | .resolved value, some assignment => c.carry [(assignment.target, value)]
  | _, _ => c

/-- What the model is told about a settled snapshot. -/
def resumeMessage? (c : Context) (s : Snapshot) : Option Message :=
  match s.status with
  | .pending => none
  | .resolved value => some (Feedback.resolved s value c.variables)
  | .rejected error => some (Feedback.rejected s error)

/-- Takes up the snapshot that a context goes on from: the context, and the error if the snapshot
is not settled. -/
def applySnapshot (c : Context) : Context × Option RunError :=
  match c.resume with
  | none => (c, none)
  | some s =>
    let c := resumedVariables { c with resume := none } s
    match resumeMessage? c s with
    | none => (c, some (.snapshot ("Snapshot " ++ s.id ++ " has not been resolved or rejected")))
    | some message =>
      ({ c.tell [message] with correlation := some (.correlation s.correlation) }, none)

/-- The iteration that records that a run was aborted between two turns. -/
def abortIteration (c : Context) (now : Millis) (reason : String) : Iteration where
  id := c.nextId
  status := .failed
  «variables» := c.variables
  traces := [.abortSignal now reason]
  error := some (.aborted reason)
  startedAt := now
  endedAt := now

/-- Ends a run that was aborted between two turns. -/
def endAborted (c : Context) (w : World) (reason : String) : RunResult :=
  let i := abortIteration c w.host.millis reason
  { ending := .failed (.aborted reason), context := c.beginTurn.record i, world := observe w i }

/-- The reason for which a script was aborted in an iteration. -/
def abortReason? (i : Iteration) : Option String :=
  match i.error with
  | some (.aborted reason) => some reason
  | _ => none

/-- How a run ends with an iteration, if it does not go on. -/
def endingOf (fatal : Option RunError) (i : Iteration) (host : Host) : Option RunEnding × Host :=
  match fatal with
  | some e => (some (.failed e), host)
  | none =>
    match i.signal with
    | some (.interrupt d) =>
      let (id, host) := host.freshId "snap"
      (some (.interrupted (.ofInterrupt id host.millis d i.code) (.interrupt d)), host)
    | _ =>
      match abortReason? i with
      | some reason => (some (.failed (.aborted reason)), host)
      | none => (if i.isSuccess then some .success else none, host)

/-- The context after a run ended. -/
def settle (ending : RunEnding) (c : Context) : Context :=
  match ending with
  | .success => c.finishAttempt
  | _ => c

/-- What a turn leaves: how the run ends with it, if it does, the context and the world. -/
def advance (r : Agent) (c : Context) (w : World) : Option RunEnding × Context × World :=
  let turned := r.turn c w.host w.requests
  let s := turned.2
  let settled := endingOf turned.1 s.iteration { s.host with traces := [] }
  let w := observe { w with requests := s.requests } s.iteration
  (settled.1, s.context.record s.iteration, { w with host := settled.2 })

/-- Takes turns, handed in as what one of them leaves.  Each turn counts for the attempt, so as much
fuel as turns are left is enough. -/
def takeTurns (turn : Context → World → Option RunEnding × Context × World) : Nat → Context → World → RunResult
  | fuel, c, w =>
    match w.host.abort.reason with
    | some reason => endAborted c w reason
    | none =>
      let exceeded : RunResult := ⟨.failed (.loopExceeded c.options.loopLimit), c, w⟩
      match fuel with
      | 0 => exceeded
      | fuel + 1 =>
        if c.options.loopLimit ≤ c.attempt then exceeded
        else
          match turn c w with
          | (some ending, c, w) => ⟨ending, settle ending c, w⟩
          | (none, c, w) => takeTurns turn fuel c w

/-- Runs a context until it is done, interrupted, or failed. -/
def run (r : Agent) (c : Context) (w : World) : RunResult :=
  match c.validate with
  | .error e => ⟨.failed e, c, w⟩
  | .ok () =>
    match applySnapshot c with
    | (c, some e) => ⟨.failed e, c, w⟩
    | (c, none) => takeTurns r.advance (c.options.loopLimit - c.attempt) c w

/-- Goes on from a snapshot that was settled in some way. -/
def goOn (r : Agent) (c : Context) (w : World) : Except RunError Snapshot → RunResult
  | .error e => ⟨.failed e, c, w⟩
  | .ok s => r.run { c with resume := some s } w

/-- Settles a snapshot with a value and goes on from it. -/
def resolve (r : Agent) (c : Context) (s : Snapshot) (value : Json) (w : World) : RunResult :=
  r.goOn c w (s.resolve value)

/-- Settles a snapshot with an error and goes on from it. -/
def reject (r : Agent) (c : Context) (s : Snapshot) (error : String) (w : World) : RunResult :=
  r.goOn c w (s.reject error)

end Agent

end ScriptAgent
