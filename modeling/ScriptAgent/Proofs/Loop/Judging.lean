import ScriptAgent.Loop.Turn

/-!
# How a turn judges its script

Whatever came of a script, a turn judges it in one of five ways: the script took an exit, it raised a signal that ends
the attempt, the model thinks again, the script failed, or it was aborted.  A `Ruling` is one of them, with all that it
leaves of the state.  What is shown of judging a script is shown of rulings, one case for each.
-/

namespace ScriptAgent

/-- The reason for which a script was aborted, if it was. -/
def Outcome.abortReason? : Outcome → Option String
  | .failed (.aborted reason) => some reason
  | _ => none

theorem Outcome.abortReason?_eq_some {o : Outcome} {reason : String} (h : o.abortReason? = some reason) :
    o = .failed (.aborted reason) := by
  unfold abortReason? at h
  split at h
  · rw [Option.some.inj h]
  · cases h

namespace Turn

variable {code : String} {assigned : Dict Json} {s : TurnState}

theorem get_bind_apply {α : Type} (f : TurnState → StateM TurnState α) (s : TurnState) : (get >>= f) s = f s s := rfl

/-- What the model is told of a script: the script itself, and a message from where scripts run. -/
def report (code body : String) : List Message :=
  [Feedback.assistant code, Feedback.fromSandbox body]

/-- One way to judge a script, with the reason for which it was aborted and the state that is left. -/
inductive Ruling (code : String) (assigned : Dict Json) (s : TurnState) : Option String → TurnState → Prop
  /-- The script took an exit. -/
  | exited (name : String) (value : Json) :
      Ruling code assigned s none
        { s with iteration := { s.iteration with exit := some name, returnValue := some value, status := .success } }
  /-- A signal was raised that ends the attempt: if it is a thought, nothing was done before. -/
  | signalled (signal : Signal) (idle : ∀ reason context, signal = .think reason context →
      hasExecuted s.context assigned context = false) :
      Ruling code assigned s none
        { s with iteration := { s.iteration with signal := some signal, status := .success } }
  /-- The model thinks again, with what the thought carries on. -/
  | thinking (reason : String) (context : Option Json) (done : hasExecuted s.context assigned context = true)
      (body : String) :
      Ruling code assigned s none
        { s with
          context := (s.context.carry ((context.bind Json.fields?).getD [])).tell (report code body)
          iteration := { s.iteration with signal := some (.think reason context), status := .incomplete } }
  /-- The script failed in a way that the model can mend. -/
  | failed (e : IterationError) (generated : ∀ message, e ≠ .generation message)
      (unaborted : ∀ reason, e ≠ .aborted reason) (body : String) :
      Ruling code assigned s none
        { s with
          context := s.context.tell (report code body)
          iteration := { s.iteration with status := .failed, error := some e } }
  /-- The script was aborted. -/
  | aborted (reason : String) :
      Ruling code assigned s (some reason)
        { s with iteration := { s.iteration with status := .failed, error := some (.aborted reason) } }

theorem ruling_refuse (action message : String) : Ruling code assigned s none (refuse code action message s).2 :=
  .failed _ (by simp) (by simp) _

theorem ruling_takeExit (action : String) (value : Json) :
    Ruling code assigned s none (takeExit code action value s).2 := by
  unfold takeExit
  rw [get_bind_apply]
  dsimp only
  split
  · exact .exited _ _
  · cases s.context.exits.find? (·.matchesAction action) with
    | none => exact ruling_refuse _ _
    | some exit =>
      dsimp only
      cases exit.parseValue value with
      | ok parsed => exact .exited _ _
      | error e => exact ruling_refuse _ _

theorem ruling_takeSignal (signal : Signal) : Ruling code assigned s none (takeSignal code assigned signal s).2 := by
  unfold takeSignal
  split
  · next reason context =>
    dsimp only
    rw [get_bind_apply]
    split
    · next done => exact .thinking reason context done _
    · next idle =>
      refine .signalled _ fun _ _ heq => ?_
      obtain ⟨-, rfl⟩ := Signal.think.inj heq
      exact Bool.eq_false_iff.mpr idle
  · next other => exact .signalled _ fun reason context heq => absurd heq (other reason context)

theorem ruling_takeFailure (e : ExecutionError) :
    Ruling code assigned s (Outcome.failed e).abortReason? (takeFailure code e s).2 := by
  cases e with
  | aborted reason => exact .aborted reason
  | execution | assignment | timeout | memoryLimit => exact .failed _ (by simp [errorOf]) (by simp [errorOf]) _

/-! ### Judging an execution -/

/-- The trace that judging an execution leaves. -/
def judging (now : Millis) : Outcome → List Trace
  | .completed value =>
    match Returned.ofValue value with
    | .signal s => [.signal now none s]
    | _ => []
  | _ => []

/-- The state in which a script is judged, with the trace of a signal that it returned. -/
def traced (o : Outcome) (s : TurnState) : TurnState :=
  { s with host := { s.host with traces := s.host.traces ++ judging s.host.millis o } }

theorem traced_of_quiet {o : Outcome} (h : judging s.host.millis o = []) : traced o s = s := by
  rw [traced, h, List.append_nil]

theorem ruling_takeValue (value : Json) :
    Ruling code assigned (traced (.completed value) s) none (takeValue code assigned value s).2 := by
  unfold takeValue
  cases hv : Returned.ofValue value with
  | signal signal =>
    have htraced : traced (.completed value) s = (traceSignal signal s).2 := by
      rw [traced, judging, hv]
      rfl
    rw [htraced]
    exact ruling_takeSignal signal
  | exit action v =>
    rw [traced_of_quiet (by rw [judging, hv])]
    exact ruling_takeExit action v
  | invalid action message =>
    rw [traced_of_quiet (by rw [judging, hv])]
    exact ruling_refuse action message
  | nothing =>
    rw [traced_of_quiet (by rw [judging, hv])]
    exact ruling_takeSignal unaskedThought

/-- The state in which an execution is judged. -/
def afterExecution (e : Execution) (s : TurnState) : TurnState :=
  { s with
    context := (s.context.reconcile e.mutations).carry e.variables
    iteration := { s.iteration with mutations := e.mutations, «variables» := e.variables } }

/-- The variables that a script has assigned. -/
def assignedBy (compiled : Compiled) (e : Execution) : Dict Json :=
  e.variables.filter fun entry => compiled.variables.contains entry.1

section Execution

variable {compiled : Compiled} {e : Execution}

theorem takeExecution_completed {value : Json} (h : e.outcome = .completed value) (s : TurnState) :
    (takeExecution compiled e s).2 =
      (takeValue compiled.source (assignedBy compiled e) value (afterExecution e s)).2 := by
  unfold takeExecution
  rw [h]
  rfl

theorem takeExecution_suspended {signal : Signal} (h : e.outcome = .suspended signal) (s : TurnState) :
    (takeExecution compiled e s).2 =
      (takeSignal compiled.source (assignedBy compiled e) signal (afterExecution e s)).2 := by
  unfold takeExecution
  rw [h]
  rfl

theorem takeExecution_failed {error : ExecutionError} (h : e.outcome = .failed error) (s : TurnState) :
    (takeExecution compiled e s).2 = (takeFailure compiled.source error (afterExecution e s)).2 := by
  unfold takeExecution
  rw [h]
  rfl

/-- Whatever came of a script, there is one ruling on it. -/
theorem ruling_takeExecution (compiled : Compiled) (e : Execution) (s : TurnState) :
    Ruling compiled.source (assignedBy compiled e) (traced e.outcome (afterExecution e s)) e.outcome.abortReason?
      (takeExecution compiled e s).2 := by
  cases ho : e.outcome with
  | failed error =>
    rw [takeExecution_failed ho, traced_of_quiet rfl]
    exact ruling_takeFailure error
  | suspended signal =>
    rw [takeExecution_suspended ho, traced_of_quiet rfl]
    exact ruling_takeSignal signal
  | completed value =>
    rw [takeExecution_completed ho]
    exact ruling_takeValue value

end Execution

/-- A script that does not compile is a failure of which the model is told. -/
theorem ruling_runCode_of_error {r : Agent} {e : CompileError} (h : compile code = .error e) (s : TurnState) :
    Ruling code [] (trace (fun now => .invalidCodeException now e.render code) s).2 none (runCode r code s).2 := by
  unfold runCode
  rw [h]
  exact .failed _ (by simp) (by simp) _

end Turn

end ScriptAgent
