import ScriptAgent.Proofs.Instrument.Tracking
import ScriptAgent.Proofs.Loop.Exits
import ScriptAgent.Proofs.Sandbox.Declarations

/-!
# New variables and thoughts

A thought is taken up again if the script has assigned a variable before it, and ends the run else.  Which variables
an execution reports is up to the scope of the interpreter; which of them count as assigned is read off the lines of
the script.  The two agree on each new variable whose declaration stands on a line that names it.
-/

namespace ScriptAgent

namespace Turn

variable {s : TurnState} {assigned : Dict Json} {x : StateM TurnState Unit}

/-- A part of a turn that has a thought taken up again just if something was done before it. -/
def Weighs (assigned : Dict Json) (x : StateM TurnState Unit) : Prop :=
  ∀ s, s.iteration.Open → ∀ reason context, (x s).2.iteration.signal = some (.think reason context) →
    ((x s).2.iteration.status = .incomplete ↔ hasExecuted s.context assigned context = true)

theorem Ruling.weighed {code : String} {s' : TurnState} {cut : Option String} (h : Ruling code assigned s cut s')
    (hs : s.iteration.Open) {reason : String} {context : Option Json}
    (hthink : s'.iteration.signal = some (.think reason context)) :
    s'.iteration.status = .incomplete ↔ hasExecuted s.context assigned context = true := by
  cases h with
  | signalled signal idle =>
    have hnot := idle reason context (Option.some.inj hthink)
    exact iff_of_false nofun (by simp [hnot])
  | thinking reason' context' done =>
    obtain ⟨-, rfl⟩ := Signal.think.inj (Option.some.inj hthink)
    exact iff_of_true rfl done
  | exited | failed | aborted => exact nomatch hs.signal.symm.trans hthink

/-- What was done before a thought is what the execution has assigned. -/
theorem weighs_takeExecution (compiled : Compiled) (e : Execution) :
    Weighs (assignedBy compiled e) (takeExecution compiled e) :=
  fun s hs _ _ hthink =>
    (ruling_takeExecution compiled e s).weighed ⟨hs.signal, hs.error, hs.exit, hs.returnValue⟩ hthink

theorem assignedBy_ne_nil_iff {compiled : Compiled} {e : Execution} :
    assignedBy compiled e ≠ [] ↔ ∃ name ∈ e.variables.keys, name ∈ compiled.variables := by
  unfold assignedBy
  simp [List.filter_eq_nil_iff, Dict.keys]

end Turn

namespace Agent

variable {r : Agent} {c : Context} {host : Host} {requests : List GenerateRequest} {compiled : Compiled}
  {e : Execution}

/-- A thought after a script is taken up again just if the script has assigned a variable that it reports, or the thought
carries something on, or the convention of the context has it so. -/
theorem Executes.thought (h : Executes r c host requests compiled e) {reason : String} {context : Option Json}
    (thinks : (r.turn c host requests).2.iteration.signal = some (.think reason context)) :
    (r.turn c host requests).2.iteration.status = .incomplete ↔
      (∃ name ∈ e.variables.keys, name ∈ compiled.variables) ∨ 0 < Signal.contextSize context ∨
        c.convention.reportsCodeExecuted = true := by
  obtain ⟨s, fresh, -, hconvention, hturn⟩ := h.turn
  rw [hturn] at thinks ⊢
  refine (Turn.weighs_takeExecution compiled e s fresh reason context thinks).trans ?_
  rw [← Turn.assignedBy_ne_nil_iff, ← hconvention]
  simp [Turn.hasExecuted, or_assoc]

/-- The signal that suspends a script is recorded, and the iteration has not failed. -/
theorem Executes.recorded_of_suspended (h : Executes r c host requests compiled e) {raised : Signal}
    (suspended : e.outcome = .suspended raised) : (r.turn c host requests).2.iteration.signal = some raised ∧
      ((r.turn c host requests).2.iteration.status = .success ∨
        (r.turn c host requests).2.iteration.status = .incomplete) := by
  obtain ⟨s, -, -, -, hturn⟩ := h.turn
  rw [hturn]
  show (Turn.takeExecution compiled e s).2.iteration.signal = some raised ∧
    ((Turn.takeExecution compiled e s).2.iteration.status = .success ∨
      (Turn.takeExecution compiled e s).2.iteration.status = .incomplete)
  rw [Turn.takeExecution_suspended suspended]
  rcases Turn.takeSignal_cases compiled.source (Turn.assignedBy compiled e) raised (Turn.afterExecution e s) with
    ⟨htaken, -⟩ | htaken
  · rw [htaken]
    exact ⟨rfl, .inl rfl⟩
  · rw [htaken]
    exact ⟨rfl, .inr rfl⟩

end Agent

/-- The line of each declaration that is an outermost statement names the variable. -/
def Job.LaidOut (j : Job) : Prop :=
  ∀ d ∈ j.declarations, Tracks j.compiled.source d.1 (d.2.line - 1)

instance (j : Job) : Decidable j.LaidOut :=
  inferInstanceAs (Decidable (∀ d ∈ j.declarations, _))

/-- A script that declares a variable and thinks. -/
def declaringScript (gap : String) : String :=
  "let" ++ gap ++ "x = 1;\nthink(\"look\");"

/-- The reason of a thought, if an execution was suspended with one that carries nothing on. -/
def thoughtOf : Outcome → Option String
  | .suspended (.think reason none) => some reason
  | _ => none

theorem eq_suspended_of_thoughtOf {o : Outcome} {reason : String} (h : thoughtOf o = some reason) :
    o = .suspended (.think reason none) := by
  unfold thoughtOf at h
  split at h
  · rw [Option.some.inj h]
  · cases h

/-- The context of a first turn. -/
def emptyContext : Context where
  id := "ctx"

/-- With enough room, the model's script is executed, and the thought is recorded that it raises. -/
theorem Agent.exists_thinks {script reason : String} {c : Context}
    (written : (Fence.parseResponse script).hasCode = true)
    (compiles : compile (Fence.parseResponse script).code = .ok (codeOf script))
    (thinks : thoughtOf (scriptedExecution script c).outcome = some reason) :
    ∃ r, Executes r c {} [] (codeOf script) (scriptedExecution script c) ∧
      (r.turn c {} []).2.iteration.signal = some (.think reason none) ∧
      ((r.turn c {} []).2.iteration.status = .success ∨ (r.turn c {} []).2.iteration.status = .incomplete) := by
  obtain ⟨r, executes⟩ := exists_executes script c written compiles
  exact ⟨r, executes, executes.recorded_of_suspended (eq_suspended_of_thoughtOf thinks)⟩

/-- The job of a script that the model answers with. -/
def scriptedJob (script : String) : Job :=
  (Agent.scripted {} script [] 0).job emptyContext (Agent.codeOf script)

theorem scriptedExecution_eq (script : String) : Agent.scriptedExecution script emptyContext =
    ((scriptedJob script).execute (Agent.scriptedStart {} script [] emptyContext).host).1 :=
  rfl

end ScriptAgent
