import ScriptAgent.Proofs.Json.Records
import ScriptAgent.Proofs.Loop.Classification
import ScriptAgent.Proofs.Loop.Continuation

/-!
# What becomes of the script of a turn

A turn that does not end the run was answered with a script.  If that compiles, the turn is judged by its
execution alone, on an iteration without a verdict and in a context whose exits are those from before.
-/

namespace ScriptAgent

open Stateful (bind_apply)

namespace Turn

variable {r : Agent} {s : TurnState} {messages : List Message} {e : RunError}

/-! ### Turns that end the run -/

theorem cycle_of_window_error (h : window r.client s.context = .error e) : cycle r s = (.error e, s) := by
  unfold cycle
  rw [get_bind, h, error_bind]

theorem cycle_of_respond_error {failure : ModelFailure} (hw : window r.client s.context = .ok messages)
    (hr : r.client.respond s.requests (request r s.context messages) = .error failure) :
    ∃ s', cycle r s = (.error (.model failure), s') := by
  obtain ⟨s', hs'⟩ := generate_of_failure (s := (onIteration (fun i => { i with messages }) s).2) hr
  refine ⟨s', ?_⟩
  unfold cycle
  rw [get_bind, hw, ok_bind, step_bind, bind_apply, hs']

theorem cycle_of_no_code {response : GenerateResponse} (hw : window r.client s.context = .ok messages)
    (hr : r.client.respond s.requests (request r s.context messages) = .ok response)
    (hc : (Fence.parseResponse (response.text?.getD "")).hasCode = false) :
    ∃ s', cycle r s = (.error (.protocol "The model response did not contain any code"), s') := by
  have hgenerate := generate_of_respond (s := (onIteration (fun i => { i with messages }) s).2) hr
  unfold cycle
  rw [get_bind, hw, ok_bind, step_bind, bind_apply, hgenerate]
  dsimp only
  rw [hc, Bool.not_false, if_pos rfl, throw_bind]
  exact ⟨_, rfl⟩

/-- The model was asked with a window that fits, and answered with a script. -/
structure Answered (r : Agent) (c : Context) (requests : List GenerateRequest) (messages : List Message)
    (response : GenerateResponse) : Prop where
  window : Turn.window r.client c = .ok messages
  respond : r.client.respond requests (request r c messages) = .ok response
  written : (Fence.parseResponse (response.text?.getD "")).hasCode = true

/-- A turn that does not end the run was answered with a script. -/
theorem answered_of_whole (h : (whole r s).1 = none) :
    ∃ messages response, Answered r (recorded s).context s.requests messages response := by
  have unended {e : RunError} {s' : TurnState} (hcycle : cycle r (recorded s) = (.error e, s')) : False := by
    rw [whole_apply, recordCorrelation_apply, hcycle] at h
    cases h
  cases hw : window r.client (recorded s).context with
  | error e => exact (unended (cycle_of_window_error hw)).elim
  | ok messages =>
    cases hr : r.client.respond s.requests (request r (recorded s).context messages) with
    | error failure =>
      obtain ⟨s', hcycle⟩ := cycle_of_respond_error (s := recorded s) hw hr
      exact (unended hcycle).elim
    | ok response =>
      cases hc : (Fence.parseResponse (response.text?.getD "")).hasCode with
      | false =>
        obtain ⟨s', hcycle⟩ := cycle_of_no_code (s := recorded s) hw hr hc
        exact (unended hcycle).elim
      | true => exact ⟨messages, response, hw, hr, hc⟩

end Turn

namespace Agent

/-! ### Turns that run a script -/

section Script

variable {r : Agent} {c : Context} {host : Host} {requests : List GenerateRequest} {compiled : Compiled}
  {e : Execution}

/-- A turn executes a script: the model has answered with one that compiles, and an execution came of it. -/
inductive Executes (r : Agent) (c : Context) (host : Host) (requests : List GenerateRequest) (compiled : Compiled)
    (e : Execution) : Prop
  | intro {messages : List Message} {response : GenerateResponse} (answered : Turn.Answered r c requests messages response)
      (compiles : compile (Fence.parseResponse (response.text?.getD "")).code = .ok compiled)
      (executed : ((r.job c compiled).execute
        (Turn.ready r messages response (Turn.recorded (turnStart c host requests))).host).1 = e)

/-- The state of a turn with its iteration closed. -/
def closed (t : TurnState) : TurnState :=
  { t with iteration := iterationAfter t }

/-- A turn that executes a script is judged by the execution. -/
theorem Executes.turn (h : Executes r c host requests compiled e) :
    ∃ s, s.iteration.Open ∧ s.context.exits = c.exits ∧ s.context.convention = c.convention ∧
      r.turn c host requests = (none, closed (Turn.takeExecution compiled e s).2) := by
  obtain @⟨messages, response, answered, hcompiles, hexecuted⟩ := h
  have hwhole := Turn.whole_of_respond (s := turnStart c host requests)
    ((window_turnStart r.client c host requests).trans answered.window) answered.respond answered.written
  obtain ⟨s, hs⟩ : ∃ s, Turn.ready r messages response (Turn.recorded (turnStart c host requests)) = s := ⟨_, rfl⟩
  have hopen : s.iteration.Open := hs ▸ ⟨rfl, rfl, rfl, rfl⟩
  have hexits : s.context.exits = c.exits := hs ▸ rfl
  have hconvention : s.context.convention = c.convention := hs ▸ rfl
  have hjob : r.job s.context compiled = r.job c compiled := hs ▸ rfl
  rw [hs] at hwhole hexecuted
  rw [← hjob] at hexecuted
  obtain ⟨after, hafter⟩ : ∃ after, (r.job s.context compiled).execute s.host = (e, after) :=
    ⟨_, Prod.ext hexecuted rfl⟩
  rw [Turn.runCode_of_ok hcompiles hafter] at hwhole
  exact ⟨{ s with host := after }, hopen, hexits, hconvention, turn_of_whole hwhole⟩

/-- A turn that neither ends the run nor fails has executed a script. -/
theorem executes_of_turn (fine : (r.turn c host requests).1 = none)
    (unfailed : (r.turn c host requests).2.iteration.status ≠ .failed) :
    ∃ compiled e, Executes r c host requests compiled e := by
  obtain ⟨t, ht⟩ : ∃ t, Turn.whole r (turnStart c host requests) = t := ⟨_, rfl⟩
  rw [turn_of_whole ht] at fine unfailed
  obtain ⟨messages, response, hw, hr, hc⟩ := Turn.answered_of_whole (r := r) (s := turnStart c host requests)
    (by rw [ht]; exact fine)
  have hwhole := Turn.whole_of_respond (s := turnStart c host requests) hw hr hc
  rw [window_turnStart] at hw
  cases hcompiles : compile (Fence.parseResponse (response.text?.getD "")).code with
  | ok compiled => exact ⟨compiled, _, ⟨hw, hr, hc⟩, hcompiles, rfl⟩
  | error e =>
    refine absurd ?_ unfailed
    rw [← ht, hwhole]
    unfold Turn.runCode
    rw [hcompiles]
    rfl

end Script

/-! ### Models that answer with a script -/

/-- What a script is compiled to. -/
def codeOf (script : String) : Compiled :=
  (compile script).toOption.getD (.plain script)

/-- The execution of a script that the model answers with, whatever room there is. -/
def scriptedExecution (script : String) (c : Context) : Execution :=
  (((scripted {} script [] 0).job c (codeOf script)).execute (scriptedStart {} script [] c).host).1

/-- With enough room, a turn executes the script that the model answers with. -/
theorem exists_executes (script : String) (c : Context) (written : (Fence.parseResponse script).hasCode = true)
    (compiles : compile (Fence.parseResponse script).code = .ok (codeOf script)) :
    ∃ r, Executes r c {} [] (codeOf script) (scriptedExecution script c) := by
  have hroom := le_windowBudget (Truncate.initial (promptMessages c))
  exact ⟨scripted {} script [] _, .intro ⟨window_of_room hroom, rfl, written⟩ compiles rfl⟩

/-- The model answers with a script whose execution is completed with a value. -/
structure Completes (r : Agent) (script : String) (c : Context) (value : Json) : Prop where
  executes : Executes r c {} [] (codeOf script) (scriptedExecution script c)
  completed : (scriptedExecution script c).outcome = .completed value

/-- Whether an execution was completed with a value without doubles. -/
def completedWith (value : Json) : Outcome → Bool
  | .completed v => v.equals value
  | _ => false

theorem eq_completed_of_completedWith {value : Json} {o : Outcome} (h : completedWith value o = true) :
    o = .completed value := by
  unfold completedWith at h
  split at h
  · rw [Json.eq_of_equals h]
  · cases h

theorem exists_completes {script : String} {c : Context} {value : Json}
    (written : (Fence.parseResponse script).hasCode = true)
    (compiles : compile (Fence.parseResponse script).code = .ok (codeOf script))
    (completed : completedWith value (scriptedExecution script c).outcome = true) :
    ∃ r, Completes r script c value := by
  obtain ⟨r, executes⟩ := exists_executes script c written compiles
  exact ⟨r, executes, eq_completed_of_completedWith completed⟩

end Agent

end ScriptAgent
