import ScriptAgent.Proofs.Loop.Judging
import ScriptAgent.Proofs.Sandbox.Deeds

/-!
# What a turn does

A turn asks the model at most once, leaves the history and the options of its context alone, changes
objects only by the mutations of the script it ran, and judges its iteration: an error goes with the
status of a failure, and an error of generation with the end of the run.
-/

namespace ScriptAgent

open Stateful (bind_apply get_apply)

namespace Turn

/-- What a part of a turn leaves alone while it does not ask the model or run a script. -/
structure Frame (s s' : TurnState) : Prop where
  options : s'.context.options = s.context.options
  attempt : s'.context.attempt = s.context.attempt
  iterations : s'.context.iterations = s.context.iterations
  objects : s'.context.objects = s.context.objects
  requests : s'.requests = s.requests

/-- How an iteration ends whose script was run or refused: without an error, or failed with one. -/
inductive Judged : Iteration → Prop
  | fine {i : Iteration} (status : i.status ≠ .failed) (error : i.error = none) : Judged i
  | failed {i : Iteration} {e : IterationError} (status : i.status = .failed) (error : i.error = some e)
      (cause : ∀ message, e ≠ .generation message) : Judged i

/-- Judging a script leaves the frame alone. -/
theorem Ruling.frame {code : String} {assigned : Dict Json} {s s' : TurnState} {cut : Option String}
    (h : Ruling code assigned s cut s') : Frame s s' := by
  cases h <;> exact ⟨rfl, rfl, rfl, rfl, rfl⟩

/-- An iteration without an error so far is judged. -/
theorem Ruling.judged {code : String} {assigned : Dict Json} {s s' : TurnState} {cut : Option String}
    (h : Ruling code assigned s cut s') (hs : s.iteration.error = none) : Judged s'.iteration := by
  cases h with
  | exited | signalled | thinking => exact .fine (by simp) hs
  | failed e generated => exact .failed rfl rfl generated
  | aborted reason => exact .failed rfl rfl (by simp)

/-! ### Up to the script -/

section Steps

variable {α β : Type}

theorem get_bind (f : TurnState → TurnM β) (s : TurnState) : (get >>= f) s = f s s := by
  rw [bind_apply]
  rfl

theorem modify_bind (g : TurnState → TurnState) (f : PUnit → TurnM β) (s : TurnState) :
    (modify g >>= f) s = f ⟨⟩ (g s) := by
  rw [bind_apply]
  rfl

/-- A step that cannot fail. -/
theorem step_bind (x : StateM TurnState α) (f : α → TurnM β) (s : TurnState) :
    ((liftM x : TurnM α) >>= f) s = f (x s).1 (x s).2 := by
  rw [bind_apply]
  rfl

theorem step_apply (x : StateM TurnState Unit) (s : TurnState) : (liftM x : TurnM Unit) s = (.ok (), (x s).2) := rfl

theorem ok_bind (a : α) (f : α → TurnM β) (s : TurnState) :
    ((liftM (.ok a : Except RunError α) : TurnM α) >>= f) s = f a s := by
  rw [bind_apply]
  rfl

theorem error_bind (e : RunError) (f : α → TurnM β) (s : TurnState) :
    ((liftM (.error e : Except RunError α) : TurnM α) >>= f) s = (.error e, s) := by
  rw [bind_apply]
  rfl

theorem throw_bind (e : RunError) (f : α → TurnM β) (s : TurnState) :
    ((throw e : TurnM α) >>= f) s = (.error e, s) := by
  rw [bind_apply]
  rfl

end Steps

/-- The state once the model has answered. -/
def answered (r : Agent) (messages : List Message) (response : GenerateResponse) (s : TurnState) : TurnState :=
  { s with
    iteration := { s.iteration with
      call := some {
        id := response.id, model := response.model, startedAt := s.host.millis, endedAt := s.host.millis
        usage := response.usage, cost := response.cost, cached := response.cached
        output := response.text?.getD "" } }
    host := (s.host.trace (.modelCallStarted s.host.millis s.context.options.model)).trace
      (.modelCallSuccess s.host.millis s.host.millis response.model response.usage.input response.usage.output)
    requests := s.requests ++ [request r s.context messages] }

theorem generate_of_respond {r : Agent} {s : TurnState} {messages : List Message} {response : GenerateResponse}
    (hr : r.client.respond s.requests (request r s.context messages) = .ok response) :
    generate r messages s = (.ok (response.text?.getD ""), answered r messages response s) := by
  unfold generate
  rw [get_bind]
  dsimp only
  rw [step_bind, modify_bind, hr]
  rfl

theorem generate_of_failure {r : Agent} {s : TurnState} {messages : List Message} {failure : ModelFailure}
    (hr : r.client.respond s.requests (request r s.context messages) = .error failure) :
    ∃ s', generate r messages s = (.error (.model failure), s') := by
  unfold generate
  rw [get_bind]
  dsimp only
  rw [step_bind, modify_bind, hr]
  exact ⟨_, rfl⟩

/-- The first trace that was added records no signal. -/
def Opens (s s' : TurnState) : Prop :=
  ∃ t more, s'.host.traces = s.host.traces ++ t :: more ∧ t.signal? = none

/-- What changes when the model is sent messages, whatever it answers. -/
structure Sent (r : Agent) (messages : List Message) (s s' : TurnState) : Prop where
  context : s'.context = s.context
  iteration : ∃ call, s'.iteration = { s.iteration with call }
  requests : s'.requests = s.requests ++ [request r s.context messages]
  opens : Opens s s'

theorem generate_cases (r : Agent) (messages : List Message) (s : TurnState) :
    ∃ s', Sent r messages s s' ∧
      ((∃ e, generate r messages s = (.error e, s')) ∨ ∃ output, generate r messages s = (.ok output, s')) := by
  cases hr : r.client.respond s.requests (request r s.context messages) with
  | error failure =>
    unfold generate
    rw [get_bind]
    dsimp only
    rw [step_bind, modify_bind, hr]
    refine ⟨_, ?_, .inl ⟨_, rfl⟩⟩
    exact ⟨rfl, ⟨s.iteration.call, rfl⟩, rfl, _, [], rfl, rfl⟩
  | ok response =>
    refine ⟨_, ?_, .inr ⟨_, generate_of_respond hr⟩⟩
    exact ⟨rfl, ⟨_, rfl⟩, rfl, _, _, List.append_assoc _ _ _, rfl⟩

/-- What a turn does before its script: the model is asked if the messages fit, which changes nothing of the
context, and of the iteration only what it records of that. -/
structure Asks (r : Agent) (s : TurnState) (code : Option String) (s' : TurnState) : Prop where
  context : s'.context = s.context
  iteration : ∃ messages call, s'.iteration = { s.iteration with messages, call, code }
  requests : s'.requests = s.requests ++ match window r.client s.context with
    | .ok messages => [request r s.context messages]
    | .error _ => []
  traces : s'.host.traces = s.host.traces ∧ code = none ∨ Opens s s'

theorem Asks.asked {r : Agent} {s s' : TurnState} {code : Option String} (h : Asks r s code s') :
    ∃ asked, s'.requests = s.requests ++ asked ∧ asked.length ≤ 1 := by
  refine ⟨_, h.requests, ?_⟩
  split <;> simp

theorem cycle_cases (r : Agent) {s : TurnState} (hs : s.iteration.code = none) :
    (∃ e s', cycle r s = (.error e, s') ∧ Asks r s none s') ∨
      ∃ code s', cycle r s = (.ok (), (runCode r code s').2) ∧ Asks r s (some code) s' := by
  unfold cycle
  rw [get_bind]
  cases hw : window r.client s.context with
  | error e =>
    rw [error_bind]
    exact .inl ⟨e, s, rfl, rfl, ⟨_, _, by rw [← hs]⟩, by rw [hw, List.append_nil], .inl ⟨rfl, rfl⟩⟩
  | ok messages =>
    rw [ok_bind, step_bind]
    obtain ⟨s₁, hsent, hanswer⟩ := generate_cases r messages (onIteration (fun i => { i with messages }) s).2
    obtain ⟨call, hcall⟩ := hsent.iteration
    have asks (code : Option String) {s' : TurnState} (hs' : s' = { s₁ with iteration := { s₁.iteration with code } }) :
        Asks r s code s' := by
      subst hs'
      refine ⟨hsent.context, ⟨messages, call, ?_⟩, ?_, .inr hsent.opens⟩
      · rw [hcall]
        rfl
      · rw [hw]
        exact hsent.requests
    have unwritten : Asks r s none s₁ := by
      have hnone : s₁.iteration = { s₁.iteration with code := none } := by
        rw [hcall, ← hs]
        rfl
      refine asks none ?_
      rw [← hnone]
    rw [bind_apply]
    rcases hanswer with ⟨e, he⟩ | ⟨output, ho⟩
    · rw [he]
      exact .inl ⟨e, s₁, rfl, unwritten⟩
    · rw [ho]
      dsimp only
      split
      · rw [throw_bind]
        exact .inl ⟨_, s₁, rfl, unwritten⟩
      · rw [step_bind, step_apply]
        exact .inr ⟨(Fence.parseResponse output).code, _, rfl, asks _ rfl⟩

/-! ### Running a script -/

/-- What a turn does once it has a script: objects change only by the mutations of its run. -/
structure Executed (s s' : TurnState) : Prop where
  options : s'.context.options = s.context.options
  attempt : s'.context.attempt = s.context.attempt
  iterations : s'.context.iterations = s.context.iterations
  requests : s'.requests = s.requests
  objects : s'.context.objects = s.context.objects ∨
    ∃ (j : Job) (host : Host), j.objects = s.context.objects ∧
      s'.context.objects = s.context.objects.map (·.reconcile (j.execute host).1.mutations)
  judged : Judged s'.iteration

theorem executed_runCode (r : Agent) (code : String) (s : TurnState) (hs : s.iteration.error = none) :
    Executed s (runCode r code s).2 := by
  cases hc : compile code with
  | error e =>
    have ruling := ruling_runCode_of_error (r := r) hc s
    have frame := ruling.frame
    exact ⟨frame.options, frame.attempt, frame.iterations, frame.requests, .inl frame.objects, ruling.judged hs⟩
  | ok compiled =>
    let j : Job := {
      backend := r.settings.backend, compiled, «variables» := s.context.variables, tools := s.context.tools
      objects := s.context.objects, limits := r.settings.limits }
    have hrun : (runCode r code s).2 =
        (takeExecution compiled (j.execute s.host).1 { s with host := (j.execute s.host).2 }).2 := by
      unfold runCode
      rw [hc]
      rfl
    have ruling := ruling_takeExecution compiled (j.execute s.host).1 { s with host := (j.execute s.host).2 }
    rw [← hrun] at ruling
    have frame := ruling.frame
    exact ⟨frame.options, frame.attempt, frame.iterations, frame.requests, .inr ⟨j, s.host, rfl, frame.objects⟩,
      ruling.judged hs⟩

/-! ### The whole turn -/

/-- What a turn did: it ended the run before a script was run, or it judged its iteration, with the
objects as they were or as the mutations of the script have left them. -/
structure Did (s : TurnState) (fatal : Option RunError) (s' : TurnState) : Prop where
  options : s'.context.options = s.context.options
  attempt : s'.context.attempt = s.context.attempt
  iterations : s'.context.iterations = s.context.iterations
  requests : ∃ asked, s'.requests = s.requests ++ asked ∧ asked.length ≤ 1
  objects : s'.context.objects = s.context.objects ∨
    ∃ (j : Job) (host : Host), j.objects = s.context.objects ∧
      s'.context.objects = s.context.objects.map (·.reconcile (j.execute host).1.mutations)
  judged : (fatal = none ∧ Judged s'.iteration) ∨
    ∃ e, fatal = some e ∧ s'.iteration.status = .failed ∧ s'.iteration.error = some (.generation e.message)

/-- Closing the iteration changes nothing of that. -/
theorem Did.atEnd {s s' : TurnState} {fatal : Option RunError} (h : Did s fatal s') (traces : List Trace)
    (now : Millis) : Did s fatal { s' with iteration := { s'.iteration with traces, endedAt := now } } := by
  refine ⟨h.options, h.attempt, h.iterations, h.requests, h.objects, ?_⟩
  rcases h.judged with ⟨hn, hj⟩ | hf
  · refine .inl ⟨hn, ?_⟩
    cases hj with
    | fine status error => exact .fine status error
    | failed status error cause => exact .failed status error cause
  · exact .inr hf

/-- The state once the signal that the run goes on from is recorded. -/
def recorded (s : TurnState) : TurnState :=
  { s with
    context := { s.context with correlation := none }
    host := { s.host with
      traces := s.host.traces ++ (s.context.correlation.map (Trace.signal s.host.millis none)).toList } }

theorem recordCorrelation_apply (s : TurnState) : (recordCorrelation s).2 = recorded s := by
  unfold recordCorrelation recorded
  rw [get_bind_apply]
  cases hc : s.context.correlation with
  | some signal => rfl
  | none =>
    show s = _
    rw [Option.map_none, Option.toList_none, List.append_nil, ← hc]

theorem whole_apply (r : Agent) (s : TurnState) :
    whole r s = match cycle r (recordCorrelation s).2 with
      | (.ok (), s') => (none, s')
      | (.error e, s') => (some e, (failWith (.generation e.message) s').2) := by
  have bind_eq {α β : Type} (x : StateM TurnState α) (f : α → StateM TurnState β) (s : TurnState) :
      (x >>= f) s = f (x s).1 (x s).2 := rfl
  unfold whole
  rw [bind_eq, bind_eq]
  rcases h : cycle r (recordCorrelation s).2 with ⟨_ | _, s'⟩
  · rw [show (cycle r).run (recordCorrelation s).2 = _ from h]
    rfl
  · rw [show (cycle r).run (recordCorrelation s).2 = _ from h]
    rfl

/-- A turn fails before its script, or runs what the model wrote. -/
theorem whole_cases (r : Agent) {s : TurnState} (hs : s.iteration.code = none) :
    (∃ (e : RunError) (s' : TurnState), whole r s = (some e, (failWith (.generation e.message) s').2) ∧
      Asks r (recorded s) none s') ∨
    ∃ (code : String) (s' : TurnState), whole r s = (none, (runCode r code s').2) ∧ Asks r (recorded s) (some code) s' := by
  rw [whole_apply, recordCorrelation_apply]
  rcases cycle_cases r (s := recorded s) hs with ⟨e, s', hcycle, hasks⟩ | ⟨code, s', hcycle, hasks⟩ <;> rw [hcycle]
  · exact .inl ⟨e, s', rfl, hasks⟩
  · exact .inr ⟨code, s', rfl, hasks⟩

theorem whole_did (r : Agent) {s : TurnState} (hcode : s.iteration.code = none) (herror : s.iteration.error = none) :
    Did s (whole r s).1 (whole r s).2 := by
  rcases whole_cases r hcode with ⟨e, s', hwhole, hasks⟩ | ⟨code, s', hwhole, hasks⟩ <;> rw [hwhole]
  · exact ⟨congrArg (·.options) hasks.context, congrArg (·.attempt) hasks.context,
      congrArg (·.iterations) hasks.context, hasks.asked, .inl (congrArg (·.objects) hasks.context),
      .inr ⟨e, rfl, rfl, rfl⟩⟩
  · obtain ⟨messages, call, hiteration⟩ := hasks.iteration
    have hexecuted := executed_runCode r code s' (by rw [hiteration]; exact herror)
    generalize (runCode r code s').2 = t at hexecuted
    have hobjects : s'.context.objects = s.context.objects := congrArg (·.objects) hasks.context
    exact ⟨hexecuted.options.trans (congrArg (·.options) hasks.context),
      hexecuted.attempt.trans (congrArg (·.attempt) hasks.context),
      hexecuted.iterations.trans (congrArg (·.iterations) hasks.context),
      hexecuted.requests ▸ hasks.asked, hobjects ▸ hexecuted.objects, .inl ⟨rfl, hexecuted.judged⟩⟩

end Turn

end ScriptAgent
