import ScriptAgent.Proofs.Loop.Classification
import ScriptAgent.Proofs.Loop.Continuation
import ScriptAgent.Proofs.Loop.Objects
import ScriptAgent.Proofs.Sandbox.Schedule

/-!
# Turns in which anybody may abort the run

A turn asks the model, and has the script executed by worker and driver in whatever order they take their steps.
The abort latch may be fired at any moment of it, and any number of times.  Only the driver looks at the latch
before the turn is over, so outside of the script it makes no difference when that happens.
-/

namespace ScriptAgent

open Stateful (bind_apply)

/-! ### Executions -/

namespace Job

/-- What worker and driver give back, when these reasons are given to abort, with what the listener was told. -/
def Gives (j : Job) (host : Host) (given : List String) (heard : List Trace) (e : Execution) (host' : Host) : Prop :=
  ∃ x, Exchange.Reaches j { host } x ∧ x.driver = .done e ∧ x.host = host' ∧ x.given = given ∧ x.heard = heard

variable {j : Job} {host host' : Host} {given : List String} {heard : List Trace} {e : Execution}

/-- Fired once, the latch keeps its reason. -/
theorem Gives.abort (h : j.Gives host given heard e host') : host'.abort = host.abort.fireAll given := by
  obtain ⟨x, steps, -, rfl, rfl, rfl⟩ := h
  exact ((Exchange.Kept.start j host).reaches steps).founded.latch

/-- An execution is aborted for the reason in the latch. -/
theorem Gives.aborted (h : j.Gives host given heard e host') {reason : String}
    (aborted : e.outcome = .failed (.aborted reason)) : host'.abort.reason = some reason := by
  obtain ⟨x, steps, hd, rfl, rfl, rfl⟩ := h
  exact ((Exchange.Kept.start j host).reaches steps).founded.aborted e reason (by rw [hd]; rfl) aborted

/-- Inline, the traces that were left are those that the listener was told of. -/
theorem Gives.traces (h : j.Gives host given heard e host') (inline : j.backend = .inline) :
    host'.traces = host.traces ++ heard := by
  obtain ⟨x, steps, hd, rfl, rfl, rfl⟩ := h
  have kept := (Exchange.Kept.start j host).reaches steps
  obtain ⟨rep, hrep⟩ := kept.founded.ended inline (by rw [hd]; rfl)
  simpa [Exchange.Heard, hrep, hd, Worker.told, Driver.told] using kept.heard inline

theorem execute_gives (j : Job) (host : Host) :
    ∃ given heard, j.Gives host given heard (j.execute host).1 (j.execute host).2 ∧
      (j.execute host).2.traces = host.traces ++ heard := by
  obtain ⟨-, -, -, -, x, -, -, steps, hd, hx, -, hheard⟩ := j.exists_schedule host
  exact ⟨x.given, x.heard, ⟨x, steps, hd, hx, rfl, rfl⟩, hheard⟩

end Job

namespace Turn

/-! ### Up to the script -/

/-- The turn up to where the script is there. -/
def written (r : Agent) : TurnM String := do
  let messages ← window r.client (← get).context
  onIteration fun i => { i with messages }
  let response := Fence.parseResponse (← generate r messages)
  if !response.hasCode then throw (.protocol "The model response did not contain any code")
  onIteration fun i => { i with code := some response.code }
  return response.code

/-- The traces of asking the model, if there is a window to ask it with. -/
def asking (r : Agent) (s : TurnState) : Except RunError (List Message) → List Trace
  | .error _ => []
  | .ok messages =>
    .modelCallStarted s.host.millis s.context.options.model ::
      match r.client.respond s.requests (request r s.context messages) with
      | .error _ => []
      | .ok response => [.modelCallSuccess s.host.millis s.host.millis response.model response.usage.input
          response.usage.output]

/-- What is so once the model was asked, whatever came of it. -/
structure Written (r : Agent) (s s' : TurnState) : Prop where
  context : s'.context = s.context
  requests : ∃ asked, s'.requests = s.requests ++ asked ∧ asked.length ≤ 1
  abort : s'.host.abort = s.host.abort
  traces : s'.host.traces = s.host.traces ++ asking r s (window r.client s.context)
  iteration : ∃ messages call code, s'.iteration = { s.iteration with messages, call, code }

theorem allMessages_unaborted {c : Context} {e : RunError} (h : allMessages c = .error e) (reason : String) :
    e ≠ .aborted reason := by
  rintro rfl
  unfold allMessages at h
  cases hs : Prompt.systemMessage? c.promptInputs <;> rw [hs] at h <;> cases h

/-- Messages that do not fit do not abort the run. -/
theorem window_unaborted {client : ModelClient} {c : Context} {e : RunError} (h : window client c = .error e)
    (reason : String) : e ≠ .aborted reason := by
  unfold window at h
  cases hm : allMessages c with
  | error e' =>
    rw [hm] at h
    obtain rfl : e' = e := Except.error.inj h
    exact allMessages_unaborted hm reason
  | ok messages =>
    rw [hm] at h
    dsimp only [bind, Except.bind] at h
    generalize truncateMessages messages (windowBudget (client.details c.options.model).contextSize) = truncated at h
    cases truncated with
    | ok shorter => cases h
    | error used =>
      obtain rfl := Except.error.inj h
      nofun

/-- The state once the model was asked and has not answered. -/
def unanswered (r : Agent) (messages : List Message) (s : TurnState) : TurnState :=
  { s with
    host := s.host.trace (.modelCallStarted s.host.millis s.context.options.model)
    requests := s.requests ++ [request r s.context messages] }

theorem generate_unanswered {r : Agent} {s : TurnState} {messages : List Message} {failure : ModelFailure}
    (hr : r.client.respond s.requests (request r s.context messages) = .error failure) :
    generate r messages s = (.error (.model failure), unanswered r messages s) := by
  unfold generate
  rw [get_bind]
  dsimp only
  rw [step_bind, modify_bind, hr]
  rfl

/-- The model is asked for a script, and nothing else of the turn is done. -/
theorem generate_written (r : Agent) {messages : List Message} {s s₀ : TurnState}
    (hw : window r.client s.context = .ok messages) (hs : (onIteration (fun i => { i with messages }) s).2 = s₀) :
    ∃ s', Written r s s' ∧ ((∃ failure, generate r messages s₀ = (.error (.model failure), s')) ∨
      ∃ output, generate r messages s₀ = (.ok output, s')) := by
  subst hs
  cases hr : r.client.respond s.requests (request r s.context messages) with
  | error failure =>
    refine ⟨unanswered r messages (onIteration (fun i => { i with messages }) s).2,
      ⟨rfl, ⟨[request r s.context messages], rfl, Nat.le_refl _⟩, rfl, ?_,
        messages, s.iteration.call, s.iteration.code, rfl⟩, .inl ⟨failure, generate_unanswered hr⟩⟩
    rw [hw, asking, hr]
    rfl
  | ok response =>
    refine ⟨answered r messages response (onIteration (fun i => { i with messages }) s).2,
      ⟨rfl, ⟨[request r s.context messages], rfl, Nat.le_refl _⟩, rfl, ?_, messages, _, s.iteration.code, rfl⟩,
      .inr ⟨_, generate_of_respond hr⟩⟩
    rw [hw, asking, hr]
    exact List.append_assoc _ _ _

theorem written_cases (r : Agent) (s : TurnState) :
    (∃ e s', written r s = (.error e, s') ∧ cycle r s = (.error e, s') ∧ Written r s s' ∧
        ∀ reason, e ≠ .aborted reason) ∨
      ∃ code s', written r s = (.ok code, s') ∧ cycle r s = (.ok (), (runCode r code s').2) ∧ Written r s s' := by
  unfold written cycle
  rw [get_bind, get_bind]
  cases hw : window r.client s.context with
  | error e =>
    rw [error_bind, error_bind]
    refine .inl ⟨e, s, rfl, rfl, ⟨rfl, ⟨[], (List.append_nil _).symm, Nat.zero_le _⟩, rfl, ?_,
      ⟨s.iteration.messages, s.iteration.call, s.iteration.code, rfl⟩⟩, window_unaborted hw⟩
    rw [hw, asking, List.append_nil]
  | ok messages =>
    rw [ok_bind, ok_bind, step_bind, step_bind, bind_apply, bind_apply]
    obtain ⟨s₁, hwritten, ⟨failure, hg⟩ | ⟨output, hg⟩⟩ := generate_written r hw rfl
    · rw [hg]
      exact .inl ⟨_, s₁, rfl, rfl, hwritten, nofun⟩
    · rw [hg]
      dsimp only
      split
      · rw [throw_bind, throw_bind]
        exact .inl ⟨_, s₁, rfl, rfl, hwritten, nofun⟩
      · rw [step_bind, step_bind, step_apply]
        obtain ⟨messages', call, code, hiteration⟩ := hwritten.iteration
        refine .inr ⟨(Fence.parseResponse output).code, _, rfl, rfl, hwritten.context, hwritten.requests,
          hwritten.abort, hwritten.traces, messages', call, some (Fence.parseResponse output).code, ?_⟩
        show ({ s₁.iteration with code := some (Fence.parseResponse output).code } : Iteration) = _
        rw [hiteration]

/-! ### Judging a script -/

/-- What stays when a script is judged: a run is aborted only for the reason that its execution tells. -/
structure Assessed (o : Outcome) (s s' : TurnState) : Prop where
  context : s'.context.id = s.context.id
  iteration : s'.iteration.id = s.iteration.id
  host : s'.host = { s.host with traces := s.host.traces ++ judging s.host.millis o }
  aborted : ∀ reason, s'.iteration.error = some (.aborted reason) →
    o = .failed (.aborted reason) ∧ s'.iteration.signal = s.iteration.signal

theorem Ruling.assessed {code : String} {assigned : Dict Json} {s s' : TurnState} {o : Outcome}
    (h : Ruling code assigned (traced o s) o.abortReason? s') (herror : s.iteration.error = none) : Assessed o s s' := by
  generalize hcut : o.abortReason? = cut at h
  cases h with
  | exited | signalled | thinking => exact ⟨rfl, rfl, rfl, fun _ hr => nomatch herror.symm.trans hr⟩
  | failed e _ unaborted => exact ⟨rfl, rfl, rfl, fun reason hr => absurd (Option.some.inj hr) (unaborted reason)⟩
  | aborted reason =>
    refine ⟨rfl, rfl, rfl, fun reason' hr => ⟨?_, rfl⟩⟩
    obtain rfl := IterationError.aborted.inj (Option.some.inj hr)
    exact Outcome.abortReason?_eq_some hcut

theorem assessed_takeExecution (compiled : Compiled) (e : Execution) {s : TurnState}
    (herror : s.iteration.error = none) : Assessed e.outcome s (takeExecution compiled e s).2 := by
  have h : Assessed e.outcome (afterExecution e s) (takeExecution compiled e s).2 :=
    (ruling_takeExecution compiled e s).assessed herror
  exact ⟨h.context, h.iteration, h.host, h.aborted⟩

/-! ### The whole turn -/

/-- The same state with the abort latch fired for reasons. -/
def fired (given : List String) (s : TurnState) : TurnState :=
  { s with host := { s.host with abort := s.host.abort.fireAll given } }

/-- The traces of a turn before its script: of the signal that the run goes on from, and of asking the model. -/
def opening (r : Agent) (s : TurnState) : List Trace :=
  (s.context.correlation.map (Trace.signal s.host.millis none)).toList ++
    asking r (recorded s) (window r.client (recorded s).context)

/-- What a turn leaves when these reasons are given to abort meanwhile, with what the listener was told. -/
inductive Takes (r : Agent) (s : TurnState) (given : List String) : List Trace → Option RunError → TurnState → Prop
  /-- There is no script, and the run ends. -/
  | unwritten {e : RunError} {s₁ : TurnState} (wrote : written r (recorded s) = (.error e, s₁)) :
      Takes r s given (opening r s) (some e) (fired given (failWith (.generation e.message) s₁).2)
  | refused {code : String} {s₁ : TurnState} {e : CompileError} (wrote : written r (recorded s) = (.ok code, s₁))
      (refused : compile code = .error e) :
      Takes r s given (opening r s ++ [.invalidCodeException s₁.host.millis e.render code]) none
        (fired given (runCode r code s₁).2)
  | executed {code : String} {s₁ : TurnState} {compiled : Compiled} {heard : List Trace} {e : Execution} {host : Host}
      (wrote : written r (recorded s) = (.ok code, s₁)) (compiles : compile code = .ok compiled)
      (gives : (r.job s₁.context compiled).Gives s₁.host given heard e host) :
      Takes r s given (opening r s ++ heard ++ judging host.millis e.outcome) none
        (takeExecution compiled e { s₁ with host }).2

theorem runCode_of_error {r : Agent} {code : String} {e : CompileError} (s : TurnState) (h : compile code = .error e) :
    (runCode r code s).2 = { s with
      context := s.context.tell [Feedback.assistant code, Feedback.invalidCode code e.render]
      iteration := { s.iteration with status := .failed, error := some (.invalidCode e.render) }
      host := s.host.trace (.invalidCodeException s.host.millis e.render code) } := by
  unfold runCode
  rw [h]
  rfl

theorem written_of_ok {r : Agent} {s s₁ : TurnState} {code : String} (h : written r s = (.ok code, s₁)) :
    Written r s s₁ := by
  rcases written_cases r s with ⟨e, s', hw, -⟩ | ⟨code', s', hw, -, hs'⟩
  · cases hw.symm.trans h
  · obtain ⟨-, rfl⟩ := Prod.mk.inj (hw.symm.trans h)
    exact hs'

theorem written_of_error {r : Agent} {s s₁ : TurnState} {e : RunError} (h : written r s = (.error e, s₁)) :
    Written r s s₁ ∧ ∀ reason, e ≠ .aborted reason := by
  rcases written_cases r s with ⟨e', s', hw, -, hs', he⟩ | ⟨code', s', hw, -⟩
  · obtain ⟨h₁, rfl⟩ := Prod.mk.inj (hw.symm.trans h)
    obtain rfl := Except.error.inj h₁
    exact ⟨hs', he⟩
  · cases hw.symm.trans h

theorem fired_nil (s : TurnState) : fired [] s = s := rfl

theorem Written.error {r : Agent} {s s₁ : TurnState} (h : Written r s s₁) : s₁.iteration.error = s.iteration.error := by
  obtain ⟨messages, call, code, hiteration⟩ := h.iteration
  rw [hiteration]

theorem Written.opens {r : Agent} {s s₁ : TurnState} (h : Written r (recorded s) s₁) :
    s₁.host.traces = s.host.traces ++ opening r s := by
  rw [h.traces, opening, ← List.append_assoc]
  rfl

/-- A turn in which only handlers fire the latch is one of these. -/
theorem whole_takes (r : Agent) {s : TurnState} (herror : s.iteration.error = none) :
    ∃ given heard, Takes r s given heard (whole r s).1 (whole r s).2 ∧
      (whole r s).2.host.traces = s.host.traces ++ heard := by
  rw [whole_apply, recordCorrelation_apply]
  rcases written_cases r (recorded s) with ⟨e, s₁, hw, hcycle, hs₁, -⟩ | ⟨code, s₁, hw, hcycle, hs₁⟩ <;>
    rw [hcycle] <;> dsimp only
  · have h : Takes r s [] _ _ _ := .unwritten hw
    rw [fired_nil] at h
    exact ⟨[], _, h, hs₁.opens⟩
  · cases hc : compile code with
    | error e =>
      have h : Takes r s [] _ _ _ := .refused hw hc
      rw [fired_nil] at h
      refine ⟨[], _, h, ?_⟩
      rw [runCode_of_error s₁ hc, ← List.append_assoc, ← hs₁.opens]
      rfl
    | ok compiled =>
      obtain ⟨given, heard, hgives, htraces⟩ := (r.job s₁.context compiled).execute_gives s₁.host
      rcases he : (r.job s₁.context compiled).execute s₁.host with ⟨e, host⟩
      rw [he] at hgives htraces
      have hassessed := assessed_takeExecution compiled e (s := { s₁ with host }) (hs₁.error.trans herror)
      rw [runCode_of_ok hc he]
      refine ⟨given, _, .executed hw hc hgives, ?_⟩
      rw [hassessed.host]
      show host.traces ++ _ = _
      rw [htraces, hs₁.opens]
      simp only [List.append_assoc]

/-- What a turn leaves alone, and what it tells of an abort. -/
structure Took (r : Agent) (s : TurnState) (given : List String) (heard : List Trace) (fatal : Option RunError)
    (s' : TurnState) : Prop where
  id : s'.context.id = s.context.id
  options : s'.context.options = s.context.options
  attempt : s'.context.attempt = s.context.attempt
  iterations : s'.context.iterations = s.context.iterations
  requests : ∃ asked, s'.requests = s.requests ++ asked ∧ asked.length ≤ 1
  iteration : s'.iteration.id = s.iteration.id
  abort : s'.host.abort = s.host.abort.fireAll given
  /-- Inline, the traces that were left are those that the listener was told of. -/
  traces : r.settings.backend = .inline → s'.host.traces = s.host.traces ++ heard
  aborted : ∀ reason, s'.iteration.error = some (.aborted reason) →
    fatal = none ∧ s'.iteration.signal = none ∧ s'.host.abort.reason = some reason
  fatal : ∀ e reason, fatal = some e → e ≠ .aborted reason

theorem frame_takeExecution (compiled : Compiled) (e : Execution) (s : TurnState) :
    Frame (afterExecution e s) (takeExecution compiled e s).2 := by
  have h := (ruling_takeExecution compiled e s).frame
  exact ⟨h.options, h.attempt, h.iterations, h.objects, h.requests⟩

theorem Takes.took {r : Agent} {s s' : TurnState} {given : List String} {heard : List Trace} {fatal : Option RunError}
    (h : Takes r s given heard fatal s') (herror : s.iteration.error = none) (hsignal : s.iteration.signal = none) :
    Took r s given heard fatal s' := by
  have asked {s₁ : TurnState} (hs₁ : Written r (recorded s) s₁) :
      s₁.context.id = s.context.id ∧ s₁.context.options = s.context.options ∧
        s₁.context.attempt = s.context.attempt ∧ s₁.context.iterations = s.context.iterations ∧
        s₁.iteration.id = s.iteration.id ∧ s₁.iteration.signal = none ∧ s₁.host.abort = s.host.abort := by
    obtain ⟨messages, call, code, hiteration⟩ := hs₁.iteration
    rw [hs₁.context, hiteration, hs₁.abort]
    exact ⟨rfl, rfl, rfl, rfl, rfl, hsignal, rfl⟩
  cases h with
  | unwritten wrote =>
    obtain ⟨hs₁, he⟩ := written_of_error wrote
    obtain ⟨hid, hoptions, hattempt, hiterations, hiteration, -, habort⟩ := asked hs₁
    refine ⟨hid, hoptions, hattempt, hiterations, hs₁.requests, hiteration, congrArg (·.fireAll given) habort,
      fun _ => hs₁.opens, fun _ hr => (nomatch hr), fun e' reason h' => ?_⟩
    obtain rfl := Option.some.inj h'
    exact he reason
  | refused wrote refused =>
    have hs₁ := written_of_ok wrote
    obtain ⟨hid, hoptions, hattempt, hiterations, hiteration, -, habort⟩ := asked hs₁
    rw [runCode_of_error _ refused]
    refine ⟨hid, hoptions, hattempt, hiterations, hs₁.requests, hiteration, congrArg (·.fireAll given) habort,
      fun _ => ?_, fun _ hr => (nomatch hr), fun _ _ h' => (nomatch h')⟩
    rw [← List.append_assoc, ← hs₁.opens]
    rfl
  | @executed code s₁ compiled heard e host wrote compiles gives =>
    have hs₁ := written_of_ok wrote
    obtain ⟨hid, hoptions, hattempt, hiterations, hiteration, hunsignalled, habort⟩ := asked hs₁
    have hopen : ({ s₁ with host } : TurnState).iteration.error = none := hs₁.error.trans herror
    have hframe := frame_takeExecution compiled e { s₁ with host }
    have hassessed := assessed_takeExecution compiled e hopen
    generalize (takeExecution compiled e { s₁ with host }).2 = s' at hframe hassessed
    refine ⟨hassessed.context.trans hid, hframe.options.trans hoptions, hframe.attempt.trans hattempt,
      hframe.iterations.trans hiterations, ?_, hassessed.iteration.trans hiteration, ?_, fun inline => ?_,
      fun reason hr => ?_, fun _ _ h' => (nomatch h')⟩
    · rw [hframe.requests]
      exact hs₁.requests
    · rw [hassessed.host]
      show host.abort = _
      rw [gives.abort, habort]
    · rw [hassessed.host]
      show host.traces ++ _ = _
      rw [gives.traces inline, hs₁.opens]
      simp only [List.append_assoc]
    · obtain ⟨ho, hs⟩ := hassessed.aborted reason hr
      refine ⟨rfl, hs.trans hunsignalled, ?_⟩
      rw [hassessed.host]
      exact gives.aborted ho

end Turn

namespace Agent

/-! ### The loop -/

/-- What a turn leaves the loop: the observer hears of the iteration's end after the turn's traces. -/
def concluded (w : World) (heard : List Trace) (fatal : Option RunError) (s : TurnState) :
    Option RunEnding × Context × World :=
  let settled := endingOf fatal (iterationAfter s) { s.host with traces := [] }
  (settled.1, contextAfter s,
    { host := settled.2, requests := s.requests
      observed := w.observed ++ heard.map .trace ++ [.iterationEnd (iterationAfter s)] })

/-- What a turn leaves the loop when these reasons are given to abort meanwhile. -/
def Disturbed (r : Agent) (c : Context) (w : World) (given : List String)
    (left : Option RunEnding × Context × World) : Prop :=
  ∃ heard fatal s, Turn.Takes r (turnStart c w.host w.requests) given heard fatal s ∧ left = concluded w heard fatal s

/-- Turns of an agent in which anybody may fire the abort latch, at any moment. -/
def Disturbs (r : Agent) (turn : Turns) : Prop :=
  ∀ c w, ∃ given, Disturbed r c w given (turn c w)

/-- Turns in which only handlers fire the latch are of this kind. -/
theorem advance_disturbs (r : Agent) : Disturbs r r.advance := by
  intro c w
  obtain ⟨given, heard, htakes, htraces⟩ := Turn.whole_takes r (s := turnStart c w.host w.requests) rfl
  obtain ⟨t, ht⟩ : ∃ t, Turn.whole r (turnStart c w.host w.requests) = t := ⟨_, rfl⟩
  rw [ht] at htakes htraces
  obtain rfl : t.2.host.traces = heard := htraces
  refine ⟨given, t.2.host.traces, t.1, t.2, htakes, ?_⟩
  rw [advance_of_turn (turn_of_whole ht)]
  rfl

/-- What a turn adds, whenever the latch is fired. -/
structure Added (r : Agent) (c : Context) (w : World) (given : List String) (ending : Option RunEnding) (c' : Context)
    (w' : World) (i : Iteration) : Prop where
  id : i.id = c.nextId
  context : c'.id = c.id
  options : c'.options = c.options
  attempt : c'.attempt = c.attempt + 1
  iterations : c'.iterations = c.iterations ++ [i]
  requests : ∃ asked, w'.requests = w.requests ++ asked ∧ asked.length ≤ 1
  abort : w'.host.abort = w.host.abort.fireAll given
  /-- Inline, the observer hears of the iteration's traces in order and then of its end. -/
  observed : r.settings.backend = .inline → w'.observed = w.observed ++ i.traces.map .trace ++ [.iterationEnd i]
  /-- The run is aborted with the turn just if the iteration is. -/
  aborted : ∀ reason, ending = some (.failed (.aborted reason)) ↔ i.error = some (.aborted reason)
  reason : ∀ reason, i.error = some (.aborted reason) → w'.host.abort.reason = some reason

theorem endingOf_abort (fatal : Option RunError) (i : Iteration) (host : Host) :
    (endingOf fatal i host).2.abort = host.abort := by
  unfold endingOf
  split
  · rfl
  · split
    · rfl
    · split <;> rfl

theorem endingOf_aborted {fatal : Option RunError} {i : Iteration} (host : Host)
    (hi : ∀ reason, i.error = some (.aborted reason) → fatal = none ∧ i.signal = none)
    (hf : ∀ e reason, fatal = some e → e ≠ .aborted reason) (reason : String) :
    (endingOf fatal i host).1 = some (.failed (.aborted reason)) ↔ i.error = some (.aborted reason) := by
  constructor
  · intro h
    unfold endingOf at h
    split at h
    · cases h
      exact absurd rfl (hf _ reason rfl)
    · split at h
      · cases h
      · split at h
        · next hr =>
          cases h
          unfold abortReason? at hr
          split at hr
          · next he =>
            cases hr
            exact he
          · cases hr
        · split at h <;> cases h
  · intro h
    obtain ⟨rfl, hs⟩ := hi reason h
    simp [endingOf, hs, abortReason?, h]

theorem Disturbed.added {r : Agent} {c c' : Context} {w w' : World} {given : List String} {ending : Option RunEnding}
    (h : Disturbed r c w given (ending, c', w')) : ∃ i, Added r c w given ending c' w' i := by
  obtain ⟨heard, fatal, s, htakes, hleft⟩ := h
  have took := htakes.took rfl rfl
  obtain ⟨rfl, hrest⟩ := Prod.mk.inj hleft
  obtain ⟨rfl, rfl⟩ := Prod.mk.inj hrest
  have habort : (endingOf fatal (iterationAfter s) { s.host with traces := [] }).2.abort = s.host.abort :=
    endingOf_abort _ _ _
  refine ⟨iterationAfter s, took.iteration, took.id, took.options, took.attempt, congrArg (· ++ [_]) took.iterations,
    took.requests, habort.trans took.abort, fun inline => ?_, ?_, fun reason hr => ?_⟩
  · have htraces : (iterationAfter s).traces = heard := took.traces inline
    rw [htraces]
  · exact endingOf_aborted _ (fun reason hr => ⟨(took.aborted reason hr).1, (took.aborted reason hr).2.1⟩) took.fatal
  · exact habort ▸ (took.aborted reason hr).2.2

/-- A run whose turns are taken in some way. -/
def runBy (turn : Turns) (c : Context) (w : World) : RunResult :=
  match c.validate with
  | .error e => ⟨.failed e, c, w⟩
  | .ok () =>
    match applySnapshot c with
    | (c, some e) => ⟨.failed e, c, w⟩
    | (c, none) => takeTurns turn (c.options.loopLimit - c.attempt) c w

/-- Goes on from a snapshot that was settled in some way, with turns that are taken in some way. -/
def goOnBy (turn : Turns) (c : Context) (w : World) : Except RunError Snapshot → RunResult
  | .error e => ⟨.failed e, c, w⟩
  | .ok s => runBy turn { c with resume := some s } w

/-- What a move gives back, with turns that are taken in some way. -/
def playBy (turn : Turns) (move : Move) (c : Context) (w : World) : RunResult :=
  match move with
  | .run => runBy turn c w
  | .resolve s value => goOnBy turn c w (s.resolve value)
  | .reject s error => goOnBy turn c w (s.reject error)

theorem playBy_advance (r : Agent) (move : Move) (c : Context) (w : World) :
    playBy r.advance move c w = r.play move c w := by
  cases move <;> rfl

/-- A run is refused at once, or it is the loop. -/
theorem runBy_cases (turn : Turns) (c : Context) (w : World) :
    (∃ e c₁, runBy turn c w = ⟨.failed e, c₁, w⟩ ∧ (c₁ = c ∨ applySnapshot c = (c₁, some e))) ∨
      ∃ c₁, c.validate = .ok () ∧ applySnapshot c = (c₁, none) ∧
        runBy turn c w = takeTurns turn (c₁.options.loopLimit - c₁.attempt) c₁ w := by
  unfold runBy
  cases c.validate with
  | error e => exact .inl ⟨e, c, rfl, .inl rfl⟩
  | ok u =>
    rcases applySnapshot c with ⟨c₁, _ | e⟩
    · exact .inr ⟨c₁, rfl, rfl, rfl⟩
    · exact .inl ⟨e, c₁, rfl, .inr rfl⟩

end Agent

end ScriptAgent
