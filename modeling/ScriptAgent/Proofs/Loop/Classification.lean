import ScriptAgent.Proofs.Loop.TurnScript

/-!
# The verdict on an iteration

Each way in which a script can end leads to one verdict: it failed, it was aborted, it took an exit, it
raised a signal, or the model thinks again.  The verdict sets the fields of the iteration together, and
decides whether the model is told of it: with its own script and one message from where scripts run, or
not at all.
-/

namespace ScriptAgent

/-- An iteration without a verdict. -/
structure Iteration.Open (i : Iteration) : Prop where
  signal : i.signal = none
  error : i.error = none
  exit : i.exit = none
  returnValue : i.returnValue = none

namespace Turn

/-- The verdict on an iteration after its script, and what the model is told of it. -/
inductive Verdict (code : String) (i : Iteration) : List Message → Prop
  /-- The script failed in a way that the model can mend. -/
  | failed {e : IterationError} {body : String} (status : i.status = .failed) (error : i.error = some e)
      (generated : ∀ message, e ≠ .generation message) (unaborted : ∀ reason, e ≠ .aborted reason)
      (exit : i.exit = none) (value : i.returnValue = none) : Verdict code i (report code body)
  /-- The script was aborted. -/
  | aborted {reason : String} (status : i.status = .failed) (error : i.error = some (.aborted reason))
      (exit : i.exit = none) (value : i.returnValue = none) : Verdict code i []
  /-- An exit was taken. -/
  | exited {name : String} {value : Json} (status : i.status = .success) (exit : i.exit = some name)
      (value : i.returnValue = some value) (signal : i.signal = none) (error : i.error = none) : Verdict code i []
  /-- A signal was raised that ends the attempt. -/
  | signalled {raised : Signal} (status : i.status = .success) (signal : i.signal = some raised) (error : i.error = none)
      (exit : i.exit = none) (value : i.returnValue = none) : Verdict code i []
  /-- The model thinks again. -/
  | thinking {reason body : String} {context : Option Json} (status : i.status = .incomplete)
      (signal : i.signal = some (.think reason context)) (error : i.error = none) (exit : i.exit = none)
      (value : i.returnValue = none) : Verdict code i (report code body)

/-- Closing the iteration does not change the verdict. -/
theorem Verdict.atEnd {code : String} {i : Iteration} {told : List Message} (h : Verdict code i told)
    (traces : List Trace) (now : Millis) : Verdict code { i with traces, endedAt := now } told := by
  cases h with
  | failed status error generated unaborted exit value => exact .failed status error generated unaborted exit value
  | aborted status error exit value => exact .aborted status error exit value
  | exited status exit value signal error => exact .exited status exit value signal error
  | signalled status signal error exit value => exact .signalled status signal error exit value
  | thinking status signal error exit value => exact .thinking status signal error exit value

/-! ### Reaching a verdict -/

/-- A part of a turn that reaches a verdict on an open iteration, and tells the model what goes with it. -/
def Rules (code : String) (x : StateM TurnState Unit) : Prop :=
  ∀ s, s.iteration.Open → (x s).2.iteration.code = s.iteration.code ∧
    ∃ told, Verdict code (x s).2.iteration told ∧ (x s).2.context.pending = s.context.pending ++ told

theorem Ruling.verdict {code : String} {assigned : Dict Json} {s s' : TurnState} {cut : Option String}
    (h : Ruling code assigned s cut s') (hs : s.iteration.Open) : s'.iteration.code = s.iteration.code ∧
      ∃ told, Verdict code s'.iteration told ∧ s'.context.pending = s.context.pending ++ told := by
  cases h with
  | exited name value => exact ⟨rfl, [], .exited rfl rfl rfl hs.signal hs.error, (List.append_nil _).symm⟩
  | signalled signal => exact ⟨rfl, [], .signalled rfl rfl hs.error hs.exit hs.returnValue, (List.append_nil _).symm⟩
  | thinking reason context => exact ⟨rfl, _, .thinking rfl rfl hs.error hs.exit hs.returnValue, rfl⟩
  | failed e generated unaborted =>
    exact ⟨rfl, _, .failed rfl rfl generated unaborted hs.exit hs.returnValue, rfl⟩
  | aborted reason => exact ⟨rfl, [], .aborted rfl rfl hs.exit hs.returnValue, (List.append_nil _).symm⟩

/-- Whatever came of a script, there is one verdict on it. -/
theorem rules_takeExecution (compiled : Compiled) (e : Execution) :
    Rules compiled.source (takeExecution compiled e) :=
  fun s hs => (ruling_takeExecution compiled e s).verdict ⟨hs.signal, hs.error, hs.exit, hs.returnValue⟩

theorem source_of_compile {code : String} {compiled : Compiled} (h : compile code = .ok compiled) :
    compiled.source = code := by
  unfold compile at h
  dsimp only at h
  split at h
  · cases h
    rfl
  · split at h
    · cases h
      rfl
    · cases h

theorem rules_runCode (r : Agent) (code : String) : Rules code (runCode r code) := by
  intro s hs
  cases hc : compile code with
  | error e => exact (ruling_runCode_of_error (r := r) hc s).verdict hs
  | ok compiled =>
    rcases he : (r.job s.context compiled).execute s.host with ⟨e, host⟩
    rw [runCode_of_ok hc he, ← source_of_compile hc]
    exact rules_takeExecution compiled e { s with host } hs

end Turn

namespace Agent

/-! ### The iteration of a turn -/

/-- How an iteration is classified, with the messages that were pending before it and after it. -/
structure Classified (before after : List Message) (i : Iteration) : Prop where
  failed : i.status = .failed ↔ i.error.isSome
  unwritten : i.code = none ↔ ∃ message, i.error = some (.generation message)
  thinking : i.status = .incomplete → (∃ reason context, i.signal = some (.think reason context)) ∧ i.exit = none
  valued : i.exit.isSome ↔ i.returnValue.isSome
  exited : i.exit.isSome → i.status = .success ∧ i.signal = none ∧ i.error = none
  /-- The model is told of an iteration after which the loop goes on: what it wrote, and one message. -/
  told : GoesOn i → ∃ code body, i.code = some code ∧ after = before ++ Turn.report code body
  /-- It is told nothing of any other. -/
  untold : ¬GoesOn i → after = before

theorem not_goesOn_of_success {i : Iteration} (status : i.status = .success) : ¬GoesOn i := by
  intro h
  cases h with
  | incomplete status' => exact absurd (status.symm.trans status') (by simp)
  | failed status' => exact absurd (status.symm.trans status') (by simp)

theorem GoesOn.mendable {i : Iteration} {e : IterationError} (h : GoesOn i) (status : i.status = .failed)
    (error : i.error = some e) : (∀ message, e ≠ .generation message) ∧ ∀ reason, e ≠ .aborted reason := by
  cases h with
  | incomplete status' => exact absurd (status.symm.trans status') (by simp)
  | failed _ error' generated unaborted =>
    obtain rfl := Option.some.inj (error'.symm.trans error)
    exact ⟨generated, unaborted⟩

theorem Classified.of_verdict {code : String} {i : Iteration} {told before : List Message}
    (h : Turn.Verdict code i told) (wrote : i.code = some code) : Classified before (before ++ told) i := by
  cases h with
  | failed status error generated unaborted exit value =>
    refine ⟨by simp [status, error], ?_, by simp [status], by simp [exit, value], by simp [exit],
      fun _ => ⟨code, _, wrote, rfl⟩, fun h => absurd (.failed status error generated unaborted) h⟩
    simpa [wrote, error] using generated
  | aborted status error exit value =>
    exact ⟨by simp [status, error], by simp [wrote, error], by simp [status], by simp [exit, value], by simp [exit],
      fun h => absurd rfl ((h.mendable status error).2 _), fun _ => List.append_nil _⟩
  | exited status exit value signal error =>
    exact ⟨by simp [status, error], by simp [wrote, error], by simp [status], by simp [exit, value],
      fun _ => ⟨status, signal, error⟩, fun h => absurd h (not_goesOn_of_success status), fun _ => List.append_nil _⟩
  | signalled status signal error exit value =>
    exact ⟨by simp [status, error], by simp [wrote, error], by simp [status], by simp [exit, value], by simp [exit],
      fun h => absurd h (not_goesOn_of_success status), fun _ => List.append_nil _⟩
  | thinking status signal error exit value =>
    exact ⟨by simp [status, error], by simp [wrote, error], fun _ => ⟨⟨_, _, signal⟩, exit⟩, by simp [exit, value],
      by simp [exit], fun _ => ⟨code, _, wrote, rfl⟩, fun h => absurd (.incomplete status) h⟩

/-- An iteration that failed before its script, of which the model is told nothing. -/
theorem Classified.of_generation {i : Iteration} {message : String} (status : i.status = .failed)
    (error : i.error = some (.generation message)) (unwritten : i.code = none) (exit : i.exit = none)
    (value : i.returnValue = none) (before : List Message) : Classified before before i :=
  ⟨by simp [status, error], by simp [unwritten, error], by simp [status], by simp [exit, value], by simp [exit],
    fun h => absurd rfl ((h.mendable status error).1 _), fun _ => rfl⟩

/-- Every turn leaves an iteration that is classified coherently, whatever came of asking the model, of
compiling its script and of executing it; and the model is told of it once, if the loop goes on, or not
at all. -/
theorem turn_classified (r : Agent) (c : Context) (host : Host) (requests : List GenerateRequest) :
    Classified c.pending (r.turn c host requests).2.context.pending (r.turn c host requests).2.iteration := by
  rcases Turn.whole_cases r (s := turnStart c host requests) rfl with ⟨e, s, hwhole, hasks⟩ | ⟨code, s, hwhole, hasks⟩
  · obtain ⟨messages, call, hiteration⟩ := hasks.iteration
    have hpending : s.context.pending = c.pending := congrArg (·.pending) hasks.context
    rw [turn_of_whole hwhole]
    show Classified c.pending s.context.pending _
    rw [hpending]
    refine .of_generation rfl rfl ?_ ?_ ?_ _
    · exact hasks.code
    · exact congrArg (·.exit) hiteration
    · exact congrArg (·.returnValue) hiteration
  · obtain ⟨messages, call, hiteration⟩ := hasks.iteration
    have hopen : s.iteration.Open := by
      rw [hiteration]
      exact ⟨rfl, rfl, rfl, rfl⟩
    have hpending : s.context.pending = c.pending := congrArg (·.pending) hasks.context
    obtain ⟨hcode, told, hverdict, htold⟩ := Turn.rules_runCode r code s hopen
    rw [turn_of_whole hwhole]
    generalize (Turn.runCode r code s).2 = t at hcode hverdict htold
    show Classified c.pending t.context.pending { t.iteration with traces := t.host.traces, endedAt := t.host.millis }
    rw [htold, hpending]
    exact .of_verdict (hverdict.atEnd _ _) (hcode.trans hasks.code)

end Agent

end ScriptAgent
