import ScriptAgent.Proofs.Loop.Exits

/-!
# Runs that succeed

A run with exits succeeds with its last turn alone, and in two ways only.  Either the script of that turn has
raised a signal: it hands over, it has thought with nothing to report, or one of its tools has raised a
correlation.  Or it has returned an action that finds an exit, with a value that satisfies the schema once
defaults are filled in.
-/

namespace ScriptAgent

/-- The signals that a script can return: it hands over, or it thinks. -/
theorem Returned.kind_of_signal {value : Json} {raised : Signal} (h : ofValue value = .signal raised) :
    raised.isHandoff = true ∨ ∃ reason context, raised = .think reason context := by
  unfold ofValue at h
  split at h
  · next action fields _ =>
    simp only [ofAction] at h
    split at h
    · cases h
      exact .inr ⟨_, _, rfl⟩
    · split at h
      · cases h
        exact .inl rfl
      · split at h
        · split at h <;> cases h
          exact .inl rfl
        · split at h
          · split at h <;> cases h
            exact .inl rfl
          · cases h
  · cases h

namespace Agent

/-! ### The last turn -/

section Last

variable {r : Agent} {c : Context} {w : World}

theorem endingOf_success {fatal : Option RunError} {i : Iteration} {host : Host}
    (h : (endingOf fatal i host).1 = some .success) :
    fatal = none ∧ i.status = .success ∧ ∀ d, i.signal ≠ some (.interrupt d) := by
  cases endsWith_of_endingOf h with
  | success status uninterrupted =>
    refine ⟨?_, status, uninterrupted⟩
    cases fatal with
    | none => rfl
    | some e => cases h

/-- A run that succeeds ends with a turn that does. -/
theorem run_success {s : Option Snapshot} (h : (r.run { c with resume := s } w).ending = .success) :
    ∃ c₁ w₁, Becomes c c₁ ∧ (r.advance c₁ w₁).1 = some .success ∧
      (r.run { c with resume := s } w).context = (r.advance c₁ w₁).2.1.finishAttempt := by
  rcases r.run_cases { c with resume := s } w with ⟨e, c₀, hr, -⟩ | ⟨c₀, valid, begun, hr⟩
  · rw [hr] at h
    cases h
  -- Of the ways in which the turns of a run end, only one succeeds: with its last turn.
  · have hends := takeTurns_ends (Advances.counts (advance_advanced r)) (c := c₀) (w := w) (Nat.le_refl _)
    rw [← hr] at hends
    generalize r.run { c with resume := s } w = res at h hends
    cases hends with
    | aborted => cases h
    | exceeded => cases h
    | @turned c₂ w₂ ending passed =>
      obtain rfl : ending = .success := h
      cases passed with
      | @turn c₁ _ w₁ _ _ before unaborted left turned =>
        exact ⟨c₁, w₁, .iteration .start valid begun before, by rw [turned], by rw [turned]; rfl⟩

theorem play_success {move : Move} (h : (r.play move c w).ending = .success) :
    ∃ c₁ w₁, Becomes c c₁ ∧ (r.advance c₁ w₁).1 = some .success ∧
      (r.play move c w).context = (r.advance c₁ w₁).2.1.finishAttempt := by
  have goOn {s : Except RunError Snapshot} (h : (r.goOn c w s).ending = .success) :
      ∃ c₁ w₁, Becomes c c₁ ∧ (r.advance c₁ w₁).1 = some .success ∧
        (r.goOn c w s).context = (r.advance c₁ w₁).2.1.finishAttempt := by
    cases s with
    | error e => cases h
    | ok s => exact run_success h
  cases move with
  | run => exact run_success (s := c.resume) h
  | resolve s value => exact goOn h
  | reject s error => exact goOn h

end Last

/-! ### What it has concluded -/

/-- The signals with which an execution lets a run succeed. -/
inductive LetsSucceed (c : Context) (compiled : Compiled) (e : Execution) : Signal → Prop
  | handoff {raised : Signal} (handoff : raised.isHandoff = true) : LetsSucceed c compiled e raised
  | thought {reason : String} {context : Option Json} (quiet : Turn.Quiet c (Turn.assignedBy compiled e) context) :
      LetsSucceed c compiled e (.think reason context)
  /-- A tool may raise what else only a resumed run records. -/
  | correlation {d : Correlation} (raised : e.outcome = .suspended (.correlation d)) : LetsSucceed c compiled e (.correlation d)

/-- How the last iteration of a run that succeeds goes with the execution of its script. -/
inductive Concludes (c : Context) (compiled : Compiled) (e : Execution) (i : Iteration) : Prop
  | signalled {raised : Signal} (lets : LetsSucceed c compiled e raised) (signal : i.signal = some raised)
      (exit : i.exit = none) (value : i.returnValue = none)
  | exited {value given parsed : Json} {action : String} {exit : Exit} (completed : e.outcome = .completed value)
      (asked : Returned.ofValue value = .exit action given) (configured : exit ∈ c.exits)
      (found : exit.matchesAction action = true) (admitted : exit.parseValue given = .ok parsed)
      (satisfied : ∀ schema ∈ exit.schema, validate schema parsed = .ok ()) (taken : i.Exited exit.name parsed)

section Conclusion

variable {compiled : Compiled} {e : Execution} {s : TurnState}

theorem validate_of_parseValue {exit : Exit} {given parsed : Json} (h : exit.parseValue given = .ok parsed) :
    ∀ schema ∈ exit.schema, validate schema parsed = .ok () := by
  intro schema hschema
  rw [Exit.parseValue, Option.mem_def.mp hschema] at h
  exact validate_of_parseWith h

/-- A signal that was taken with success is one that lets a run succeed. -/
theorem concludes_takeSignal {c : Context} {code : String} {raised : Signal} (fresh : s.iteration.Open)
    (convention : s.context.convention = c.convention)
    (lets : (∀ reason context, raised = .think reason context →
      Turn.Quiet c (Turn.assignedBy compiled e) context) → LetsSucceed c compiled e raised)
    (success : (Turn.takeSignal code (Turn.assignedBy compiled e) raised s).2.iteration.status = .success) :
    Concludes c compiled e (Turn.takeSignal code (Turn.assignedBy compiled e) raised s).2.iteration := by
  rcases Turn.takeSignal_cases code (Turn.assignedBy compiled e) raised s with ⟨htaken, hquiet⟩ | htaken
  · rw [htaken]
    refine .signalled (lets fun reason context hthink => ?_) rfl fresh.exit fresh.returnValue
    obtain ⟨unassigned, empty, unreported⟩ := hquiet reason context hthink
    exact ⟨unassigned, empty, convention ▸ unreported⟩
  · rw [htaken] at success
    cases success

/-- An exit that was taken with success is configured, and admits the value. -/
theorem concludes_takeExit {c : Context} {code action : String} {value given : Json} (fresh : s.iteration.Open)
    (exits : s.context.exits = c.exits) (configured : c.exits ≠ []) (completed : e.outcome = .completed value)
    (asked : Returned.ofValue value = .exit action given)
    (success : (Turn.takeExit code action given s).2.iteration.status = .success) :
    Concludes c compiled e (Turn.takeExit code action given s).2.iteration := by
  rcases Turn.takeExit_cases code action given (exits ▸ configured) with
    ⟨exit, parsed, hfound, hparsed, htaken⟩ | ⟨hfailed, -⟩
  · rw [htaken]
    rw [exits] at hfound
    have hmatches : exit.matchesAction action = true := by simpa using List.find?_some hfound
    exact .exited completed asked (List.mem_of_find?_eq_some hfound) hmatches hparsed
      (validate_of_parseValue hparsed) ⟨rfl, rfl, rfl, fresh.signal, fresh.error⟩
  · rw [hfailed] at success
    cases success

theorem letsSucceed_of_returned {c : Context} {value : Json} {raised : Signal} (h : Returned.ofValue value = .signal raised)
    (quiet : ∀ reason context, raised = .think reason context → Turn.Quiet c (Turn.assignedBy compiled e) context) :
    LetsSucceed c compiled e raised := by
  rcases Returned.kind_of_signal h with handoff | ⟨reason, context, rfl⟩
  · exact .handoff handoff
  · exact .thought (quiet reason context rfl)

theorem letsSucceed_of_suspended {c : Context} {raised : Signal} (h : e.outcome = .suspended raised)
    (uninterrupted : ∀ d, raised ≠ .interrupt d)
    (quiet : ∀ reason context, raised = .think reason context → Turn.Quiet c (Turn.assignedBy compiled e) context) :
    LetsSucceed c compiled e raised := by
  cases raised with
  | think reason context => exact .thought (quiet reason context rfl)
  | listen | execute | transition => exact .handoff rfl
  | interrupt d => exact absurd rfl (uninterrupted d)
  | correlation d => exact .correlation h

theorem concludes_takeValue {c : Context} {value : Json} (fresh : s.iteration.Open)
    (exits : s.context.exits = c.exits) (convention : s.context.convention = c.convention) (configured : c.exits ≠ [])
    (completed : e.outcome = .completed value)
    (success : (Turn.takeValue compiled.source (Turn.assignedBy compiled e) value s).2.iteration.status = .success) :
    Concludes c compiled e (Turn.takeValue compiled.source (Turn.assignedBy compiled e) value s).2.iteration := by
  unfold Turn.takeValue at success ⊢
  cases hreturned : Returned.ofValue value with
  | signal raised =>
    rw [hreturned] at success
    exact concludes_takeSignal (s := (Turn.traceSignal raised s).2) ⟨fresh.signal, fresh.error, fresh.exit, fresh.returnValue⟩
      convention (letsSucceed_of_returned hreturned) success
  | exit action given =>
    rw [hreturned] at success
    exact concludes_takeExit fresh exits configured completed hreturned success
  | invalid action message =>
    rw [hreturned] at success
    cases success
  | nothing =>
    rw [hreturned] at success
    exact concludes_takeSignal fresh convention (fun quiet => .thought (quiet _ _ rfl)) success

/-- An execution that was judged a success has concluded with a signal or with an exit. -/
theorem concludes_takeExecution {c : Context} (fresh : s.iteration.Open) (exits : s.context.exits = c.exits)
    (convention : s.context.convention = c.convention) (configured : c.exits ≠ [])
    (success : (Turn.takeExecution compiled e s).2.iteration.status = .success)
    (uninterrupted : ∀ d, (Turn.takeExecution compiled e s).2.iteration.signal ≠ some (.interrupt d)) :
    Concludes c compiled e (Turn.takeExecution compiled e s).2.iteration := by
  have fresh' : (Turn.afterExecution e s).iteration.Open := ⟨fresh.signal, fresh.error, fresh.exit, fresh.returnValue⟩
  cases houtcome : e.outcome with
  | failed error =>
    rw [Turn.takeExecution_failed houtcome] at success
    cases error <;> cases success
  | completed value =>
    rw [Turn.takeExecution_completed houtcome] at success ⊢
    exact concludes_takeValue fresh' exits convention configured houtcome success
  | suspended raised =>
    rw [Turn.takeExecution_suspended houtcome] at success uninterrupted ⊢
    refine concludes_takeSignal fresh' convention (letsSucceed_of_suspended houtcome fun d hd => ?_) success
    rcases Turn.takeSignal_cases compiled.source (Turn.assignedBy compiled e) raised (Turn.afterExecution e s) with
      ⟨htaken, -⟩ | htaken
    all_goals
      refine uninterrupted d ?_
      rw [htaken, hd]

end Conclusion

theorem lastIteration?_finishAttempt (c : Context) : c.finishAttempt.lastIteration? = c.lastIteration? := rfl

theorem turn_concludes (r : Agent) {c : Context} {w : World} (configured : c.exits ≠ [])
    (success : (r.advance c w).1 = some .success) :
    (r.advance c w).2.1.lastIteration? = some (r.turn c w.host w.requests).2.iteration ∧
      ∃ compiled e, Executes r c w.host w.requests compiled e ∧
        Concludes c compiled e (r.turn c w.host w.requests).2.iteration := by
  obtain ⟨t, ht⟩ : ∃ t, r.turn c w.host w.requests = t := ⟨_, rfl⟩
  rw [advance_of_turn ht] at success ⊢
  obtain ⟨fine, status, uninterrupted⟩ := endingOf_success success
  rw [← ht] at fine status uninterrupted
  obtain ⟨compiled, e, executes⟩ := executes_of_turn fine (by rw [status]; nofun)
  obtain ⟨s, fresh, hexits, hconvention, hturn⟩ := executes.turn
  rw [hturn] at status uninterrupted
  rw [← ht]
  refine ⟨?_, compiled, e, executes, ?_⟩
  · rw [Context.lastIteration?, Context.record, List.getLast?_concat]
  · rw [hturn]
    have hconcludes := concludes_takeExecution fresh hexits hconvention configured status uninterrupted
    cases hconcludes with
    | signalled lets signal exit value => exact .signalled lets signal exit value
    | exited completed asked configured found admitted satisfied taken =>
      exact .exited completed asked configured found admitted satisfied ((exited_closed _ _ _).mpr taken)

/-- A run with exits that succeeds, after however many turns, ends with an iteration that carries a signal and
no exit, or one of its exits and a value that satisfies the exit's schema. -/
theorem success_concludes (r : Agent) (move : Move) {c : Context} {w : World} (configured : c.exits ≠ [])
    (success : (r.play move c w).ending = .success) :
    ∃ (c₁ : Context) (w₁ : World) (compiled : Compiled) (e : Execution) (i : Iteration),
      Becomes c c₁ ∧ c₁.exits = c.exits ∧ Executes r c₁ w₁.host w₁.requests compiled e ∧
        (r.play move c w).context.lastIteration? = some i ∧ Concludes c₁ compiled e i := by
  obtain ⟨c₁, w₁, became, hsuccess, hcontext⟩ := play_success success
  have hexits : c₁.exits = c.exits := (invariant_exits c.exits).becomes rfl became
  obtain ⟨hlast, compiled, e, executes, concludes⟩ := r.turn_concludes (hexits ▸ configured) hsuccess
  refine ⟨c₁, w₁, compiled, e, _, became, hexits, executes, ?_, concludes⟩
  rw [hcontext, lastIteration?_finishAttempt]
  exact hlast

/-! ### Runs of one turn -/

theorem endingOf_of_success {i : Iteration} (status : i.status = .success) (error : i.error = none)
    (uninterrupted : ∀ d, i.signal ≠ some (.interrupt d)) (host : Host) :
    endingOf none i host = (some .success, host) := by
  have hreason : abortReason? i = none := by rw [abortReason?, error]
  unfold endingOf
  dsimp only
  split
  · next d hd => exact absurd hd (uninterrupted d)
  · rw [hreason, Iteration.isSuccess, status]
    rfl

section FirstTurn

variable {r : Agent} {c : Context} (valid : c.validate = .ok ()) (fresh : c.resume = none)
  (left : c.attempt < c.options.loopLimit)
include valid fresh left

/-- A first turn that leaves an iteration with success is all of a run. -/
theorem play_of_turn {t : TurnState} (turned : r.turn c {} [] = (none, t)) (status : t.iteration.status = .success)
    (error : t.iteration.error = none) (uninterrupted : ∀ d, t.iteration.signal ≠ some (.interrupt d)) :
    (r.play .run c {}).ending = .success ∧ (r.play .run c {}).context.lastIteration? = some t.iteration := by
  have hadvance := advance_of_turn (w := {}) turned
  rw [endingOf_of_success status error uninterrupted] at hadvance
  have hplay : r.play .run c {} = _ := run_of_advance valid fresh rfl left hadvance
  rw [hplay]
  refine ⟨rfl, ?_⟩
  rw [settle, lastIteration?_finishAttempt, Context.lastIteration?, Context.record, List.getLast?_concat]

/-- A run succeeds whose first script raises a correlation in a tool. -/
theorem play_of_correlation {compiled : Compiled} {e : Execution} {d : Correlation}
    (executes : Executes r c {} [] compiled e) (suspended : e.outcome = .suspended (.correlation d)) :
    (r.play .run c {}).ending = .success ∧ ∃ i, (r.play .run c {}).context.lastIteration? = some i ∧
      i.signal = some (.correlation d) ∧ i.exit = none := by
  obtain ⟨s, fresh', -, -, hturn⟩ := executes.turn
  rw [Turn.takeExecution_suspended suspended] at hturn
  obtain ⟨success, hlast⟩ := play_of_turn valid fresh left hturn rfl fresh'.error nofun
  exact ⟨success, _, hlast, rfl, fresh'.exit⟩

end FirstTurn

/-- A run is all of one turn if its first script returns its one exit. -/
theorem play_of_exit {r : Agent} {script name : String} {fields : Dict Json} (valid : (exitContext name).validate = .ok ())
    (completes : Completes r script (exitContext name) (.obj fields))
    (asked : Dict.get? fields "action" = some (.str name)) (foreign : Text.lower name ∉ Returned.builtInActions) :
    (r.play .run (exitContext name) {}).ending = .success ∧
      ∃ i, (r.play .run (exitContext name) {}).context.lastIteration? = some i ∧
        i.Exited name ((Dict.get? fields "value").getD .null) := by
  obtain ⟨s, fresh, hexits, -, hturn⟩ := completes.executes.turn
  have hfound : s.context.exits.find? (·.matchesAction name) = some { name } := by
    rw [hexits]
    exact Context.find_exit valid (List.mem_singleton_self _) (List.mem_singleton_self name)
  have hexited : (closed (Turn.takeExecution (codeOf script) _ s).2).iteration.Exited name _ :=
    (exited_closed _ _ _).mpr (Turn.exited_of_find completes.completed asked foreign fresh hfound rfl)
  have left : (exitContext name).attempt < (exitContext name).options.loopLimit := Nat.succ_pos 2
  obtain ⟨success, hlast⟩ := play_of_turn valid rfl left hturn hexited.status hexited.error
    (by rw [hexited.signal]; nofun)
  exact ⟨success, _, hlast, hexited⟩

/-- A run with one exit that returns it. -/
theorem done_concludes : ∃ r : Agent, (exitContext "done").exits ≠ [] ∧
    (r.play .run (exitContext "done") {}).ending = .success ∧
    ∃ (c₁ : Context) (compiled : Compiled) (e : Execution) (i : Iteration), c₁.exits = (exitContext "done").exits ∧
      (r.play .run (exitContext "done") {}).context.lastIteration? = some i ∧ Concludes c₁ compiled e i := by
  obtain ⟨r, completes⟩ := exists_completes_done
  have configured : (exitContext "done").exits ≠ [] := nofun
  obtain ⟨success, -⟩ := play_of_exit (by decide) completes rfl (by decide +kernel)
  obtain ⟨c₁, w₁, compiled, e, i, -, hsame, -, hlast, hconcludes⟩ := success_concludes r .run configured success
  exact ⟨r, configured, success, c₁, compiled, e, i, hsame, hlast, hconcludes⟩

/-- A context with an exit, and a tool that raises a correlation. -/
def relayContext : Context where
  id := "ctx"
  exits := [{ name := "done" }]
  tools := [{ name := "relay", handler := fun _ _ _ =>
    { outcome := some (.signal (.correlation { snapshotId := "s", resolved := true })) } }]

/-- A script that calls the tool. -/
def relayScript : String := "relay(1);"

/-- Whether an execution was suspended by a correlation. -/
def isCorrelated : Outcome → Bool
  | .suspended (.correlation _) => true
  | _ => false

theorem suspended_of_isCorrelated {o : Outcome} (h : isCorrelated o = true) : ∃ d, o = .suspended (.correlation d) := by
  unfold isCorrelated at h
  split at h
  · exact ⟨_, rfl⟩
  · cases h

theorem relayContext_succeeds : ∃ (r : Agent) (d : Correlation), (r.play .run relayContext {}).ending = .success ∧
    ∃ i, (r.play .run relayContext {}).context.lastIteration? = some i ∧ i.signal = some (.correlation d) ∧
      i.exit = none := by
  have correlated : isCorrelated (scriptedExecution relayScript relayContext).outcome = true := by decide +kernel
  obtain ⟨r, executes⟩ := exists_executes relayScript relayContext (by decide +kernel) (by decide +kernel)
  obtain ⟨d, suspended⟩ := suspended_of_isCorrelated correlated
  exact ⟨r, d, play_of_correlation (by decide) rfl (by decide) executes suspended⟩

/-- A run with exits may succeed though it neither took one nor handed over or thought: a tool has raised a
correlation. -/
theorem correlation_lets_succeed :
    ¬ ∀ (r : Agent) (c : Context), c.validate = .ok () → c.exits ≠ [] → (r.play .run c {}).ending = .success →
      ∃ i, (r.play .run c {}).context.lastIteration? = some i ∧
        ((∃ raised, i.signal = some raised ∧
            (raised.isHandoff = true ∨ ∃ reason context, raised = .think reason context) ∧ i.exit = none) ∨
          ∃ exit ∈ c.exits, i.exit = some exit.name) := by
  intro concludes
  obtain ⟨r, d, success, i, hlast, hsignal, hexit⟩ := relayContext_succeeds
  have hi := concludes r relayContext (by decide) nofun success
  generalize (r.play .run relayContext {}).context = c at hlast hi
  obtain ⟨i', hlast', hends⟩ := hi
  obtain rfl := Option.some.inj (hlast.symm.trans hlast')
  rcases hends with ⟨raised, hraised, hkind, -⟩ | ⟨exit, -, htaken⟩
  · obtain rfl : Signal.correlation d = raised := Option.some.inj (hsignal.symm.trans hraised)
    rcases hkind with hhandoff | ⟨reason, context, hthink⟩
    · cases hhandoff
    · cases hthink
  · exact nomatch hexit.symm.trans htaken

end Agent

end ScriptAgent
