import ScriptAgent.Proofs.Loop.Resume
import ScriptAgent.Proofs.Prompt.SystemMessage
import ScriptAgent.Proofs.Window.ExactFit

/-!
# Continuing an interrupted run

A run that was interrupted may be continued as long as turns are left: the turns of an attempt are counted
through its interrupts, and only success starts the count anew.  Then the model is asked at once, with the
message of the snapshot in its window; with no turn left it is not asked at all.
-/

namespace ScriptAgent

open Stateful (bind_apply)

namespace Turn

/-! ### Turns whose model answers with a script -/

/-- The state in which the script is run that the model has answered with. -/
def ready (r : Agent) (messages : List Message) (response : GenerateResponse) (s : TurnState) : TurnState :=
  (onIteration (fun i => { i with code := some (Fence.parseResponse (response.text?.getD "")).code })
    (answered r messages response (onIteration (fun i => { i with messages }) s).2)).2

theorem cycle_of_respond {r : Agent} {s : TurnState} {messages : List Message} {response : GenerateResponse}
    (hw : window r.client s.context = .ok messages)
    (hr : r.client.respond s.requests (request r s.context messages) = .ok response)
    (hc : (Fence.parseResponse (response.text?.getD "")).hasCode = true) :
    cycle r s = (.ok (), (runCode r (Fence.parseResponse (response.text?.getD "")).code
      (ready r messages response s)).2) := by
  have hgenerate := generate_of_respond (s := (onIteration (fun i => { i with messages }) s).2) hr
  unfold cycle
  rw [get_bind, hw, ok_bind, step_bind, bind_apply, hgenerate]
  dsimp only
  rw [hc, Bool.not_true, if_neg Bool.false_ne_true, step_bind, step_apply]
  rfl

theorem whole_of_respond {r : Agent} {s : TurnState} {messages : List Message} {response : GenerateResponse}
    (hw : window r.client (recorded s).context = .ok messages)
    (hr : r.client.respond s.requests (request r (recorded s).context messages) = .ok response)
    (hc : (Fence.parseResponse (response.text?.getD "")).hasCode = true) :
    whole r s = (none, (runCode r (Fence.parseResponse (response.text?.getD "")).code
      (ready r messages response (recorded s))).2) := by
  rw [whole_apply, recordCorrelation_apply, cycle_of_respond (s := recorded s) hw hr hc]

end Turn

namespace Agent

/-! ### Windows that fit -/

/-- The messages of a context before they are shortened. -/
def promptMessages (c : Context) : List Message :=
  (Prompt.systemMessage? c.promptInputs).toList ++ Prompt.userMessage c.promptInputs :: c.pending

theorem allMessages_eq (c : Context) : Turn.allMessages c = .ok (promptMessages c) := by
  obtain ⟨system, hsystem⟩ := Option.isSome_iff_exists.mp (Prompt.systemMessage?_isSome c.promptInputs)
  rw [Turn.allMessages, promptMessages, hsystem, Option.toList_some, List.singleton_append, Turn.messagesAfter]

/-- The message window of a context fits the model: what is kept of the messages whatever is cut is within
the budget. -/
def WindowFits (client : ModelClient) (c : Context) : Prop :=
  Truncate.floor (promptMessages c) ≤ windowBudget (client.details c.options.model).contextSize

theorem window_of_truncated {client : ModelClient} {c : Context} {messages shorter : List Message}
    (hmessages : Turn.allMessages c = .ok messages)
    (h : truncateMessages messages (windowBudget (client.details c.options.model).contextSize) = .ok shorter) :
    Turn.window client c = .ok (shorter.filter fun m => !Text.isBlankText m.content) := by
  unfold Turn.window
  rw [hmessages]
  dsimp only [bind, Except.bind]
  rw [h]
  rfl

theorem window_of_fits {client : ModelClient} {c : Context} (h : WindowFits client c) :
    ∃ messages, Turn.window client c = .ok messages := by
  rcases Truncate.truncateMessages_cases (promptMessages c)
    (windowBudget (client.details c.options.model).contextSize) with ⟨-, shorter, owns, hshorter, -⟩ | ⟨hover, -⟩
  · exact ⟨_, window_of_truncated (allMessages_eq c) hshorter⟩
  · exact absurd h (Nat.not_le.mpr hover)

/-! ### The first request -/

section First

variable {r : Agent} {c : Context} {w : World} {messages : List Message}

/-- The window of a turn is that of the context it is taken on. -/
theorem window_turnStart (client : ModelClient) (c : Context) (host : Host) (requests : List GenerateRequest) :
    Turn.window client (Turn.recorded (turnStart c host requests)).context = Turn.window client c := by
  have hinputs : (Turn.recorded (turnStart c host requests)).context.promptInputs = c.promptInputs := rfl
  have hoptions : (Turn.recorded (turnStart c host requests)).context.options = c.options := rfl
  unfold Turn.window Turn.allMessages
  rw [hinputs, hoptions]
  cases Prompt.systemMessage? c.promptInputs <;> rfl

theorem turn_requests (hw : Turn.window r.client c = .ok messages) (host : Host) (requests : List GenerateRequest) :
    (r.turn c host requests).2.requests = requests ++ [Turn.request r c messages] := by
  have asked {code : Option String} {s : TurnState}
      (hasks : Turn.Asks r (Turn.recorded (turnStart c host requests)) code s) :
      s.requests = requests ++ [Turn.request r c messages] := by
    rw [hasks.requests, window_turnStart, hw]
    rfl
  rcases Turn.whole_cases r (s := turnStart c host requests) rfl with ⟨e, s, hwhole, hasks⟩ | ⟨code, s, hwhole, hasks⟩
  · have hsent := asked hasks
    rw [turn_of_whole hwhole]
    exact hsent
  · obtain ⟨_, _, hiteration⟩ := hasks.iteration
    have hsent := (Turn.executed_runCode r code s (by rw [hiteration]; rfl)).requests.trans (asked hasks)
    rw [turn_of_whole hwhole]
    exact hsent

theorem advance_requests (hw : Turn.window r.client c = .ok messages) :
    (r.advance c w).2.2.requests = w.requests ++ [Turn.request r c messages] := by
  have hsent := turn_requests hw w.host w.requests
  obtain ⟨t, ht⟩ : ∃ t, r.turn c w.host w.requests = t := ⟨_, rfl⟩
  rw [ht] at hsent
  rw [advance_of_turn ht]
  exact hsent

/-- A loop that may take a turn first asks the model with the window of its context. -/
theorem takeTurns_asks (unaborted : w.host.abort.reason = none) (left : c.attempt < c.options.loopLimit)
    (hw : Turn.window r.client c = .ok messages) :
    ∃ more, (takeTurns r.advance (c.options.loopLimit - c.attempt) c w).world.requests =
      w.requests ++ Turn.request r c messages :: more := by
  have ht := advance_advanced r
  have hfirst := advance_requests (w := w) hw
  rcases takeTurns_first (Advances.counts ht) unaborted left with ⟨ending, -, hresult⟩ | ⟨-, hends⟩
  · rw [hresult]
    exact ⟨[], hfirst⟩
  · obtain ⟨asked, hasked, -⟩ := (hends.coherent ht).requests
    exact ⟨asked, by rw [hasked, hfirst, List.append_assoc, List.singleton_append]⟩

/-- A loop that may take no turn asks nothing. -/
theorem takeTurns_spent {turn : Turns} (unaborted : w.host.abort.reason = none)
    (spent : c.options.loopLimit ≤ c.attempt) (fuel : Nat) :
    takeTurns turn fuel c w = ⟨.failed (.loopExceeded c.options.loopLimit), c, w⟩ := by
  cases fuel with
  | zero => rw [takeTurns, unaborted]
  | succ fuel =>
    rw [takeTurns, unaborted]
    dsimp only
    rw [if_pos spent]

end First

/-! ### Interrupted runs -/

section Interrupted

variable {r : Agent} {c c' : Context} {w w' : World} {s : Snapshot} {raised : Signal}

theorem endingOf_pending {fatal : Option RunError} {i : Iteration} {host : Host}
    (h : (endingOf fatal i host).1 = some (.interrupted s raised)) : s.isSettled = false := by
  unfold endingOf at h
  split at h
  · cases h
  · split at h
    · cases h
      rfl
    · split at h
      · cases h
      · split at h <;> cases h

theorem advance_pending (h : (r.advance c w).1 = some (.interrupted s raised)) : s.isSettled = false := by
  obtain ⟨t, ht⟩ : ∃ t, r.turn c w.host w.requests = t := ⟨_, rfl⟩
  rw [advance_of_turn ht] at h
  exact endingOf_pending h

/-- An interrupted run leaves a snapshot that is not settled, and has counted each of its turns. -/
theorem run_interrupted (h : (r.run c w).ending = .interrupted s raised) :
    s.isSettled = false ∧ ∃ added, (r.run c w).context.iterations = c.iterations ++ added ∧
      (r.run c w).context.attempt = c.attempt + added.length := by
  have ht := advance_advanced r
  rcases r.run_cases c w with ⟨e, c₁, hr, -⟩ | ⟨c₁, -, hs, hr⟩
  · rw [hr] at h
    cases h
  · obtain ⟨-, hattempt, hiterations, -⟩ := applySnapshot_keeps hs
    have hends := takeTurns_ends (Advances.counts ht) (c := c₁) (w := w) (Nat.le_refl _)
    rw [← hr] at hends
    generalize r.run c w = res at h hends
    cases hends with
    | aborted => cases h
    | exceeded => cases h
    | @turned c₂ w₂ ending passed =>
      obtain rfl : ending = .interrupted s raised := h
      obtain ⟨added, hp⟩ := passed.progress ht
      refine ⟨?_, added, hiterations ▸ hp.iterations, hattempt ▸ hp.attempt⟩
      cases passed with
      | turn _ _ _ turned => exact advance_pending (congrArg (·.1) turned)

end Interrupted

/-! ### Going on from them -/

/-- What becomes of a context that takes up a snapshot. -/
def takenUp (c : Context) (s : Snapshot) : Context :=
  (applySnapshot { c with resume := some s }).1

/-- How a run goes ahead that goes on from a settled snapshot: if turns are left and the window fits, the
model is asked, first with the window of what the context has become; if no turn is left, nothing is asked
and the run fails. -/
structure GoesAhead (r : Agent) (c : Context) (w : World) (s : Snapshot) (res : RunResult) : Prop where
  asks : c.attempt < c.options.loopLimit → WindowFits r.client (takenUp c s) →
    ∃ messages more, Turn.window r.client (takenUp c s) = .ok messages ∧
      res.world.requests = w.requests ++ Turn.request r c messages :: more
  spent : c.options.loopLimit ≤ c.attempt →
    res.world = w ∧ res.ending = .failed (.loopExceeded c.options.loopLimit)

theorem applySnapshot_of_settled {c : Context} {s : Snapshot} (settled : s.isSettled = true) :
    ∃ c₁, applySnapshot { c with resume := some s } = (c₁, none) := by
  unfold Snapshot.isSettled at settled
  unfold applySnapshot resumeMessage?
  dsimp only
  cases hs : s.status with
  | pending => rw [hs] at settled; cases settled
  | resolved value => exact ⟨_, rfl⟩
  | rejected error => exact ⟨_, rfl⟩

theorem goOn_goesAhead (r : Agent) {c : Context} {w : World} {s : Snapshot} (settled : s.isSettled = true)
    (valid : c.validate = .ok ()) (unaborted : w.host.abort.reason = none) :
    GoesAhead r c w s (r.goOn c w (.ok s)) := by
  obtain ⟨c₁, happlied⟩ := applySnapshot_of_settled (c := c) settled
  obtain ⟨hoptions, hattempt, -, -⟩ := applySnapshot_keeps happlied
  have hrun : r.goOn c w (.ok s) = takeTurns r.advance (c₁.options.loopLimit - c₁.attempt) c₁ w :=
    run_of_applied r w valid happlied
  rw [hrun]
  refine ⟨fun left fits => ?_, fun spent => ?_⟩
  · rw [takenUp, happlied] at fits ⊢
    obtain ⟨messages, hmessages⟩ := window_of_fits fits
    obtain ⟨more, hmore⟩ := takeTurns_asks unaborted (by rw [hoptions, hattempt]; exact left) hmessages
    have hrequest : Turn.request r c₁ messages = Turn.request r c messages := by
      unfold Turn.request
      rw [show c₁.options = c.options from hoptions]
    exact ⟨messages, more, hmessages, hrequest ▸ hmore⟩
  · rw [takeTurns_spent unaborted (by rw [hoptions, hattempt]; exact spent)]
    exact ⟨rfl, by rw [hoptions]⟩

section Settled

variable (r : Agent) {c : Context} {w : World} {s : Snapshot} (pending : s.isSettled = false)
  (valid : c.validate = .ok ()) (unaborted : w.host.abort.reason = none)
include pending valid unaborted

theorem settle_goesAhead {status : SnapshotStatus} (settled : { s with status }.isSettled = true) :
    GoesAhead r c w { s with status } (r.goOn c w (s.settle status)) := by
  have hsettle : s.settle status = .ok { s with status } := by
    rw [Snapshot.settle, pending]
    rfl
  rw [hsettle]
  exact goOn_goesAhead r settled valid unaborted

theorem resolve_goesAhead (value : Json) :
    GoesAhead r c w { s with status := .resolved value } (r.resolve c s value w) :=
  settle_goesAhead r pending valid unaborted rfl

theorem reject_goesAhead (error : String) :
    GoesAhead r c w { s with status := .rejected error } (r.reject c s error w) :=
  settle_goesAhead r pending valid unaborted rfl

end Settled

/-- A run that was interrupted can be continued exactly while turns are left in its attempt, and each turn of
the interrupted run has taken one: settled with a value or with an error, its snapshot makes the model be
asked again, and with no turn left nothing is asked. -/
theorem interrupted_run_goesAhead (r : Agent) {c : Context} {w w' : World} {s : Snapshot} {raised : Signal}
    (interrupted : (r.run c w).ending = .interrupted s raised) (valid : (r.run c w).context.validate = .ok ())
    (unaborted : w'.host.abort.reason = none) :
    (∃ added, (r.run c w).context.iterations = c.iterations ++ added ∧
      (r.run c w).context.attempt = c.attempt + added.length) ∧
    (∀ value, GoesAhead r (r.run c w).context w' { s with status := .resolved value }
      (r.resolve (r.run c w).context s value w')) ∧
    ∀ error, GoesAhead r (r.run c w).context w' { s with status := .rejected error }
      (r.reject (r.run c w).context s error w') := by
  obtain ⟨pending, counted⟩ := run_interrupted interrupted
  exact ⟨counted, fun value => resolve_goesAhead r pending valid unaborted value,
    fun error => reject_goesAhead r pending valid unaborted error⟩

/-! ### Models that answer with a script -/

theorem le_windowBudget (n : Nat) : n ≤ windowBudget (n + responseRoom.2) := by
  simp only [windowBudget, responseRoom]
  omega

/-- The messages that are sent if none is cut. -/
def uncutMessages (c : Context) : List Message :=
  ((promptMessages c).map fun m => { m with content := Wrapping.strip m.content }).filter fun m =>
    !Text.isBlankText m.content

theorem window_of_room {client : ModelClient} {c : Context} (h : Truncate.initial (promptMessages c) ≤
    windowBudget (client.details c.options.model).contextSize) : Turn.window client c = .ok (uncutMessages c) :=
  window_of_truncated (allMessages_eq c) (Truncate.truncateMessages_of_le h)

/-- An agent whose model first answers with a script, and takes so many tokens. -/
def scripted (settings : LoopSettings) (script : String) (more : List (Except ModelFailure String)) (room : Nat) :
    Agent where
  client := ScriptedClient.client (.ok script :: more) room
  settings

/-- The state in which the script is run that the model first answers with. -/
def scriptedStart (settings : LoopSettings) (script : String) (more : List (Except ModelFailure String)) (c : Context) :
    TurnState :=
  Turn.ready (scripted settings script more 0) (uncutMessages c)
    (ScriptedClient.response 1 (Turn.request (scripted settings script more 0) c (uncutMessages c)) script)
    (Turn.recorded (turnStart c {} []))

theorem runCode_of_settings {r r' : Agent} (h : r.settings = r'.settings) : Turn.runCode r = Turn.runCode r' := by
  unfold Turn.runCode Turn.execute
  rw [h]

/-- With room for all messages, the first turn runs the script that the model answers with. -/
theorem scripted_whole {settings : LoopSettings} {script : String} {more : List (Except ModelFailure String)}
    {room : Nat} {c : Context} (h : Truncate.initial (promptMessages c) ≤ windowBudget room)
    (written : (Fence.parseResponse script).hasCode = true) :
    Turn.whole (scripted settings script more room) (turnStart c {} []) =
      (none, (Turn.runCode (scripted settings script more 0) (Fence.parseResponse script).code
        (scriptedStart settings script more c)).2) := by
  have hw : Turn.window (scripted settings script more room).client (Turn.recorded (turnStart c {} [])).context =
      .ok (uncutMessages c) := by
    rw [window_turnStart]
    exact window_of_room h
  let response := ScriptedClient.response 1 (Turn.request (scripted settings script more 0) c (uncutMessages c)) script
  have htext : response.text?.getD "" = script := rfl
  have hcode : (Fence.parseResponse (response.text?.getD "")).hasCode = true := written
  have hsame : Turn.runCode (scripted settings script more room) = Turn.runCode (scripted settings script more 0) :=
    runCode_of_settings rfl
  have hanswer : (scripted settings script more room).client.respond (turnStart c {} []).requests
      (Turn.request (scripted settings script more room) (Turn.recorded (turnStart c {} [])).context
        (uncutMessages c)) = .ok response := rfl
  rw [Turn.whole_of_respond hw hanswer hcode, hsame, htext]
  rfl

/-! ### A run that waits -/

/-- A script that waits. -/
def waitingScript : String := "interrupt(\"wait\");"

/-- An agent whose model waits at first, and takes so many tokens. -/
def waitingAgent (room : Nat) : Agent where
  client := ScriptedClient.client [.ok waitingScript, .ok "listen();"] room

/-- A context for one turn and as many more. -/
def waitingContext (more : Nat) : Context where
  id := "ctx"
  options := { loopLimit := more + 1 }

/-- What the model answers to the first request. -/
def waitingResponse (more : Nat) : GenerateResponse :=
  ScriptedClient.response 1
    (Turn.request (waitingAgent 0) (waitingContext more) (uncutMessages (waitingContext more))) waitingScript

/-- The state after the script that waits. -/
def waitingState (more : Nat) : TurnState :=
  (Turn.runCode (waitingAgent 0) (Fence.parseResponse waitingScript).code
    (Turn.ready (waitingAgent 0) (uncutMessages (waitingContext more)) (waitingResponse more)
      (Turn.recorded (turnStart (waitingContext more) {} [])))).2

theorem waiting_whole {room more : Nat}
    (h : Truncate.initial (promptMessages (waitingContext more)) ≤ windowBudget room) :
    Turn.whole (waitingAgent room) (turnStart (waitingContext more) {} []) = (none, waitingState more) :=
  scripted_whole h (by decide +kernel)

/-- The iteration of a turn that has left a state. -/
def iterationAfter (t : TurnState) : Iteration :=
  { t.iteration with traces := t.host.traces, endedAt := t.host.millis }

/-- The context after the last turn of a run has left a state. -/
def contextAfter (t : TurnState) : Context :=
  t.context.record (iterationAfter t)

/-- A run whose first turn is the last gives back what that turn has left. -/
theorem run_of_advance {r : Agent} {c c₁ : Context} {w w₁ : World} {ending : RunEnding} (valid : c.validate = .ok ())
    (fresh : c.resume = none) (unaborted : w.host.abort.reason = none) (left : c.attempt < c.options.loopLimit)
    (turned : r.advance c w = (some ending, c₁, w₁)) : r.run c w = ⟨ending, settle ending c₁, w₁⟩ := by
  have happlied : applySnapshot c = (c, none) := by rw [applySnapshot, fresh]
  rcases r.run_cases c w with ⟨e, c₂, -, -, -, hnot⟩ | ⟨c₂, -, hs, hr⟩
  · exact absurd happlied (hnot c valid)
  · rw [happlied] at hs
    obtain rfl : c = c₂ := congrArg (·.1) hs
    rw [hr]
    rcases takeTurns_first (Advances.counts (advance_advanced r)) unaborted left with ⟨ending', he, hresult⟩ | ⟨hnone, -⟩
    · rw [turned] at he hresult
      obtain rfl : ending = ending' := Option.some.inj he
      exact hresult
    · rw [turned] at hnone
      cases hnone

/-- A run whose first turn is interrupted gives back what that turn has left, whoever takes it. -/
theorem run_of_interrupt {t : TurnState} {d : Interrupt} (hd : t.iteration.signal = some (.interrupt d)) :
    ∃ s w', ∀ (r : Agent) (c : Context), c.validate = .ok () → c.resume = none → c.attempt < c.options.loopLimit →
      Turn.whole r (turnStart c {} []) = (none, t) →
        r.run c {} = ⟨.interrupted s (.interrupt d), contextAfter t, w'⟩ := by
  have hsignal : (iterationAfter t).signal = some (.interrupt d) := hd
  obtain ⟨s, host, hending⟩ : ∃ s host, endingOf none (iterationAfter t) { t.host with traces := [] } =
      (some (.interrupted s (.interrupt d)), host) := by
    unfold endingOf
    dsimp only
    rw [hsignal]
    exact ⟨_, _, rfl⟩
  let w' : World := { observe { requests := t.requests } (iterationAfter t) with host }
  refine ⟨s, w', fun r c valid fresh left hwhole => ?_⟩
  have hadvance : r.advance c {} = (some (.interrupted s (.interrupt d)), contextAfter t, w') := by
    rw [advance_of_turn (w := {}) (turn_of_whole hwhole)]
    show ((endingOf none (iterationAfter t) { t.host with traces := [] }).1, contextAfter t,
      { observe { requests := t.requests } (iterationAfter t) with
        host := (endingOf none (iterationAfter t) { t.host with traces := [] }).2 }) = _
    rw [hending]
  exact run_of_advance valid fresh rfl left hadvance

theorem windowFits_of_room {room : Nat} {c : Context}
    (h : Truncate.initial (promptMessages c) ≤ windowBudget room) : WindowFits (waitingAgent room).client c :=
  Nat.le_trans (Truncate.kept_le_total _) h

theorem signal_of_isInterrupted {i : Iteration} (h : i.isInterrupted = true) :
    ∃ d, i.signal = some (.interrupt d) := by
  obtain ⟨signal, hsignal, hinterrupt⟩ := (Option.any_eq_true _ _).mp h
  cases signal with
  | interrupt d => exact ⟨d, hsignal⟩
  | think | listen | execute | transition | correlation => cases hinterrupt

/-- The script that waits is interrupted, and has taken one turn of a context that stays valid. -/
theorem waitingState_waits : ∀ more ≤ 1, (waitingState more).iteration.isInterrupted = true ∧
    (contextAfter (waitingState more)).validate = .ok () ∧ (contextAfter (waitingState more)).attempt = 1 ∧
    (contextAfter (waitingState more)).options.loopLimit = more + 1 := by
  decide +kernel

/-- A run that waited, with room for what comes after it: all that is needed to go on but turns. -/
structure Waited (room more : Nat) (s : Snapshot) (raised : Signal) (res : RunResult) : Prop where
  ending : res.ending = .interrupted s raised
  valid : res.context.validate = .ok ()
  attempt : res.context.attempt = 1
  loopLimit : res.context.options.loopLimit = more + 1
  fits : WindowFits (waitingAgent room).client (takenUp res.context { s with status := .resolved .null })

/-- With enough room the run that waits is interrupted, and what it leaves fits the model again. -/
theorem waiting_run {more : Nat} (hmore : more ≤ 1) : ∃ room s raised,
    Waited room more s raised ((waitingAgent room).run (waitingContext more) {}) := by
  obtain ⟨waits, valid, attempt, loopLimit⟩ := waitingState_waits more hmore
  obtain ⟨d, hd⟩ := signal_of_isInterrupted waits
  obtain ⟨s, w', hrun⟩ := run_of_interrupt hd
  -- the room is that of both windows, whatever they are: neither is evaluated
  let settled : Snapshot := { s with status := .resolved .null }
  let first := Truncate.initial (promptMessages (waitingContext more))
  let second := Truncate.initial (promptMessages (takenUp (contextAfter (waitingState more)) settled))
  have hbudget : first + second ≤ windowBudget (first + second + responseRoom.2) := le_windowBudget _
  have hwhole := waiting_whole (Nat.le_trans (Nat.le_add_right first second) hbudget)
  refine ⟨first + second + responseRoom.2, s, .interrupt d, ?_⟩
  rw [hrun _ _ rfl rfl (Nat.succ_pos more) hwhole]
  exact ⟨rfl, valid, attempt, loopLimit, windowFits_of_room (Nat.le_trans (Nat.le_add_left second first) hbudget)⟩

/-- With one turn more than the one that waits, the model is asked again. -/
theorem waiting_goesAhead : ∃ room s raised,
    ((waitingAgent room).run (waitingContext 1) {}).ending = .interrupted s raised ∧
    ((waitingAgent room).run (waitingContext 1) {}).context.validate = .ok () ∧
    ({} : World).host.abort.reason = none ∧
    ∃ first more, ((waitingAgent room).resolve ((waitingAgent room).run (waitingContext 1) {}).context s
      .null {}).world.requests = first :: more := by
  obtain ⟨room, s, raised, waited⟩ := waiting_run (Nat.le_refl 1)
  have unaborted : ({} : World).host.abort.reason = none := rfl
  obtain ⟨-, hresolve, -⟩ := interrupted_run_goesAhead (waitingAgent room) waited.ending waited.valid unaborted
  have left : ((waitingAgent room).run (waitingContext 1) {}).context.attempt <
      ((waitingAgent room).run (waitingContext 1) {}).context.options.loopLimit := by
    rw [waited.attempt, waited.loopLimit]
    decide
  obtain ⟨messages, more, -, hrequests⟩ := (hresolve .null).asks left waited.fits
  exact ⟨room, s, raised, waited.ending, waited.valid, unaborted, _, more, hrequests⟩

/-- Not every interrupted run can be continued: with no turn more than the one that waits, nothing is asked
again, though the context is valid, nothing was aborted and the window fits. -/
theorem not_always_asked :
    ¬ ∀ (r : Agent) (c : Context) (w w' : World) (s : Snapshot) (raised : Signal) (value : Json),
      (r.run c w).ending = .interrupted s raised → (r.run c w).context.validate = .ok () →
      w'.host.abort.reason = none →
      WindowFits r.client (takenUp (r.run c w).context { s with status := .resolved value }) →
      ∃ first more, (r.resolve (r.run c w).context s value w').world.requests = w'.requests ++ first :: more := by
  intro always
  obtain ⟨room, s, raised, waited⟩ := waiting_run (Nat.zero_le 1)
  obtain ⟨first, more, hasked⟩ := always _ _ {} {} s raised .null waited.ending waited.valid rfl waited.fits
  have hgoes := resolve_goesAhead (waitingAgent room) (w := {}) (run_interrupted waited.ending).1 waited.valid rfl .null
  rw [(hgoes.spent (by rw [waited.attempt, waited.loopLimit])).1] at hasked
  cases hasked

end Agent

end ScriptAgent
