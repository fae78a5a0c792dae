import ScriptAgent.Loop.Run
import ScriptAgent.Proofs.Loop.TurnOutcome

/-!
# The loop turn by turn

The loop passes one context after another, each left by a turn taken on the one before.  It ends with
a turn, at the limit, or where the abort latch has fired; as much fuel as turns are left never ends it.
What a turn is does not matter here, only what it changes.
-/

namespace ScriptAgent

namespace Agent

/-! ### A single turn -/

/-- An iteration after which the loop goes on: the model thinks again, or something has failed that it
can mend. -/
inductive GoesOn (i : Iteration) : Prop
  | incomplete (status : i.status = .incomplete)
  | failed {e : IterationError} (status : i.status = .failed) (error : i.error = some e)
      (generated : ∀ message, e ≠ .generation message) (unaborted : ∀ reason, e ≠ .aborted reason)

/-- How the ending of a run goes with its last iteration. -/
inductive EndsWith (i : Iteration) : RunEnding → Prop
  | success (status : i.status = .success) (uninterrupted : ∀ d, i.signal ≠ some (.interrupt d)) :
      EndsWith i .success
  | interrupted {d : Interrupt} {snapshot : Snapshot} (raised : i.signal = some (.interrupt d))
      (held : snapshot.variables = d.variables) : EndsWith i (.interrupted snapshot (.interrupt d))
  | failed (e : RunError) : EndsWith i (.failed e)

/-- What a turn changes, and how its iteration goes with the ending of the run, if it is the last. -/
structure Advanced (c : Context) (w : World) (ending : Option RunEnding) (c' : Context) (w' : World)
    (i : Iteration) : Prop where
  options : c'.options = c.options
  attempt : c'.attempt = c.attempt + 1
  iterations : c'.iterations = c.iterations ++ [i]
  requests : ∃ asked, w'.requests = w.requests ++ asked ∧ asked.length ≤ 1
  objects : c'.objects = c.objects ∨ ∃ (j : Job) (host : Host), j.objects = c.objects ∧
    c'.objects = c.objects.map (·.reconcile (j.execute host).1.mutations)
  goesOn : ending = none → GoesOn i
  ends : ∀ e, ending = some e → EndsWith i e

theorem goesOn_of_endingOf {fatal : Option RunError} {i : Iteration} {host : Host}
    (hj : fatal = none → Turn.Judged i) (h : (endingOf fatal i host).1 = none) : GoesOn i := by
  unfold endingOf at h
  split at h
  · cases h
  · split at h
    · cases h
    · split at h
      · cases h
      · next ha =>
        unfold Iteration.isSuccess at h
        cases hj rfl with
        | fine status error =>
          cases hs : i.status with
          | success => simp [hs] at h
          | incomplete => exact .incomplete hs
          | failed => exact absurd hs status
        | failed status error cause =>
          refine .failed status error cause fun reason hr => ?_
          simp [abortReason?, error, hr] at ha

theorem endsWith_of_endingOf {fatal : Option RunError} {i : Iteration} {host : Host} {e : RunEnding}
    (h : (endingOf fatal i host).1 = some e) : EndsWith i e := by
  unfold endingOf at h
  split at h
  · cases h
    exact .failed _
  · split at h
    · next d hs =>
      cases h
      exact .interrupted hs rfl
    · next hs =>
      split at h
      · cases h
        exact .failed _
      · unfold Iteration.isSuccess at h
        split at h
        · next hst =>
          cases h
          exact .success (beq_iff_eq.mp hst) hs
        · cases h

/-- The state a turn starts on. -/
def turnStart (c : Context) (host : Host) (requests : List GenerateRequest) : TurnState :=
  ⟨c.beginTurn, { id := c.nextId, startedAt := host.millis, endedAt := 0 }, { host with traces := [] }, requests⟩

theorem turn_of_whole {r : Agent} {c : Context} {host : Host} {requests : List GenerateRequest}
    {t : Option RunError × TurnState} (h : Turn.whole r (turnStart c host requests) = t) :
    r.turn c host requests = (t.1, { t.2 with
      iteration := { t.2.iteration with traces := t.2.host.traces, endedAt := t.2.host.millis } }) := by
  unfold turnStart at h
  rw [Agent.turn, h]

theorem turn_did (r : Agent) (c : Context) (host : Host) (requests : List GenerateRequest) :
    Turn.Did (turnStart c host requests) (r.turn c host requests).1 (r.turn c host requests).2 := by
  have h := Turn.whole_did r (s := turnStart c host requests) rfl rfl
  obtain ⟨t, ht⟩ : ∃ t, Turn.whole r (turnStart c host requests) = t := ⟨_, rfl⟩
  rw [ht] at h
  rw [turn_of_whole ht]
  exact h.atEnd _ _

theorem advance_of_turn {r : Agent} {c : Context} {w : World} {t : Option RunError × TurnState}
    (h : r.turn c w.host w.requests = t) :
    r.advance c w = ((endingOf t.1 t.2.iteration { t.2.host with traces := [] }).1,
      t.2.context.record t.2.iteration,
      { observe { w with requests := t.2.requests } t.2.iteration with
        host := (endingOf t.1 t.2.iteration { t.2.host with traces := [] }).2 }) := by
  rw [advance, h]

theorem advance_advanced (r : Agent) (c : Context) (w : World) :
    ∃ i, Advanced c w (r.advance c w).1 (r.advance c w).2.1 (r.advance c w).2.2 i := by
  have h := turn_did r c w.host w.requests
  obtain ⟨t, ht⟩ : ∃ t, r.turn c w.host w.requests = t := ⟨_, rfl⟩
  rw [ht] at h
  rw [advance_of_turn ht]
  refine ⟨t.2.iteration, h.options, h.attempt, congrArg (· ++ [_]) h.iterations, h.requests, h.objects,
    goesOn_of_endingOf fun hn => ?_, fun e => endsWith_of_endingOf⟩
  rcases h.judged with ⟨-, hj⟩ | ⟨e, he, -⟩
  · exact hj
  · rw [hn] at he
    cases he

/-! ### Turn after turn -/

/-- What takes a turn. -/
abbrev Turns := Context → World → Option RunEnding × Context × World

/-- The loop passes a context with a world, and ends there if it is told how. -/
inductive Passes (turn : Turns) (c : Context) (w : World) : Option RunEnding → Context → World → Prop
  | start : Passes turn c w none c w
  | turn {c₁ c₂ : Context} {w₁ w₂ : World} {ending : Option RunEnding}
      (before : Passes turn c w none c₁ w₁) (unaborted : w₁.host.abort.reason = none)
      (left : c₁.attempt < c₁.options.loopLimit) (turned : turn c₁ w₁ = (ending, c₂, w₂)) :
      Passes turn c w ending c₂ w₂

/-- How a run through the loop ends. -/
inductive Ends (turn : Turns) (c : Context) (w : World) : RunResult → Prop
  /-- The abort latch has fired before a turn. -/
  | aborted {c₁ : Context} {w₁ : World} {reason : String} (passed : Passes turn c w none c₁ w₁)
      (fired : w₁.host.abort.reason = some reason) : Ends turn c w (endAborted c₁ w₁ reason)
  /-- No turns are left. -/
  | exceeded {c₁ : Context} {w₁ : World} (passed : Passes turn c w none c₁ w₁)
      (unaborted : w₁.host.abort.reason = none) (spent : c₁.options.loopLimit ≤ c₁.attempt) :
      Ends turn c w ⟨.failed (.loopExceeded c₁.options.loopLimit), c₁, w₁⟩
  /-- A turn was the last. -/
  | turned {c₁ : Context} {w₁ : World} {ending : RunEnding} (passed : Passes turn c w (some ending) c₁ w₁) :
      Ends turn c w ⟨ending, settle ending c₁, w₁⟩

section Loop

variable {turn : Turns} {c c₁ c₂ : Context} {w w₁ w₂ : World} {ending : Option RunEnding} {res : RunResult}

theorem Passes.after (h : Passes turn c₁ w₁ ending c₂ w₂) (first : Passes turn c w none c₁ w₁) :
    Passes turn c w ending c₂ w₂ := by
  induction h with
  | start => exact first
  | turn _ unaborted left turned ih => exact .turn ih unaborted left turned

theorem Ends.after (h : Ends turn c₁ w₁ res) (first : Passes turn c w none c₁ w₁) : Ends turn c w res := by
  cases h with
  | aborted passed fired => exact .aborted (passed.after first) fired
  | exceeded passed unaborted spent => exact .exceeded (passed.after first) unaborted spent
  | turned passed => exact .turned (passed.after first)

/-- Turns that count, each for one. -/
def Counts (turn : Turns) : Prop :=
  ∀ c w, (turn c w).2.1.options = c.options ∧ (turn c w).2.1.attempt = c.attempt + 1

/-- As much fuel as turns are left never ends the loop. -/
theorem takeTurns_ends (ht : Counts turn) {fuel : Nat} (hf : c.options.loopLimit - c.attempt ≤ fuel) :
    Ends turn c w (takeTurns turn fuel c w) := by
  induction fuel generalizing c w with
  | zero =>
    rw [takeTurns]
    cases ha : w.host.abort.reason with
    | some reason => exact .aborted .start ha
    | none => exact .exceeded .start ha (by omega)
  | succ fuel ih =>
    rw [takeTurns]
    cases ha : w.host.abort.reason with
    | some reason => exact .aborted .start ha
    | none =>
      dsimp only
      split
      · next hspent => exact .exceeded .start ha hspent
      · next hleft =>
        have hleft : c.attempt < c.options.loopLimit := by omega
        obtain ⟨ho, hn⟩ := ht c w
        rcases h : turn c w with ⟨_ | ending, c₁, w₁⟩
        · rw [h] at ho hn
          refine (ih ?_).after (.turn .start ha hleft h)
          rw [show c₁.options = c.options from ho, show c₁.attempt = c.attempt + 1 from hn]
          omega
        · exact .turned (.turn .start ha hleft h)

theorem takeTurns_succ (ht : Counts turn) {fuel : Nat} (hf : c.options.loopLimit - c.attempt ≤ fuel) :
    takeTurns turn (fuel + 1) c w = takeTurns turn fuel c w := by
  induction fuel generalizing c w with
  | zero =>
    rw [takeTurns, takeTurns]
    cases w.host.abort.reason with
    | some reason => rfl
    | none =>
      dsimp only
      rw [if_pos (by omega)]
  | succ fuel ih =>
    rw [takeTurns, takeTurns]
    cases w.host.abort.reason with
    | some reason => rfl
    | none =>
      dsimp only
      split
      · rfl
      · obtain ⟨ho, hn⟩ := ht c w
        rcases h : turn c w with ⟨_ | ending, c₁, w₁⟩
        · rw [h] at ho hn
          refine ih ?_
          rw [show c₁.options = c.options from ho, show c₁.attempt = c.attempt + 1 from hn]
          omega
        · rfl

/-- More fuel than turns are left makes no difference. -/
theorem takeTurns_fuel (ht : Counts turn) {fuel : Nat} (hf : c.options.loopLimit - c.attempt ≤ fuel) :
    takeTurns turn fuel c w = takeTurns turn (c.options.loopLimit - c.attempt) c w := by
  obtain ⟨k, rfl⟩ := Nat.exists_eq_add_of_le hf
  induction k with
  | zero => rfl
  | succ k ih => exact (takeTurns_succ ht (Nat.le_add_right _ k)).trans (ih (Nat.le_add_right _ k))

end Loop

end Agent

end ScriptAgent
