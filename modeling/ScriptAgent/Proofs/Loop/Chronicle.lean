import ScriptAgent.Proofs.Loop.Aborting
import ScriptAgent.Proofs.Loop.Validity

/-!
# The history is complete and observed

Every iteration that the loop begins is recorded once, whatever becomes of it, under the next identifier of its
context.  Inline, the observer hears of its traces in order as they are left, and then of its end.
-/

namespace ScriptAgent

namespace Agent

/-! ### Iterations that are begun -/

/-- The iterations that the loop begins, for a turn or to record that it is aborted. -/
def begins (turn : Turns) : Nat → Context → World → List String
  | fuel, c, w =>
    match w.host.abort.reason with
    | some _ => [c.nextId]
    | none =>
      match fuel with
      | 0 => []
      | fuel + 1 =>
        if c.options.loopLimit ≤ c.attempt then []
        else
          c.nextId :: match turn c w with
            | (some _, _, _) => []
            | (none, c, w) => begins turn fuel c w

/-- The context on which the loop begins, if a run comes to it. -/
def loopStart (c : Context) : Option Context :=
  match c.validate, applySnapshot c with
  | .ok (), (c, none) => some c
  | _, _ => none

/-- The iterations that a run begins. -/
def begunBy (turn : Turns) (c : Context) (w : World) : List String :=
  match loopStart c with
  | some c => begins turn (c.options.loopLimit - c.attempt) c w
  | none => []

/-- The iterations that a move begins. -/
def begunIn (turn : Turns) (move : Move) (c : Context) (w : World) : List String :=
  match move.onto c with
  | some c => begunBy turn c w
  | none => []

/-! ### Records -/

/-- What the observer hears of iterations. -/
def heardOf (is : List Iteration) : List Observation :=
  is.flatMap fun i => i.traces.map .trace ++ [.iterationEnd i]

/-- The history and the observer's log have grown by the iterations that were begun. -/
structure Records (c : Context) (log : List Observation) (ids : List String) (c' : Context) (log' : List Observation) :
    Prop where
  context : c'.id = c.id
  history : ∃ added, c'.iterations = c.iterations ++ added ∧ added.map (·.id) = ids ∧ log' = log ++ heardOf added
  numbered : ∀ (k : Nat) id, ids[k]? = some id → id = Ids.iteration c.id (c.iterations.length + k + 1)

namespace Records

variable {c c₁ c₂ : Context} {log log₁ log₂ : List Observation} {ids ids' : List String}

theorem refl (c : Context) (log : List Observation) : Records c log [] c log :=
  ⟨rfl, ⟨[], (List.append_nil _).symm, rfl, (List.append_nil _).symm⟩, by simp⟩

/-- Taking up a snapshot records nothing. -/
theorem taken (h : Records c₁ log ids c₂ log₂) (context : c₁.id = c.id) (iterations : c₁.iterations = c.iterations) :
    Records c log ids c₂ log₂ := by
  obtain ⟨hcontext, hhistory, hnumbered⟩ := h
  rw [iterations] at hhistory
  rw [context, iterations] at hnumbered
  exact ⟨hcontext.trans context, hhistory, hnumbered⟩

theorem one {i : Iteration} (context : c₁.id = c.id) (iterations : c₁.iterations = c.iterations ++ [i])
    (id : i.id = c.nextId) (observed : log₁ = log ++ i.traces.map .trace ++ [.iterationEnd i]) :
    Records c log [c.nextId] c₁ log₁ := by
  refine ⟨context, ⟨[i], iterations, by rw [← id]; rfl, ?_⟩, fun k id hk => ?_⟩
  · rw [observed, heardOf, List.flatMap_singleton, List.append_assoc]
  · rcases k with _ | k <;> cases hk
    rfl

theorem trans (h : Records c log ids c₁ log₁) (h' : Records c₁ log₁ ids' c₂ log₂) :
    Records c log (ids ++ ids') c₂ log₂ := by
  obtain ⟨hcontext, ⟨added, hiterations, hids, hlog⟩, hnumbered⟩ := h
  obtain ⟨hcontext', ⟨added', hiterations', hids', hlog'⟩, hnumbered'⟩ := h'
  refine ⟨hcontext'.trans hcontext, ⟨added ++ added', ?_, ?_, ?_⟩, fun k id hk => ?_⟩
  · rw [hiterations', hiterations, List.append_assoc]
  · rw [List.map_append, hids, hids']
  · rw [hlog', hlog, heardOf, heardOf, heardOf, List.flatMap_append, List.append_assoc]
  · rw [List.getElem?_append] at hk
    split at hk
    · exact hnumbered k id hk
    · next hge =>
      have hlength : added.length = ids.length := by rw [← hids, List.length_map]
      rw [hnumbered' _ id hk, hcontext, hiterations, List.length_append, hlength]
      congr 1
      omega

end Records

variable {r : Agent} {turn : Turns}

/-- Every iteration that the loop begins is recorded and observed. -/
theorem takeTurns_records (inline : r.settings.backend = .inline) (ht : Disturbs r turn) (fuel : Nat) (c : Context)
    (w : World) :
    Records c w.observed (begins turn fuel c w) (takeTurns turn fuel c w).context
      (takeTurns turn fuel c w).world.observed := by
  induction fuel generalizing c w with
  | zero =>
    rw [takeTurns, begins]
    cases ha : w.host.abort.reason with
    | some reason => exact .one rfl rfl rfl rfl
    | none => exact .refl c w.observed
  | succ fuel ih =>
    rw [takeTurns, begins]
    cases ha : w.host.abort.reason with
    | some reason => exact .one rfl rfl rfl rfl
    | none =>
      dsimp only
      split
      · exact .refl c w.observed
      · obtain ⟨given, hd⟩ := ht c w
        rcases hturn : turn c w with ⟨_ | ending, c₁, w₁⟩ <;> rw [hturn] at hd <;> obtain ⟨i, hi⟩ := hd.added
        · exact (Records.one hi.context hi.iterations hi.id (hi.observed inline)).trans (ih c₁ w₁)
        · have hsettle : (settle ending c₁).id = c₁.id ∧ (settle ending c₁).iterations = c₁.iterations := by
            cases ending <;> exact ⟨rfl, rfl⟩
          exact .one (hsettle.1.trans hi.context) (hsettle.2.trans hi.iterations) hi.id (hi.observed inline)

theorem applySnapshot_id (c : Context) : (applySnapshot c).1.id = c.id := by
  have resumed (c : Context) (s : Snapshot) : (resumedVariables c s).id = c.id := by
    unfold resumedVariables
    dsimp only
    split <;> rfl
  unfold applySnapshot
  split
  · rfl
  · next s _ =>
    dsimp only
    split <;> exact resumed { c with resume := none } s

theorem runBy_records (inline : r.settings.backend = .inline) (ht : Disturbs r turn) (c : Context) (w : World) :
    Records c w.observed (begunBy turn c w) (runBy turn c w).context (runBy turn c w).world.observed := by
  have hid := applySnapshot_id c
  unfold begunBy loopStart runBy
  cases c.validate with
  | error e => exact .refl c w.observed
  | ok u =>
    rcases hs : applySnapshot c with ⟨c₁, _ | e⟩ <;> rw [hs] at hid <;>
      obtain ⟨-, -, hiterations, -⟩ := applySnapshot_keeps hs
    · exact (takeTurns_records inline ht _ c₁ w).taken hid hiterations
    · exact (Records.refl c₁ w.observed).taken hid hiterations

theorem playBy_records (inline : r.settings.backend = .inline) (ht : Disturbs r turn) (move : Move) (c : Context)
    (w : World) :
    Records c w.observed (begunIn turn move c w) (playBy turn move c w).context
      (playBy turn move c w).world.observed := by
  have goOn (s : Except RunError Snapshot) :
      Records c w.observed (match s.toOption.map fun s => { c with resume := some s } with
        | some c => begunBy turn c w
        | none => []) (goOnBy turn c w s).context (goOnBy turn c w s).world.observed := by
    cases s with
    | error e => exact .refl c w.observed
    | ok s => exact (runBy_records inline ht { c with resume := some s } w).taken rfl rfl
  cases move with
  | run => exact runBy_records inline ht c w
  | resolve s value => exact goOn _
  | reject s error => exact goOn _

/-- What a context comes to by any moves, inline and with one observer, whoever fires the abort latch meanwhile: the
iterations that were begun, what was observed, and the context. -/
inductive Chronicles (c : Context) : List String → List Observation → Context → Prop
  | start : Chronicles c [] [] c
  | move {r : Agent} {turn : Turns} {ids : List String} {log : List Observation} {c₁ : Context}
      (before : Chronicles c ids log c₁) (inline : r.settings.backend = .inline) (disturbs : Disturbs r turn)
      (move : Move) (host : Host) (requests : List GenerateRequest) :
      Chronicles c (ids ++ begunIn turn move c₁ { host, requests, observed := log })
        (playBy turn move c₁ { host, requests, observed := log }).world.observed
        (playBy turn move c₁ { host, requests, observed := log }).context

/-- Over any moves, each iteration that is begun is added to the history once, under the next identifier, and
nothing else is; the observer hears of each its traces in order and then its end, and nothing else. -/
theorem history_is_complete {c c' : Context} {ids : List String} {log : List Observation}
    (h : Chronicles c ids log c') : Records c [] ids c' log := by
  induction h with
  | start => exact .refl c []
  | @move r turn ids log c₁ before inline disturbs move host requests ih =>
    exact ih.trans (playBy_records inline disturbs move c₁ { host, requests, observed := log })

/-- What is left of two runs that are aborted before their first turn. -/
def stoppedTwice : RunResult :=
  let first := sampleAgent.play .run newContext stopped
  sampleAgent.play .run first.context { stopped with observed := first.world.observed }

theorem stopped_history_is_complete :
    Chronicles newContext [Ids.iteration "ctx" 1, Ids.iteration "ctx" 2] stoppedTwice.world.observed
        stoppedTwice.context ∧
      Records newContext [] [Ids.iteration "ctx" 1, Ids.iteration "ctx" 2] stoppedTwice.context
        stoppedTwice.world.observed := by
  have h : Chronicles newContext [Ids.iteration "ctx" 1, Ids.iteration "ctx" 2] stoppedTwice.world.observed
      stoppedTwice.context := by
    rw [stoppedTwice, ← playBy_advance, ← playBy_advance]
    exact .move (.move .start rfl (advance_disturbs sampleAgent) .run stopped.host []) rfl
      (advance_disturbs sampleAgent) .run stopped.host []
  exact ⟨h, history_is_complete h⟩

end Agent

end ScriptAgent
