import ScriptAgent.Proofs.Loop.Aborting

/-!
# How many turns an attempt takes

A turn is only begun below the limit, and counts for one.  A run that is aborted between two turns counts for one
as well, whether turns are left or not; nothing but the record of that is then added to the history.
-/

namespace ScriptAgent

namespace Agent

/-- What a context comes to by any moves, whoever fires the abort latch meanwhile: the context after a turn, or the
one that a move gives back. -/
inductive Comes (c : Context) : Context → Prop
  | start : Comes c c
  | turn {r : Agent} {turn : Turns} {c₁ c₂ c₃ : Context} {w w' : World} {s : Option Snapshot}
      {ending : Option RunEnding} (before : Comes c c₁) (disturbs : Disturbs r turn)
      (valid : { c₁ with resume := s }.validate = .ok ()) (begun : applySnapshot { c₁ with resume := s } = (c₂, none))
      (passed : Passes turn c₂ w ending c₃ w') : Comes c c₃
  | move {r : Agent} {turn : Turns} {c₁ : Context} (before : Comes c c₁) (disturbs : Disturbs r turn) (move : Move)
      (w : World) : Comes c (playBy turn move c₁ w).context

/-- An iteration that only records that a run was aborted between two turns. -/
def IsAbortRecord (i : Iteration) : Prop :=
  ∃ c now reason, i = abortIteration c now reason

/-- The counter exceeds the limit by no more than runs were aborted since the last turn. -/
def Bounded (c : Context) : Prop :=
  ∃ before aborts, c.iterations = before ++ aborts ∧ (∀ i ∈ aborts, IsAbortRecord i) ∧
    c.attempt ≤ c.options.loopLimit + aborts.length

namespace Bounded

variable {r : Agent} {turn : Turns} {c c' : Context} {w w' : World} {ending : Option RunEnding}

theorem of_le (h : c.attempt ≤ c.options.loopLimit) : Bounded c :=
  ⟨c.iterations, [], (List.append_nil _).symm, fun _ hi => (nomatch hi), by simpa using h⟩

theorem congr (h : Bounded c) (options : c'.options = c.options) (attempt : c'.attempt = c.attempt)
    (iterations : c'.iterations = c.iterations) : Bounded c' := by
  unfold Bounded
  rw [options, attempt, iterations]
  exact h

theorem onto (h : Bounded c) (s : Option Snapshot) : Bounded { c with resume := s } :=
  h

/-- A run is aborted between two turns. -/
theorem aborted (h : Bounded c) (now : Millis) (reason : String) :
    Bounded (c.beginTurn.record (abortIteration c now reason)) := by
  obtain ⟨before, aborts, hiterations, haborts, hattempt⟩ := h
  refine ⟨before, aborts ++ [abortIteration c now reason], ?_, ?_, ?_⟩
  · show c.iterations ++ [_] = _
    rw [hiterations, List.append_assoc]
  · exact List.forall_mem_append.mpr ⟨haborts, List.forall_mem_singleton.mpr ⟨c, now, reason, rfl⟩⟩
  · rw [List.length_append, List.length_singleton]
    exact Nat.succ_le_succ hattempt

theorem settle (h : Bounded c) (ending : RunEnding) : Bounded (settle ending c) := by
  cases ending with
  | success => exact .of_le (Nat.zero_le _)
  | interrupted => exact h
  | failed => exact h

/-- A turn is begun below the limit and counts for one. -/
theorem passes (h : Bounded c) (disturbs : Disturbs r turn) (passed : Passes turn c w ending c' w') : Bounded c' := by
  cases passed with
  | start => exact h
  | @turn c₁ c₂ w₁ w₂ ending before unaborted left turned =>
    obtain ⟨hoptions, hattempt⟩ := disturbs.counts c₁ w₁
    rw [turned] at hoptions hattempt
    exact .of_le (by rw [hoptions, hattempt]; exact left)

theorem ends (h : Bounded c) (disturbs : Disturbs r turn) {res : RunResult} (ended : Ends turn c w res) :
    Bounded res.context := by
  cases ended with
  | aborted passed fired => exact (h.passes disturbs passed).aborted _ _
  | exceeded passed => exact h.passes disturbs passed
  | turned passed => exact (h.passes disturbs passed).settle _

theorem applied (h : Bounded c) {e : Option RunError} (begun : applySnapshot c = (c', e)) : Bounded c' := by
  obtain ⟨hoptions, hattempt, hiterations, -⟩ := applySnapshot_keeps begun
  exact h.congr hoptions hattempt hiterations

theorem runBy (h : Bounded c) (disturbs : Disturbs r turn) (w : World) : Bounded (runBy turn c w).context := by
  rcases runBy_cases turn c w with ⟨e, c₁, hrun, rfl | hs⟩ | ⟨c₁, -, hs, hrun⟩ <;> rw [hrun]
  · exact h
  · exact h.applied hs
  · exact (h.applied hs).ends disturbs (takeTurns_ends disturbs.counts (Nat.le_refl _))

theorem playBy (h : Bounded c) (disturbs : Disturbs r turn) (move : Move) (w : World) :
    Bounded (playBy turn move c w).context := by
  have goOn (s : Except RunError Snapshot) : Bounded (goOnBy turn c w s).context := by
    cases s with
    | error e => exact h
    | ok s => exact (h.onto s).runBy disturbs w
  cases move with
  | run => exact h.runBy disturbs w
  | resolve s value => exact goOn _
  | reject s error => exact goOn _

end Bounded

/-- Over any moves, and whoever fires the abort latch: the counter exceeds the limit by no more than the records at the
end of the history of runs that were aborted between two turns. -/
theorem attempts_are_bounded {c c' : Context} (h : Comes c c') (hc : c.attempt ≤ c.options.loopLimit) : Bounded c' := by
  induction h with
  | start => exact .of_le hc
  | turn before disturbs valid begun passed ih => exact ((ih.onto _).applied begun).passes disturbs passed
  | move before disturbs move w ih => exact ih.playBy disturbs move w

/-- A context for one turn. -/
def shortContext : Context :=
  { newContext with options := { loopLimit := 1 } }

/-- What becomes of it by two runs that are aborted. -/
def twiceStopped : Context :=
  (sampleAgent.play .run (sampleAgent.play .run shortContext stopped).context stopped).context

theorem comes_twiceStopped : Comes shortContext twiceStopped := by
  rw [twiceStopped, ← playBy_advance, ← playBy_advance]
  exact .move (.move .start (advance_disturbs sampleAgent) .run stopped) (advance_disturbs sampleAgent) .run stopped

theorem twiceStopped_is_bounded : Comes shortContext twiceStopped ∧ Bounded twiceStopped :=
  ⟨comes_twiceStopped, attempts_are_bounded comes_twiceStopped (Nat.zero_le _)⟩

/-- The counter does exceed the limit. -/
theorem not_always_within_limit :
    ¬ ∀ c c' : Context, c.attempt = 0 → Comes c c' → c'.attempt ≤ c'.options.loopLimit := by
  intro h
  have hle := h shortContext twiceStopped rfl comes_twiceStopped
  have hattempt : twiceStopped.attempt = 2 := rfl
  have hlimit : twiceStopped.options.loopLimit = 1 := rfl
  omega

end Agent

end ScriptAgent
