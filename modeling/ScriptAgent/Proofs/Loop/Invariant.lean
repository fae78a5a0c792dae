import ScriptAgent.Proofs.Loop.Objects

/-!
# What no step of the loop breaks

A property of contexts that turns keep, and all that a run does to a context before and after them, holds of
every context that a host's moves lead to.
-/

namespace ScriptAgent

namespace Agent

/-- A property of contexts that no step of the loop breaks. -/
structure Invariant (P : Context → Prop) : Prop where
  advance {c : Context} (h : P c) (r : Agent) (w : World) : P (r.advance c w).2.1
  /-- A snapshot is put in or taken out. -/
  onto {c : Context} (h : P c) (s : Option Snapshot) : P { c with resume := s }
  /-- A snapshot is taken up. -/
  applied {c : Context} (h : P c) : P (applySnapshot c).1
  /-- A run is aborted between two turns. -/
  aborted {c : Context} (h : P c) (i : Iteration) : P (c.beginTurn.record i)
  /-- An attempt has succeeded. -/
  finished {c : Context} (h : P c) : P c.finishAttempt

namespace Invariant

variable {P : Context → Prop} {r : Agent} {c c' : Context} {w w' : World} {ending : Option RunEnding}

theorem settle (inv : Invariant P) (h : P c) (ending : RunEnding) : P (settle ending c) := by
  cases ending with
  | success => exact inv.finished h
  | interrupted => exact h
  | failed => exact h

theorem passes (inv : Invariant P) (h : P c) (passed : Passes r.advance c w ending c' w') : P c' := by
  induction passed with
  | start => exact h
  | @turn c₁ c₂ w₁ w₂ ending before unaborted left turned ih =>
    have hnext := inv.advance ih r w₁
    rw [turned] at hnext
    exact hnext

theorem ends (inv : Invariant P) (h : P c) {res : RunResult} (ended : Ends r.advance c w res) : P res.context := by
  cases ended with
  | aborted passed fired => exact inv.aborted (inv.passes h passed) _
  | exceeded passed unaborted spent => exact inv.passes h passed
  | @turned c₁ w₁ ending passed => exact inv.settle (inv.passes h passed) ending

theorem run (inv : Invariant P) (h : P c) (r : Agent) (w : World) : P (r.run c w).context := by
  unfold Agent.run
  cases c.validate with
  | error e => exact h
  | ok u =>
    have happlied := inv.applied h
    dsimp only
    rcases hs : applySnapshot c with ⟨c₁, _ | e⟩ <;> rw [hs] at happlied
    · exact inv.ends happlied (takeTurns_ends (Advances.counts (advance_advanced r)) (Nat.le_refl _))
    · exact happlied

theorem play (inv : Invariant P) (h : P c) (r : Agent) (move : Move) (w : World) : P (r.play move c w).context := by
  have goOn (s : Except RunError Snapshot) : P (r.goOn c w s).context := by
    cases s with
    | error e => exact h
    | ok s => exact inv.run (inv.onto h (some s)) r w
  cases move with
  | run => exact inv.run h r w
  | resolve s value => exact goOn _
  | reject s error => exact goOn _

theorem becomes (inv : Invariant P) (h : P c) (became : Becomes c c') : P c' := by
  induction became with
  | start => exact h
  | @iteration r c₁ c₂ c₃ w w' s ending before valid begun passed ih =>
    have happlied := inv.applied (inv.onto ih s)
    rw [begun] at happlied
    exact inv.passes happlied passed
  | move before r move w ih => exact inv.play ih r move w

end Invariant

end Agent

end ScriptAgent
