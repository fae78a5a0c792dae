import ScriptAgent.Proofs.Sandbox.EvaluationConduct
import ScriptAgent.Sandbox.Run

/-!
# A run acts by deeds

What a run leaves of the outside is reached by deeds from what it started on.  Nothing follows a deed
that raises a signal, so the signal that is raised when the run is over decides how it ends.
-/

namespace ScriptAgent

open Script (Value)

/-- The same outside at another time. -/
def Outside.atTime (o : Outside) (micros : Nat) : Outside :=
  { o with host := { o.host with micros } }

/-- A run that raised no signal does not end with one. -/
theorem Machine.ending_ne_suspended (m : Machine) (b : Backend) (r : Except Stop Value) (s : Signal) :
    m.ending b r ≠ .suspended s := by
  unfold Machine.ending
  split <;> simp

/-- A failure tells of an abort only if the host has ended the run. -/
theorem Machine.kind_of_unimposed {m : Machine} {s : Stop} (h : imposed s.halt? = false) :
    (m.failure s).kind ≠ .aborted := by
  cases s with
  | fault cause pos =>
    rcases hroot : cause.root pos with ⟨f, p⟩
    cases f with
    | thrown v =>
      by_cases hv : m.refusedWrite = some v.thrownText <;> simp [failure, hroot, failureAt, hv]
    | _ => simp [failure, hroot, failureAt]
  | halted why pos =>
    cases why with
    | timedOut | outOfMemory => nofun
    | aborted | suspended => cases h
  | _ => nofun

theorem Machine.ending_unaborted {m : Machine} {b : Backend} {r : Except Stop Value} {f : Failure}
    (h : imposed (haltOf r) = false) (he : m.ending b r = .failed f) : f.kind ≠ .aborted := by
  cases r with
  | ok v => cases he
  | error s =>
    cases s with
    | returned v => cases he
    | _ =>
      cases he
      exact kind_of_unimposed h

namespace Job

/-- A script's handlers are told of faults as they are. -/
theorem describes (j : Job) (host : Host) (functions : List Script.Function) : (j.env host functions).Describes :=
  nofun

/-- A run acts by deeds.  The signal that is raised when it is over is the one it ends with.  If the last
deed is a call that was given up, no signal is raised and the run ends for the same reason; if not, it is
not aborted. -/
theorem run_course_ends (j : Job) (host : Host) :
    ∃ functions ds g o, Course (j.env host functions) (j.machine host).outside ds g o ∧
      (j.run host).machine.outside = o.atTime (j.run host).machine.host.micros ∧
      (∀ s, (j.run host).ending = .suspended s ↔ o.raised = some s) ∧
      (∀ why, g = some why → o.raised = none →
        ∃ pos, (j.run host).ending = .failed ((j.run host).machine.failure (.halted why pos))) ∧
      (g = none → ∀ f, (j.run host).ending = .failed f → f.kind ≠ .aborted) := by
  unfold run
  split
  · refine ⟨[], [], none, _, .none _, rfl, fun s => ⟨nofun, nofun⟩, nofun, fun _ f hf => ?_⟩
    cases hf
    nofun
  · next program _ =>
    let env := j.env host program.functions
    have h := (Exec.obeys_runAll (obeys_evaluate (z := env.sizes) env (j.describes host _) nestingFuel) program.body
      (j.machine host) rfl).conducted
    rcases hr : runAll (evaluate (j.env host program.functions) nestingFuel) program.body (j.machine host)
      with ⟨result, m⟩
    rw [hr] at h
    obtain ⟨ds, g, hds, hg⟩ := h
    dsimp only
    rw [hr]
    have hraised : m.outside.raised = m.raised := rfl
    refine ⟨program.functions, ds, g, m.outside, hds, rfl, fun s => ?_, fun why hwhy hnone => ?_,
      fun hnone f hf => ?_⟩
    · rw [hraised]
      cases hm : m.raised with
      | none => simp [hm, Machine.ending_ne_suspended]
      | some s' => simp [hm]
    · -- the stop that the call led to came through to the end
      rcases hg with ⟨-, rfl, -⟩ | ⟨-, -, hg⟩
      · cases hwhy
      · cases result with
        | ok v => cases hg why hwhy
        | error s =>
          obtain ⟨pos, rfl⟩ := Stop.halt?_eq_some.mp (hg why hwhy)
          exact ⟨pos, by simp [← hraised, hnone, Machine.ending]⟩
    · -- a signal that was raised decides the ending
      dsimp only at hf hg
      cases hm : m.raised with
      | some s =>
        rw [hm] at hf
        cases hf
      | none =>
        rw [hm] at hf hg
        rcases hg with ⟨-, -, hunimposed⟩ | ⟨-, hends | hends, -⟩
        · exact Machine.ending_unaborted hunimposed hf
        · cases hends
        · rw [hnone] at hends
          cases hends

theorem run_course (j : Job) (host : Host) :
    ∃ functions ds g o, Course (j.env host functions) (j.machine host).outside ds g o ∧
      (j.run host).machine.outside = o.atTime (j.run host).machine.host.micros ∧
      (∀ s, (j.run host).ending = .suspended s ↔ o.raised = some s) ∧
      ∀ why, g = some why → o.raised = none →
        ∃ pos, (j.run host).ending = .failed ((j.run host).machine.failure (.halted why pos)) := by
  obtain ⟨functions, ds, g, o, hds, ho, hs, hgiven, -⟩ := j.run_course_ends host
  exact ⟨functions, ds, g, o, hds, ho, hs, hgiven⟩

theorem run_conduct (j : Job) (host : Host) :
    ∃ functions ds o, Conduct (j.env host functions) (j.machine host).outside ds o ∧
      (j.run host).machine.outside = o.atTime (j.run host).machine.host.micros ∧
      ∀ s, (j.run host).ending = .suspended s ↔ o.raised = some s := by
  obtain ⟨functions, ds, g, o, hds, ho, hs, -⟩ := j.run_course host
  exact ⟨functions, ds, o, hds.conduct, ho, hs⟩

end Job

end ScriptAgent
