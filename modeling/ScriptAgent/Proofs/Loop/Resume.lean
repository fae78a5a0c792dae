import ScriptAgent.Proofs.Loop.Objects
import ScriptAgent.Proofs.Loop.TurnScript
import ScriptAgent.Proofs.Sandbox.Globals

/-!
# Going on from a snapshot

A run that goes on from a settled snapshot starts where the script was suspended: with the variables of
that time, and with the value in the variable that the interrupted call was assigned to.  The model is
told once, and only the first iteration records what the run goes on from.
-/

namespace ScriptAgent

/-- What settling a snapshot assigns: its value, to the variable that its call was assigned to. -/
def Snapshot.assigned (s : Snapshot) : Dict Json :=
  match s.status, s.toolCall.bind (·.assignment) with
  | .resolved value, some assignment => [(assignment.target, value)]
  | _, _ => []

theorem Snapshot.ordered_assigned (s : Snapshot) : Dict.Ordered s.assigned := by
  unfold assigned
  split <;> simp [Dict.Ordered]

/-- An iteration before whose script no signal was recorded. -/
def Iteration.Unprompted (i : Iteration) : Prop :=
  ∀ t ∈ i.traces.head?, t.signal? = none

namespace Agent

/-- What a context becomes when it goes on from a settled snapshot: the message tells how that was
settled, and the correlation ties the run to it. -/
structure Resumed (c : Context) (s : Snapshot) (c₁ : Context) (message : Message) (d : Correlation) : Prop where
  «variables» : ∀ name, Dict.get? c₁.variables name =
    (Dict.get? s.assigned name).or ((Dict.get? s.variables name).or (Dict.get? c.variables name))
  ordered : Dict.Ordered c₁.variables
  context : c₁ = { c with
    resume := none, «variables» := c₁.variables, pending := c.pending ++ [message]
    correlation := some (.correlation d) }
  told : match s.status with
    | .pending => False
    | .resolved value => message = Feedback.resolved s value c₁.variables ∧ d = ⟨s.id, s.toolCall, true, some value, none⟩
    | .rejected error => message = Feedback.rejected s error ∧ d = ⟨s.id, s.toolCall, false, none, some error⟩

theorem resumedVariables_eq (c : Context) (s : Snapshot) :
    resumedVariables c s = (c.carry s.variables).carry s.assigned := by
  unfold resumedVariables Snapshot.assigned
  cases s.status <;> cases s.toolCall.bind (·.assignment) <;> rfl

theorem applySnapshot_resumes {c : Context} {s : Snapshot} (settled : s.isSettled = true)
    (ordered : Dict.Ordered c.variables) (snapshotOrdered : Dict.Ordered s.variables) :
    ∃ c₁ message d, applySnapshot { c with resume := some s } = (c₁, none) ∧ Resumed c s c₁ message d := by
  have hvariables (name : String) : Dict.get? (resumedVariables { c with resume := none } s).variables name =
      (Dict.get? s.assigned name).or ((Dict.get? s.variables name).or (Dict.get? c.variables name)) := by
    rw [resumedVariables_eq]
    show Dict.get? ((c.variables.overlay s.variables).overlay s.assigned) name = _
    rw [Dict.get?_overlay s.ordered_assigned, Dict.get?_overlay snapshotOrdered]
  have hordered : Dict.Ordered (resumedVariables { c with resume := none } s).variables := by
    rw [resumedVariables_eq]
    exact (ordered.overlay _).overlay _
  have hcontext : resumedVariables { c with resume := none } s = { c with
      resume := none, «variables» := (resumedVariables { c with resume := none } s).variables } := by
    rw [resumedVariables_eq]
    rfl
  unfold applySnapshot
  dsimp only
  generalize resumedVariables { c with resume := none } s = c₁ at *
  -- a settled snapshot always has something to tell
  obtain ⟨message, hmessage, htold⟩ : ∃ message, resumeMessage? c₁ s = some message ∧ match s.status with
      | .pending => False
      | .resolved value => message = Feedback.resolved s value c₁.variables ∧
        s.correlation = ⟨s.id, s.toolCall, true, some value, none⟩
      | .rejected error => message = Feedback.rejected s error ∧
        s.correlation = ⟨s.id, s.toolCall, false, none, some error⟩ := by
    unfold Snapshot.isSettled at settled
    unfold resumeMessage? Snapshot.correlation
    cases hs : s.status with
    | pending => rw [hs] at settled; cases settled
    | resolved value => exact ⟨_, rfl, rfl, rfl⟩
    | rejected error => exact ⟨_, rfl, rfl, rfl⟩
  rw [hmessage]
  refine ⟨_, message, s.correlation, rfl, hvariables, hordered, ?_, htold⟩
  rw [hcontext]
  rfl

/-! ### Only the first iteration -/

section Later

variable {r : Agent} {c c' : Context} {w w' : World} {ending : Option RunEnding}

theorem Passes.unprompted (h : Passes r.advance c w ending c' w') (hc : c.correlation = none) :
    c'.correlation = none ∧ ∃ added, c'.iterations = c.iterations ++ added ∧ ∀ i ∈ added, i.Unprompted := by
  induction h with
  | start => exact ⟨hc, [], by simp, by simp⟩
  | @turn c₁ c₂ w₁ w₂ ending before unaborted left turned ih =>
    obtain ⟨hnone, added, hadded, hunprompted⟩ := ih
    obtain ⟨i, hi, hleaves⟩ := r.advance_leaves c₁ w₁
    rw [turned] at hi hleaves
    refine ⟨hleaves.correlation, added ++ [i], by rw [hi, hadded, List.append_assoc], fun j hj => ?_⟩
    rcases List.mem_append.mp hj with hj | hj
    · exact hunprompted j hj
    · obtain rfl := List.mem_singleton.mp hj
      obtain ⟨rest, hrest, hquiet⟩ := hleaves.traces
      rw [hnone] at hrest
      unfold Iteration.Unprompted
      rw [hrest]
      exact hquiet

theorem Ends.unprompted {res : RunResult} (h : Ends r.advance c w res) (hc : c.correlation = none) :
    ∃ added, res.context.iterations = c.iterations ++ added ∧ ∀ i ∈ added, i.Unprompted := by
  cases h with
  | @aborted c₁ w₁ reason passed fired =>
    obtain ⟨-, added, hadded, hunprompted⟩ := passed.unprompted hc
    refine ⟨added ++ [abortIteration c₁ w₁.host.millis reason], ?_, fun i hi => ?_⟩
    · show c₁.iterations ++ [_] = _
      rw [hadded, List.append_assoc]
    · rcases List.mem_append.mp hi with hi | hi
      · exact hunprompted i hi
      · obtain rfl := List.mem_singleton.mp hi
        exact fun t ht => by cases ht; rfl
  | exceeded passed unaborted spent => exact (passed.unprompted hc).2
  | @turned c₁ w₁ ending passed =>
    have hs : (settle ending c₁).iterations = c₁.iterations := by cases ending <;> rfl
    obtain ⟨-, added, hadded, hunprompted⟩ := passed.unprompted hc
    exact ⟨added, hs.trans hadded, hunprompted⟩

/-- The first turn of a loop that may take one. -/
theorem takeTurns_first {turn : Turns} (ht : Counts turn) (unaborted : w.host.abort.reason = none)
    (left : c.attempt < c.options.loopLimit) :
    (∃ ending, (turn c w).1 = some ending ∧ takeTurns turn (c.options.loopLimit - c.attempt) c w =
      ⟨ending, settle ending (turn c w).2.1, (turn c w).2.2⟩) ∨
    (turn c w).1 = none ∧
      Ends turn (turn c w).2.1 (turn c w).2.2 (takeTurns turn (c.options.loopLimit - c.attempt) c w) := by
  obtain ⟨fuel, hfuel⟩ : ∃ fuel, c.options.loopLimit - c.attempt = fuel + 1 :=
    ⟨c.options.loopLimit - c.attempt - 1, by omega⟩
  obtain ⟨ho, ha⟩ := ht c w
  rw [hfuel, takeTurns, unaborted]
  dsimp only
  rw [if_neg (by omega)]
  rcases h : turn c w with ⟨_ | ending, c₁, w₁⟩
  · rw [h] at ho ha
    refine .inr ⟨rfl, takeTurns_ends ht ?_⟩
    rw [show c₁.options = c.options from ho, show c₁.attempt = c.attempt + 1 from ha]
    omega
  · exact .inl ⟨ending, rfl, rfl⟩

/-- After the first turn of a loop no iteration is prompted. -/
theorem takeTurns_unprompted (r : Agent) (unaborted : w.host.abort.reason = none)
    (left : c.attempt < c.options.loopLimit) :
    ∃ later, (takeTurns r.advance (c.options.loopLimit - c.attempt) c w).context.iterations =
        (r.advance c w).2.1.iterations ++ later ∧
      ∀ i ∈ later, i.Unprompted := by
  obtain ⟨_, -, hleaves⟩ := r.advance_leaves c w
  rcases takeTurns_first (Advances.counts (advance_advanced r)) unaborted left with ⟨ending, -, hresult⟩ | ⟨-, hends⟩
  · rw [hresult]
    exact ⟨[], by cases ending <;> simp [settle, Context.finishAttempt], by simp⟩
  · exact hends.unprompted hleaves.correlation

end Later

/-- A run that goes on from a snapshot takes its turns on what the context becomes. -/
theorem run_of_applied (r : Agent) {c c₁ : Context} {s : Snapshot} (w : World) (valid : c.validate = .ok ())
    (applied : applySnapshot { c with resume := some s } = (c₁, none)) :
    r.run { c with resume := some s } w = takeTurns r.advance (c₁.options.loopLimit - c₁.attempt) c₁ w := by
  rcases r.run_cases { c with resume := some s } w with ⟨e, c₂, -, -, -, hnot⟩ | ⟨c₂, -, hs, hr⟩
  · exact absurd applied (hnot c₁ valid)
  · rw [applied] at hs
    cases hs
    exact hr

/-- A run that goes on from a settled snapshot starts its first iteration, if there is one, with the
variables of the context, those of the snapshot over them, and the value that the snapshot was resolved
with in the variable that its call was assigned to.  One message is added for the model.  That iteration
and no later one first records the correlation, and its script starts with these variables. -/
theorem run_resumes (r : Agent) {c : Context} {s : Snapshot} (w : World) (valid : c.validate = .ok ())
    (settled : s.isSettled = true) (ordered : Dict.Ordered c.variables)
    (snapshotOrdered : Dict.Ordered s.variables) :
    ∃ c₁ message d, Resumed c s c₁ message d ∧
      (w.host.abort.reason = none → c.attempt < c.options.loopLimit →
        ∃ i later, (r.run { c with resume := some s } w).context.iterations = c.iterations ++ i :: later ∧
          (∃ rest, i.traces = .signal w.host.millis none (.correlation d) :: rest ∧
            ∀ t ∈ rest.head?, t.signal? = none) ∧
          (∀ j ∈ later, j.Unprompted) ∧
          ∀ code compiled, i.code = some code → compile code = .ok compiled →
            ∃ host, i.variables = ((r.job c₁ compiled).execute host).1.variables ∧
              i.mutations = ((r.job c₁ compiled).execute host).1.mutations ∧
              (r.job c₁ compiled).Starts ((r.job c₁ compiled).machine host)) := by
  obtain ⟨c₁, message, d, happlied, hresumed⟩ := applySnapshot_resumes settled ordered snapshotOrdered
  refine ⟨c₁, message, d, hresumed, fun unaborted left => ?_⟩
  have hleft : c₁.attempt < c₁.options.loopLimit := by
    rw [hresumed.context]
    exact left
  have hiterations : c₁.iterations = c.iterations := by rw [hresumed.context]
  have hcorrelation : c₁.correlation = some (.correlation d) := by rw [hresumed.context]
  obtain ⟨i, hi, hleaves⟩ := r.advance_leaves c₁ w
  obtain ⟨later, hlater, hunprompted⟩ := takeTurns_unprompted r unaborted hleft
  refine ⟨i, later, ?_, ?_, hunprompted, fun code compiled hcode hcompiled => ?_⟩
  · rw [run_of_applied r w valid happlied, hlater, hi, hiterations]
    simp
  · obtain ⟨rest, hrest, hquiet⟩ := hleaves.traces
    rw [hcorrelation] at hrest
    exact ⟨rest, hrest, hquiet⟩
  · obtain ⟨host, hvariables, hmutations⟩ := hleaves.ran.of_compile hcode hcompiled
    exact ⟨host, hvariables, hmutations, Job.starts_machine _ host hresumed.ordered⟩

/-- A run that was suspended in a call whose result is assigned to `x`. -/
def sampleSnapshot : Snapshot where
  id := "snap-1"
  reason := "wait"
  signal := {
    reason := "wait"
    toolCall := some { id := "tcall-1", name := "fetch", assignment := some ⟨"x", "fetch", 2⟩ } }
  «variables» := [("x", .nat 1), ("y", .nat 2)]
  status := .resolved (.str "done")
  createdAt := 0

theorem sampleSnapshot_resumes :
    (Context.validate { id := "ctx", «variables» := [("y", .nat 3), ("z", .nat 4)] } = .ok () ∧
      sampleSnapshot.isSettled = true) ∧
      ∃ c₁ message d, Resumed { id := "ctx", «variables» := [("y", .nat 3), ("z", .nat 4)] } sampleSnapshot c₁ message d ∧
        Dict.get? c₁.variables "x" = some (.str "done") ∧ Dict.get? c₁.variables "y" = some (.nat 2) ∧
        Dict.get? c₁.variables "z" = some (.nat 4) := by
  have valid : Context.validate { id := "ctx", «variables» := [("y", .nat 3), ("z", .nat 4)] } = .ok () := by
    decide +kernel
  obtain ⟨c₁, message, d, hresumed, -⟩ := run_resumes sampleAgent
    (c := { id := "ctx", «variables» := [("y", .nat 3), ("z", .nat 4)] }) (s := sampleSnapshot) {} valid rfl
    (by decide +kernel) (by decide +kernel)
  exact ⟨⟨valid, rfl⟩, c₁, message, d, hresumed, hresumed.variables "x", hresumed.variables "y", hresumed.variables "z"⟩

/-! ### Snapshots that are not settled -/

/-- A snapshot that is not settled is refused only after its variables were put over those of the context. -/
theorem applySnapshot_refuses {c : Context} {s : Snapshot} (unsettled : s.isSettled = false) :
    applySnapshot { c with resume := some s } =
      ({ c with resume := none, «variables» := Dict.overlay c.variables s.variables },
        some (.snapshot ("Snapshot " ++ s.id ++ " has not been resolved or rejected"))) := by
  have pending : s.status = .pending := by
    unfold Snapshot.isSettled at unsettled
    cases hs : s.status <;> simp_all
  simp only [applySnapshot, resumedVariables, resumeMessage?, pending]
  rfl

/-- A run of a context that carries a snapshot which is not settled fails at once: no model call is made,
and the history, the messages, the objects, the attempt and the correlation are those of the context.
Its variables are not: those of the snapshot are put over them, which goes unnoticed just if the context
has them all with the same values. -/
theorem run_refuses_unsettled (r : Agent) {c : Context} {s : Snapshot} (w : World) (valid : c.validate = .ok ())
    (unsettled : s.isSettled = false) (ordered : Dict.Ordered c.variables)
    (snapshotOrdered : Dict.Ordered s.variables) :
    r.run { c with resume := some s } w =
        ⟨.failed (.snapshot ("Snapshot " ++ s.id ++ " has not been resolved or rejected")),
          { c with resume := none, «variables» := Dict.overlay c.variables s.variables }, w⟩ ∧
      (∀ name, Dict.get? (r.run { c with resume := some s } w).context.variables name =
        (Dict.get? s.variables name).or (Dict.get? c.variables name)) ∧
      ((r.run { c with resume := some s } w).context.variables = c.variables ↔
        ∀ name value, (name, value) ∈ s.variables → Dict.get? c.variables name = some value) := by
  have hrun : r.run { c with resume := some s } w =
      ⟨.failed (.snapshot ("Snapshot " ++ s.id ++ " has not been resolved or rejected")),
        { c with resume := none, «variables» := Dict.overlay c.variables s.variables }, w⟩ := by
    have valid' : ({ c with resume := some s } : Context).validate = .ok () := valid
    rw [run, valid', applySnapshot_refuses unsettled]
  refine ⟨hrun, fun name => ?_, ?_⟩
  · rw [hrun]
    exact Dict.get?_overlay snapshotOrdered _ name
  · rw [hrun]
    exact ordered.overlay_eq_self_iff snapshotOrdered

/-- A run that waits for an answer. -/
def waitingSnapshot : Snapshot := { sampleSnapshot with status := .pending }

theorem waitingSnapshot_is_refused :
    (Context.validate { id := "ctx", «variables» := [("y", .nat 3), ("z", .nat 4)] } = .ok () ∧
      waitingSnapshot.isSettled = false) ∧
      ∃ res, sampleAgent.run
          { id := "ctx", «variables» := [("y", .nat 3), ("z", .nat 4)], resume := some waitingSnapshot } {} = res ∧
        res.ending = .failed (.snapshot ("Snapshot " ++ "snap-1" ++ " has not been resolved or rejected")) ∧
        Dict.get? res.context.variables "y" = some (.nat 2) ∧ Dict.get? res.context.variables "z" = some (.nat 4) := by
  have valid : Context.validate { id := "ctx", «variables» := [("y", .nat 3), ("z", .nat 4)] } = .ok () := by
    decide +kernel
  obtain ⟨refused, hget, -⟩ := run_refuses_unsettled sampleAgent
    (c := { id := "ctx", «variables» := [("y", .nat 3), ("z", .nat 4)] }) (s := waitingSnapshot) {} valid rfl
    (by decide +kernel) (by decide +kernel)
  exact ⟨⟨valid, rfl⟩, _, rfl, congrArg RunResult.ending refused, hget "y", hget "z"⟩

/-- A refused snapshot does not always leave the variables of the context alone. -/
theorem refused_snapshot_sets_variables :
    ¬ ∀ (r : Agent) (c : Context) (s : Snapshot) (w : World), c.validate = .ok () → s.isSettled = false →
      (r.run { c with resume := some s } w).context.variables = c.variables := by
  intro h
  have hkept := h sampleAgent { id := "ctx" } waitingSnapshot {} (by decide +kernel) rfl
  rw [show (sampleAgent.run { id := "ctx", resume := some waitingSnapshot } {}).context.variables =
    [("x", .nat 1), ("y", .nat 2)] by rfl] at hkept
  cases hkept

end Agent

end ScriptAgent
