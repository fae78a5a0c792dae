import ScriptAgent.Proofs.Loop.Objects
import ScriptAgent.Proofs.Loop.Resume

/-!
# Which names a context comes to hold

A run checks the names of its context once, before it starts.  What it then puts among the variables
it does not check: the variables of a snapshot and the target of its call, those that scripts leave,
and what a thought carries on.  So the context it gives back may be run again exactly if all names
that came in by these ways could be injected.
-/

namespace ScriptAgent

/-- The names that an iteration puts among the variables. -/
def Iteration.introduces (i : Iteration) : List String :=
  Dict.keys i.variables ++ Dict.keys i.carried

/-- The names that a snapshot puts among the variables. -/
def Snapshot.introduces (s : Snapshot) : List String :=
  Dict.keys s.variables ++ Dict.keys s.assigned

namespace Context

/-! ### What is checked -/

/-- Whether a variable with a name can be injected. -/
def Admits (c : Context) (name : String) : Prop :=
  isIdentifier name = true ∧ isReserved name = false ∧ name ∉ c.globalNames

/-- What a context goes on from has no part in what it admits. -/
@[simp]
theorem admits_resume (c : Context) (s : Option Snapshot) (name : String) :
    Admits { c with resume := s } name ↔ c.Admits name :=
  .rfl

theorem checkGlobals_eq {seen names seen' : List String} (h : checkGlobals seen names = .ok seen') :
    seen' = seen ++ names := by
  induction names generalizing seen with
  | nil =>
    cases h
    simp
  | cons name rest ih =>
    rw [checkGlobals] at h
    split at h
    · cases h
    · split at h
      · cases h
      · split at h
        · cases h
        · rw [ih h, List.append_assoc]
          rfl

theorem checkVariables_eq_ok {globals names : List String} :
    checkVariables globals names = .ok () ↔
      ∀ name ∈ names, isIdentifier name = true ∧ isReserved name = false ∧ name ∉ globals := by
  induction names with
  | nil => simp [checkVariables]
  | cons name rest ih =>
    rw [checkVariables, List.forall_mem_cons]
    split
    · next h =>
      refine iff_of_false nofun fun hall => ?_
      obtain ⟨hi, hr, hg⟩ := hall.1
      simp [hi, hr, hg] at h
    · next h =>
      rw [ih]
      simp only [Bool.or_eq_true, Bool.not_eq_true', not_or, List.contains_iff_mem] at h
      exact (and_iff_right ⟨by simpa using h.1.1, by simpa using h.1.2, h.2⟩).symm

/-- All that is checked of a context but its variables. -/
structure SameChecks (c c' : Context) : Prop where
  options : c'.options = c.options
  exits : c'.exits = c.exits
  globals : c'.globalNames = c.globalNames

theorem SameChecks.refl (c : Context) : SameChecks c c := ⟨rfl, rfl, rfl⟩

theorem SameChecks.trans {c c₁ c₂ : Context} (h : SameChecks c c₁) (h' : SameChecks c₁ c₂) : SameChecks c c₂ :=
  ⟨h'.options.trans h.options, h'.exits.trans h.exits, h'.globals.trans h.globals⟩

theorem validate_eq_ok {c : Context} : c.validate = .ok () ↔ c.check = .ok () := by
  unfold validate
  cases c.check with
  | ok u => simp
  | error e => simp

/-- Where all else was checked before, the names of the variables decide. -/
theorem SameChecks.validate_iff {c c' : Context} (h : SameChecks c c') (valid : c.validate = .ok ()) :
    c'.validate = .ok () ↔ ∀ name ∈ Dict.keys c'.variables, c.Admits name := by
  rw [validate_eq_ok] at valid ⊢
  unfold check at valid ⊢
  rw [h.options, h.globals, h.exits]
  dsimp only at valid ⊢
  split at valid
  · cases valid
  · next hlimit =>
    obtain ⟨globals, (hglobals : checkGlobals [] c.globalNames = .ok globals), hrest⟩ := ok_of_bind valid
    obtain ⟨u, hexits, -⟩ := ok_of_bind hrest
    have hall := checkGlobals_eq hglobals
    rw [List.nil_append] at hall
    subst hall
    rw [if_neg hlimit]
    have hcheck : ((do
        let globals ← checkGlobals [] c.globalNames
        checkExits [] (c.exits.flatMap Exit.names)
        checkVariables globals (Dict.keys c'.variables)) : Except String Unit) =
          checkVariables c.globalNames (Dict.keys c'.variables) := by
      rw [hglobals]
      show (checkExits [] (c.exits.flatMap Exit.names) >>= fun _ => _) = _
      rw [hexits]
      rfl
    exact (iff_of_eq (congrArg (· = _) hcheck)).trans checkVariables_eq_ok

end Context

namespace Agent

/-! ### What comes in -/

/-- What became of a context: its variables are the earlier ones and those that came in. -/
structure Grown (c c' : Context) (names : List String) : Prop where
  checks : Context.SameChecks c c'
  names : ∀ name, name ∈ Dict.keys c'.variables ↔ name ∈ Dict.keys c.variables ∨ name ∈ names

theorem Grown.validate_iff {c c' : Context} {names : List String} (h : Grown c c' names)
    (valid : c.validate = .ok ()) : c'.validate = .ok () ↔ ∀ name ∈ names, c.Admits name := by
  have before : ∀ name ∈ Dict.keys c.variables, c.Admits name :=
    ((Context.SameChecks.refl c).validate_iff valid).mp valid
  rw [h.checks.validate_iff valid]
  refine ⟨fun hall name hname => hall name ((h.names name).mpr (.inr hname)), fun hall name hname => ?_⟩
  rcases (h.names name).mp hname with hname | hname
  · exact before name hname
  · exact hall name hname

theorem Grown.trans {c c₁ c₂ : Context} {names names' : List String} (h : Grown c c₁ names)
    (h' : Grown c₁ c₂ names') : Grown c c₂ (names ++ names') := by
  refine ⟨h.checks.trans h'.checks, fun name => ?_⟩
  rw [h'.names, h.names, List.mem_append, or_assoc]

/-- Objects keep their names, whatever is written to them. -/
theorem name_reconcile (o : ObjectInstance) (ms : List Mutation) : (o.reconcile ms).name = o.name := by
  unfold ObjectInstance.reconcile
  induction ms generalizing o with
  | nil => rfl
  | cons m rest ih =>
    rw [List.foldl_cons, ih]
    unfold ObjectInstance.apply
    split <;> rfl

theorem advance_grown (r : Agent) (c : Context) (w : World) :
    ∃ i, (r.advance c w).2.1.iterations = c.iterations ++ [i] ∧
      Grown c (r.advance c w).2.1 i.introduces := by
  obtain ⟨i, hadvanced⟩ := r.advance_advanced c w
  obtain ⟨i', hi', hleaves⟩ := r.advance_leaves c w
  refine ⟨i', hi', ⟨hadvanced.options, hleaves.exits, ?_⟩, fun name => ?_⟩
  · have hobjects : (r.advance c w).2.1.objects.map (·.name) = c.objects.map (·.name) := by
      rcases hadvanced.objects with ho | ⟨j, host, -, ho⟩
      · rw [ho]
      · rw [ho, List.map_map]
        exact List.map_congr_left fun o _ => name_reconcile o _
    unfold Context.globalNames
    rw [hleaves.tools, hobjects]
  · rw [hleaves.variables, Dict.mem_keys_overlay, Dict.mem_keys_overlay, or_assoc, Iteration.introduces,
      List.mem_append]

theorem Passes.grown {r : Agent} {c c' : Context} {w w' : World} {ending : Option RunEnding}
    (h : Passes r.advance c w ending c' w') :
    ∃ added, c'.iterations = c.iterations ++ added ∧ Grown c c' (added.flatMap Iteration.introduces) := by
  induction h with
  | start => exact ⟨[], by simp, .refl _, by simp⟩
  | @turn c₁ c₂ w₁ w₂ ending before unaborted left turned ih =>
    obtain ⟨added, hadded, hgrown⟩ := ih
    obtain ⟨i, hi, hstep⟩ := r.advance_grown c₁ w₁
    rw [turned] at hi hstep
    refine ⟨added ++ [i], by rw [hi, hadded, List.append_assoc], ?_⟩
    simpa using hgrown.trans hstep

theorem Ends.grown {r : Agent} {c : Context} {w : World} {res : RunResult} (h : Ends r.advance c w res) :
    ∃ added, res.context.iterations = c.iterations ++ added ∧
      Grown c res.context (added.flatMap Iteration.introduces) := by
  cases h with
  | @aborted c₁ w₁ reason passed fired =>
    obtain ⟨added, hadded, hgrown⟩ := passed.grown
    refine ⟨added ++ [abortIteration c₁ w₁.host.millis reason], ?_, ?_⟩
    · show c₁.iterations ++ [_] = _
      rw [hadded, List.append_assoc]
    · show Grown c (c₁.beginTurn.record (abortIteration c₁ w₁.host.millis reason)) _
      -- this iteration only repeats the variables that there are
      have hsame : Grown c₁ (c₁.beginTurn.record (abortIteration c₁ w₁.host.millis reason))
          (abortIteration c₁ w₁.host.millis reason).introduces :=
        ⟨⟨rfl, rfl, rfl⟩, fun name => by simp [Iteration.introduces, Iteration.carried, abortIteration, Context.record,
          Context.beginTurn]⟩
      simpa using hgrown.trans hsame
  | exceeded passed unaborted spent => exact passed.grown
  | @turned c₁ w₁ ending passed =>
    obtain ⟨added, hadded, hgrown⟩ := passed.grown
    have hsettled : Grown c₁ (settle ending c₁) [] := by
      cases ending <;> exact ⟨⟨rfl, rfl, rfl⟩, fun name => by simp [settle, Context.finishAttempt]⟩
    have hs : (settle ending c₁).iterations = c₁.iterations := by cases ending <;> rfl
    exact ⟨added, hs.trans hadded, by simpa using hgrown.trans hsettled⟩

/-- The names that come in with what a context goes on from. -/
def resumedNames (c : Context) : List String :=
  (c.resume.map Snapshot.introduces).getD []

theorem applySnapshot_grown (c : Context) : Grown c (applySnapshot c).1 (resumedNames c) := by
  have resumed (s : Snapshot) : Grown c (resumedVariables { c with resume := none } s) s.introduces := by
    rw [resumedVariables_eq]
    refine ⟨⟨rfl, rfl, rfl⟩, fun name => ?_⟩
    show name ∈ Dict.keys ((c.variables.overlay s.variables).overlay s.assigned) ↔ _
    rw [Dict.mem_keys_overlay, Dict.mem_keys_overlay, or_assoc, Snapshot.introduces, List.mem_append]
  unfold applySnapshot resumedNames
  cases c.resume with
  | none => exact ⟨.refl c, by simp⟩
  | some s =>
    dsimp only
    split
    · exact resumed s
    · exact ⟨⟨(resumed s).checks.options, (resumed s).checks.exits, (resumed s).checks.globals⟩, (resumed s).names⟩

theorem run_grown (r : Agent) {c : Context} (w : World) (valid : c.validate = .ok ()) :
    ∃ added, (r.run c w).context.iterations = c.iterations ++ added ∧
      Grown c (r.run c w).context (resumedNames c ++ added.flatMap Iteration.introduces) := by
  have happlied := applySnapshot_grown c
  have hcounts := Advances.counts (advance_advanced r)
  unfold run
  rw [valid]
  dsimp only
  rcases hs : applySnapshot c with ⟨c₁, _ | e⟩
  · rw [hs] at happlied
    obtain ⟨-, -, hi, -⟩ := applySnapshot_keeps hs
    obtain ⟨added, hadded, hgrown⟩ := (takeTurns_ends hcounts (c := c₁) (w := w) (Nat.le_refl _)).grown
    exact ⟨added, by rw [hadded, hi], happlied.trans hgrown⟩
  · rw [hs] at happlied
    obtain ⟨-, -, hi, -⟩ := applySnapshot_keeps hs
    exact ⟨[], by simpa using hi, by simpa using happlied⟩

/-- A context that a run gives back is accepted again exactly if all names that came in can be injected. -/
theorem run_validate_iff (r : Agent) {c : Context} (w : World) (valid : c.validate = .ok ()) :
    ∃ added, (r.run c w).context.iterations = c.iterations ++ added ∧
      ((r.run c w).context.validate = .ok () ↔ (∀ name ∈ resumedNames c, c.Admits name) ∧
        ∀ i ∈ added, ∀ name ∈ i.introduces, c.Admits name) := by
  obtain ⟨added, hadded, hgrown⟩ := run_grown r w valid
  refine ⟨added, hadded, ?_⟩
  rw [hgrown.validate_iff valid]
  simp only [List.mem_append, List.mem_flatMap]
  exact ⟨fun h => ⟨fun name hname => h name (.inl hname), fun i hi name hname => h name (.inr ⟨i, hi, hname⟩)⟩,
    fun h name => Or.rec (h.1 name) fun ⟨i, hi, hname⟩ => h.2 i hi name hname⟩

/-- What a context goes on from with a move, if the move can be made. -/
def Move.onto (c : Context) : Move → Option Context
  | .run => some c
  | .resolve s value => (s.resolve value).toOption.map fun s => { c with resume := some s }
  | .reject s error => (s.reject error).toOption.map fun s => { c with resume := some s }

/-- A context that a move gives back is accepted again exactly if all names can be injected that came in
with the snapshot that was taken up and with the iterations that were added. -/
theorem stays_valid_iff (r : Agent) (move : Move) {c : Context} (w : World) (valid : c.validate = .ok ()) :
    ∃ added, (r.play move c w).context.iterations = c.iterations ++ added ∧
      ((r.play move c w).context.validate = .ok () ↔
        (∀ c₁ ∈ move.onto c, ∀ name ∈ resumedNames c₁, c.Admits name) ∧
          ∀ i ∈ added, ∀ name ∈ i.introduces, c.Admits name) := by
  have goneOn (s : Except RunError Snapshot) : ∃ added, (r.goOn c w s).context.iterations = c.iterations ++ added ∧
      ((r.goOn c w s).context.validate = .ok () ↔
        (∀ c₁ ∈ s.toOption.map fun s => { c with resume := some s }, ∀ name ∈ resumedNames c₁, c.Admits name) ∧
          ∀ i ∈ added, ∀ name ∈ i.introduces, c.Admits name) := by
    cases s with
    | error e => exact ⟨[], by simp [goOn], by simp [goOn, valid, Except.toOption]⟩
    | ok s =>
      have hran := r.run_validate_iff (c := { c with resume := some s }) w valid
      simpa [Except.toOption, goOn] using hran
  cases move with
  | run =>
    have hran := r.run_validate_iff w valid
    simpa [Move.onto, play] using hran
  | resolve s value => exact goneOn (s.resolve value)
  | reject s error => exact goneOn (s.reject error)

/-- A context with a tool, going on from a call whose result is assigned to a variable of the tool's name. -/
def shadowingContext : Context where
  id := "ctx"
  tools := [{ name := "x", handler := fun v _ _ => { outcome := some (.value v) } }]
  resume := some sampleSnapshot

/-- A world in which the run is aborted before its first turn. -/
def abortedWorld : World where
  host := { abort := { reason := some "stop" } }

theorem shadowingContext_stays_valid_iff :
    shadowingContext.validate = .ok () ∧
      ∃ added, (sampleAgent.play .run shadowingContext abortedWorld).context.iterations =
          shadowingContext.iterations ++ added ∧
        ((sampleAgent.play .run shadowingContext abortedWorld).context.validate = .ok () ↔
          (∀ c₁ ∈ Move.run.onto shadowingContext, ∀ name ∈ resumedNames c₁, shadowingContext.Admits name) ∧
            ∀ i ∈ added, ∀ name ∈ i.introduces, shadowingContext.Admits name) := by
  have valid : shadowingContext.validate = .ok () := by decide +kernel
  exact ⟨valid, stays_valid_iff sampleAgent .run abortedWorld valid⟩

/-- A context that is accepted may come back as one that is refused. -/
theorem shadowingContext_is_refused_afterwards :
    shadowingContext.validate = .ok () ∧
      (sampleAgent.play .run shadowingContext abortedWorld).context.validate =
        .error (.invalidContext "Variable \"x\" cannot be injected") := by
  decide +kernel

end Agent

end ScriptAgent
