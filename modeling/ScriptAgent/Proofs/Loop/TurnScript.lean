import ScriptAgent.Proofs.Loop.Drive
import ScriptAgent.Proofs.Sandbox.RunConduct
import ScriptAgent.Proofs.Sandbox.Signals
import ScriptAgent.Sandbox.Execution

/-!
# The script of a turn

A turn runs its script on the variables, tools and objects of its context, and puts over the variables
first those that the script left and then those of a thought that is taken up again.  Before the script
it leaves one trace of a signal at most: of the one that the run goes on from.
-/

namespace ScriptAgent

/-- What is put over the variables because the model thinks again. -/
def Iteration.carried (i : Iteration) : Dict Json :=
  match i.status, i.signal with
  | .incomplete, some (.think _ context) => (context.bind Json.fields?).getD []
  | _, _ => []

theorem Iteration.carried_of_status {i : Iteration} (h : i.status ≠ .incomplete) : i.carried = [] := by
  unfold carried
  split
  · next hs _ => exact absurd hs h
  · rfl

/-- A script that a context is made for. -/
def Agent.job (r : Agent) (c : Context) (compiled : Compiled) : Job where
  backend := r.settings.backend
  compiled
  «variables» := c.variables
  tools := c.tools
  objects := c.objects
  limits := r.settings.limits

/-- Traces only grow while a script runs. -/
theorem Job.execute_traces (j : Job) (host : Host) :
    ∃ more, (j.execute host).2.traces = host.traces ++ more := by
  obtain ⟨functions, ds, o, hds, ho, -⟩ := j.run_conduct host
  obtain ⟨more, hmore⟩ : ∃ more, o.host.traces = host.traces ++ more := by
    refine hds.invariant (P := fun o => ∃ more, o.host.traces = host.traces ++ more) ?_ ⟨[], by simp [machine, Machine.outside]⟩
    rintro d o o' - made ⟨more, ih⟩
    obtain ⟨quiet, now, line, -, ht⟩ := Deed.traces_of_makes made
    exact ⟨more ++ (quiet ++ raisedTrace now line (d.signal? (j.env host functions) o)), by rw [ht, ih]; simp⟩
  have htraces : (j.run host).machine.host.traces = o.host.traces :=
    congrArg (fun o : Outside => o.host.traces) ho
  unfold execute
  dsimp only
  rw [htraces, hmore, List.append_assoc]
  exact ⟨_, rfl⟩

namespace Turn

/-! ### Judging an iteration -/

/-- Traces were added. -/
def Traced (s s' : TurnState) : Prop :=
  ∃ more, s'.host.traces = s.host.traces ++ more

theorem Traced.refl (s : TurnState) : Traced s s := ⟨[], by simp⟩

theorem Traced.trans {s s₁ s₂ : TurnState} (h : Traced s s₁) (h' : Traced s₁ s₂) : Traced s s₂ := by
  obtain ⟨more, hm⟩ := h
  obtain ⟨more', hm'⟩ := h'
  exact ⟨more ++ more', by rw [hm', hm, List.append_assoc]⟩

/-- How an iteration is judged: its script and what that left stay, and only what a thought carries on is
put over the variables. -/
structure Settled (s s' : TurnState) : Prop where
  tools : s'.context.tools = s.context.tools
  exits : s'.context.exits = s.context.exits
  correlation : s'.context.correlation = s.context.correlation
  carried : s'.context.variables = s.context.variables.overlay s'.iteration.carried
  code : s'.iteration.code = s.iteration.code
  «variables» : s'.iteration.variables = s.iteration.variables
  mutations : s'.iteration.mutations = s.iteration.mutations
  traces : Traced s s'

theorem Ruling.settled {code : String} {assigned : Dict Json} {s s' : TurnState} {cut : Option String}
    (h : Ruling code assigned s cut s') : Settled s s' := by
  cases h <;> exact ⟨rfl, rfl, rfl, rfl, rfl, rfl, rfl, .refl s⟩

theorem settled_failWith (e : IterationError) (s : TurnState) : Settled s (failWith e s).2 :=
  ⟨rfl, rfl, rfl, rfl, rfl, rfl, rfl, .refl s⟩

/-- Traces may have been left before. -/
theorem Settled.of_host {s s' : TurnState} {host : Host} (h : Settled { s with host } s')
    (traces : Traced s { s with host }) : Settled s s' :=
  ⟨h.tools, h.exits, h.correlation, h.carried, h.code, h.variables, h.mutations, traces.trans h.traces⟩

/-! ### Running the script -/

/-- An iteration that no script has left anything in. -/
def Bare (i : Iteration) : Prop :=
  i.variables = [] ∧ i.mutations = []

/-- The script that an iteration ran on a context: none, one that was refused, or one whose variables and
mutations the iteration records. -/
inductive Ran (r : Agent) (c : Context) (i : Iteration) : Prop
  | none (wrote : i.code = Option.none) (bare : Bare i)
  | refused {code : String} {e : CompileError} (wrote : i.code = some code) (refused : compile code = .error e)
      (bare : Bare i)
  | executed {code : String} {compiled : Compiled} (host : Host) (wrote : i.code = some code)
      (compiles : compile code = .ok compiled)
      («variables» : i.variables = ((r.job c compiled).execute host).1.variables)
      (mutations : i.mutations = ((r.job c compiled).execute host).1.mutations)

/-- An iteration that wrote code that compiles ran what it compiles to. -/
theorem Ran.of_compile {r : Agent} {c : Context} {i : Iteration} (h : Ran r c i) {code : String}
    {compiled : Compiled} (wrote : i.code = some code) (compiles : compile code = .ok compiled) :
    ∃ host, i.variables = ((r.job c compiled).execute host).1.variables ∧
      i.mutations = ((r.job c compiled).execute host).1.mutations := by
  cases h with
  | none wrote' => rw [wrote'] at wrote; cases wrote
  | refused wrote' refused =>
    obtain rfl := Option.some.inj (wrote'.symm.trans wrote)
    rw [refused] at compiles
    cases compiles
  | executed host wrote' compiles' hvariables hmutations =>
    obtain rfl := Option.some.inj (wrote'.symm.trans wrote)
    obtain rfl := Except.ok.inj (compiles'.symm.trans compiles)
    exact ⟨host, hvariables, hmutations⟩

/-- What became of a context with the script of an iteration, run or not. -/
structure Played (r : Agent) (c c' : Context) (i : Iteration) : Prop where
  tools : c'.tools = c.tools
  exits : c'.exits = c.exits
  correlation : c'.correlation = c.correlation
  «variables» : c'.variables = (c.variables.overlay i.variables).overlay i.carried
  ran : Ran r c i

theorem settled_takeExecution (compiled : Compiled) (e : Execution) (s : TurnState) :
    Settled { s with
      context := (s.context.reconcile e.mutations).carry e.variables
      iteration := { s.iteration with mutations := e.mutations, «variables» := e.variables } }
      (takeExecution compiled e s).2 :=
  (ruling_takeExecution compiled e s).settled.of_host ⟨_, rfl⟩

theorem runCode_of_ok {r : Agent} {code : String} {compiled : Compiled} {s : TurnState} {e : Execution} {host : Host}
    (hc : compile code = .ok compiled) (he : (r.job s.context compiled).execute s.host = (e, host)) :
    runCode r code s = takeExecution compiled e { s with host } := by
  have hexecute : execute r compiled s = (e, { s with host }) := by
    have h : execute r compiled s = (((r.job s.context compiled).execute s.host).1,
      { s with host := ((r.job s.context compiled).execute s.host).2 }) := rfl
    rw [h, he]
  unfold runCode
  rw [hc]
  show takeExecution compiled (execute r compiled s).1 (execute r compiled s).2 = _
  rw [hexecute]

theorem played_runCode (r : Agent) (code : String) {s : TurnState} (hcode : s.iteration.code = some code)
    (hbare : Bare s.iteration) :
    Played r s.context (runCode r code s).2.context (runCode r code s).2.iteration ∧
      Traced s (runCode r code s).2 := by
  cases hc : compile code with
  | error e =>
    have hs : Settled s (runCode r code s).2 :=
      (ruling_runCode_of_error (r := r) hc s).settled.of_host ⟨[_], rfl⟩
    refine ⟨⟨hs.tools, hs.exits, hs.correlation, ?_, .refused (hs.code.trans hcode) hc ?_⟩, hs.traces⟩
    · rw [hs.variables.trans hbare.1]
      exact hs.carried
    · exact ⟨hs.variables.trans hbare.1, hs.mutations.trans hbare.2⟩
  | ok compiled =>
    obtain ⟨more, hmore⟩ := (r.job s.context compiled).execute_traces s.host
    rcases he : (r.job s.context compiled).execute s.host with ⟨e, host⟩
    rw [he] at hmore
    rw [runCode_of_ok hc he]
    have hs := settled_takeExecution compiled e { s with host }
    generalize takeExecution compiled e { s with host } = t at hs
    have htraces : Traced s { s with host } := ⟨more, hmore⟩
    refine ⟨⟨hs.tools, hs.exits, hs.correlation, ?_, .executed s.host (hs.code.trans hcode) hc ?_ ?_⟩,
      htraces.trans hs.traces⟩
    · rw [hs.variables]
      exact hs.carried
    · rw [hs.variables, he]
    · rw [hs.mutations, he]

/-! ### The whole turn -/

/-- What a turn leaves of its context, and how its iteration goes with it. -/
structure Leaves (r : Agent) (c : Context) (now : Millis) (c' : Context) (i : Iteration) : Prop where
  tools : c'.tools = c.tools
  exits : c'.exits = c.exits
  correlation : c'.correlation = none
  «variables» : c'.variables = (c.variables.overlay i.variables).overlay i.carried
  ran : Ran r c i
  /-- The signal that the run goes on from is recorded first, and no other before the script. -/
  traces : ∃ rest, i.traces = (c.correlation.map (Trace.signal now none)).toList ++ rest ∧
    ∀ t ∈ rest.head?, t.signal? = none

theorem Asks.bare {r : Agent} {s s' : TurnState} {code : Option String} (h : Asks r s code s') (hs : Bare s.iteration) :
    Bare s'.iteration := by
  obtain ⟨messages, call, hiteration⟩ := h.iteration
  rw [hiteration]
  exact hs

theorem Asks.code {r : Agent} {s s' : TurnState} {code : Option String} (h : Asks r s code s') :
    s'.iteration.code = code := by
  obtain ⟨messages, call, hiteration⟩ := h.iteration
  rw [hiteration]

/-- An iteration that failed before its script played none. -/
theorem Asks.played {r : Agent} {s s' : TurnState} (h : Asks r s none s') (hs : Bare s.iteration) (e : IterationError) :
    Played r s.context (failWith e s').2.context (failWith e s').2.iteration := by
  have hsettled := settled_failWith e s'
  have hbare := h.bare hs
  have hvariables : (failWith e s').2.iteration.variables = [] := hbare.1
  refine ⟨?_, ?_, ?_, ?_, .none (hsettled.code.trans h.code) hbare⟩
  · rw [hsettled.tools, h.context]
  · rw [hsettled.exits, h.context]
  · rw [hsettled.correlation, h.context]
  · rw [hsettled.carried, h.context, hvariables]
    rfl

theorem whole_leaves (r : Agent) {s : TurnState} (hcode : s.iteration.code = none) (hbare : Bare s.iteration) :
    Played r { s.context with correlation := none } (whole r s).2.context (whole r s).2.iteration ∧
      ∃ rest, (whole r s).2.host.traces = s.host.traces ++
          (s.context.correlation.map (Trace.signal s.host.millis none)).toList ++ rest ∧
        ∀ t ∈ rest.head?, t.signal? = none := by
  rcases whole_cases r hcode with ⟨e, s', hwhole, hasks⟩ | ⟨code, s', hwhole, hasks⟩ <;> rw [hwhole]
  · refine ⟨hasks.played hbare _, ?_⟩
    rcases hasks.traces with ⟨hsame, -⟩ | ⟨t, more, hmore, ht⟩
    · exact ⟨[], hsame.trans (List.append_nil _).symm, by simp⟩
    · exact ⟨t :: more, hmore, by simpa using ht⟩
  · obtain ⟨hplayed, more', hmore'⟩ := played_runCode r code hasks.code (hasks.bare hbare)
    rw [hasks.context] at hplayed
    refine ⟨hplayed, ?_⟩
    rcases hasks.traces with ⟨-, hnone⟩ | ⟨t, more, hmore, ht⟩
    · cases hnone
    · exact ⟨t :: more ++ more', by rw [hmore', hmore, List.append_assoc]; rfl, by simpa using ht⟩

end Turn

namespace Agent

/-- A turn taken by the loop leaves an iteration that goes with its context. -/
theorem advance_leaves (r : Agent) (c : Context) (w : World) :
    ∃ i, (r.advance c w).2.1.iterations = c.iterations ++ [i] ∧
      Turn.Leaves r c w.host.millis (r.advance c w).2.1 i := by
  obtain ⟨hplayed, rest, hrest, hquiet⟩ := Turn.whole_leaves r (s := turnStart c w.host w.requests) rfl ⟨rfl, rfl⟩
  have hdid := turn_did r c w.host w.requests
  obtain ⟨t, ht⟩ : ∃ t, Turn.whole r (turnStart c w.host w.requests) = t := ⟨_, rfl⟩
  rw [ht] at hplayed hrest
  have hturn := turn_of_whole ht
  rw [hturn] at hdid
  rw [advance_of_turn hturn]
  refine ⟨_, congrArg (· ++ [_]) hdid.iterations, hplayed.tools, hplayed.exits, hplayed.correlation, hplayed.variables,
    ?_, rest, hrest, hquiet⟩
  cases hplayed.ran with
  | none wrote bare => exact .none wrote bare
  | refused wrote refused bare => exact .refused wrote refused bare
  | executed host wrote compiles hvariables hmutations => exact .executed host wrote compiles hvariables hmutations

end Agent

end ScriptAgent
