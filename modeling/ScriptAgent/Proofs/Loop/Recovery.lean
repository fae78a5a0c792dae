import Mathlib.Algebra.Order.BigOperators.Group.List
import Mathlib.Algebra.Order.Group.Nat
import Mathlib.Data.List.Nodup
import Mathlib.Data.List.Perm.Subperm
import ScriptAgent.Proofs.Loop.Classification
import ScriptAgent.Proofs.Loop.Continuation
import ScriptAgent.Proofs.Sandbox.Overload

/-!
# Going on over the budget

The variables that a script leaves are put over those of the context also if it was stopped, so that the next
script may start with more in scope than the budget allows.  If it reads a variable at all, it is stopped too,
and what was too much is still there; a script that declares the variables anew, and reads none, mends that.
-/

namespace ScriptAgent

open Script (Stmt Program)

/-- How many bytes the variables of a context, its objects and the console are taken to hold when a script
starts. -/
def Context.startSize (c : Context) (b : Backend) : Nat :=
  (c.variables.map fun e => e.2.startSize b).sum + 16 * (c.objects.length + 1)

/-- How many bytes may be in scope while a script of an agent runs. -/
def Agent.budget (r : Agent) : Nat :=
  (r.settings.backend.sizeLimits r.settings.limits.memory).budget

theorem Agent.scopeSize_job (r : Agent) (c : Context) (compiled : Compiled) (host : Host) :
    ((r.job c compiled).machine host).scopeSize = c.startSize r.settings.backend :=
  (r.job c compiled).scopeSize_machine host

/-! ### What becomes of an execution -/

namespace Turn

variable {compiled : Compiled} {e : Execution}

theorem takeExecution_memoryLimit (compiled : Compiled) {bytes : Nat} {line : Option Nat}
    (h : e.outcome = .failed (.memoryLimit bytes line)) (s : TurnState) :
    (takeExecution compiled e s).2.iteration.error = some (.memoryLimit bytes) ∧
      (takeExecution compiled e s).2.context.variables = s.context.variables.overlay e.variables := by
  rw [takeExecution_failed h]
  exact ⟨rfl, rfl⟩

theorem takeExecution_timeout {millis : Nat} (h : e.outcome = .failed (.timeout millis)) (s : TurnState) :
    (takeExecution compiled e s).2.iteration.error = some (.timeout millis) := by
  rw [takeExecution_failed h]
  rfl

/-- A script that gives nothing is taken to have been thinking. -/
theorem takeExecution_null (compiled : Compiled) (h : e.outcome = .completed .null) (s : TurnState) :
    (takeExecution compiled e s).2.iteration.error = s.iteration.error ∧
      (takeExecution compiled e s).2.context.variables = s.context.variables.overlay e.variables := by
  have taken (code : String) (assigned : Dict Json) (s : TurnState) :
      (takeSignal code assigned unaskedThought s).2.iteration.error = s.iteration.error ∧
        (takeSignal code assigned unaskedThought s).2.context.variables = s.context.variables := by
    unfold takeSignal unaskedThought
    dsimp only
    rw [get_bind_apply]
    split <;> exact ⟨rfl, rfl⟩
  rw [takeExecution_completed h]
  exact taken _ _ _

end Turn

namespace Agent

/-- An iteration that wrote code that compiles took the execution of what that compiles to. -/
theorem advance_executes {r : Agent} {c : Context} {w : World} {i : Iteration} {code : String} {compiled : Compiled}
    (turned : (r.advance c w).2.1.iterations = c.iterations ++ [i]) (wrote : i.code = some code)
    (compiles : compile code = .ok compiled) :
    ∃ (s : TurnState) (host : Host), s.context.variables = c.variables ∧ s.iteration.error = none ∧
      i.error = (Turn.takeExecution compiled ((r.job c compiled).execute host).1 s).2.iteration.error ∧
      (r.advance c w).2.1.variables =
        (Turn.takeExecution compiled ((r.job c compiled).execute host).1 s).2.context.variables := by
  have hdid := turn_did r c w.host w.requests
  -- The iteration is the one that the turn leaves.
  have hlast {t : Option RunError × TurnState} (ht : Turn.whole r (turnStart c w.host w.requests) = t) :
      i = { t.2.iteration with traces := t.2.host.traces, endedAt := t.2.host.millis } ∧
        (r.advance c w).2.1.variables = t.2.context.variables := by
    have hturn := turn_of_whole ht
    rw [hturn] at hdid
    have hadvance := advance_of_turn hturn
    have hiterations : t.2.context.iterations = c.iterations := hdid.iterations
    rw [hadvance] at turned ⊢
    refine ⟨?_, rfl⟩
    have hrecord := (congrArg (· ++ [_]) hiterations).symm.trans turned
    exact (List.singleton_inj.mp (List.append_cancel_left hrecord)).symm
  rcases Turn.whole_cases r (s := turnStart c w.host w.requests) rfl with
    ⟨e, s, hwhole, hasks⟩ | ⟨code', s, hwhole, hasks⟩
  · obtain ⟨hi, -⟩ := hlast hwhole
    have hcode : i.code = none := hi ▸ hasks.code
    rw [hcode] at wrote
    cases wrote
  · obtain ⟨hi, hvariables⟩ := hlast hwhole
    obtain ⟨messages, call, hiteration⟩ := hasks.iteration
    have hopen : s.iteration.Open := by
      rw [hiteration]
      exact ⟨rfl, rfl, rfl, rfl⟩
    have hcode : i.code = some code' := by
      rw [hi]
      exact (Turn.rules_runCode r code' s hopen).1.trans hasks.code
    obtain rfl : code' = code := Option.some.inj (hcode.symm.trans wrote)
    have hjob : r.job s.context compiled = r.job c compiled := by
      rw [hasks.context]
      rfl
    rcases he : (r.job s.context compiled).execute s.host with ⟨e, host⟩
    have hrun := Turn.runCode_of_ok compiles he
    have hexecution : ((r.job c compiled).execute s.host).1 = e := by rw [← hjob, he]
    refine ⟨{ s with host }, s.host, ?_, hopen.error, ?_, ?_⟩
    · show s.context.variables = _
      rw [hasks.context]
      rfl
    · rw [hexecution, ← hrun, hi]
    · rw [hexecution, ← hrun, hvariables]

/-! ### Starting over the budget -/

variable {r : Agent} {c : Context} {w : World} {i : Iteration} {code : String} {compiled : Compiled} {p : Program}
  {opening : List Stmt} {slots : List Slot}

/-- The variables after a script that only declared slots before it ended. -/
def redeclared (r : Agent) (c : Context) (slots : List Slot) : Dict Json :=
  c.variables.overlay ((r.job c (.plain "")).leftBy {} slots)

/-- What slots are left as. -/
def declared (r : Agent) (c : Context) (slots : List Slot) : Dict Json :=
  ((r.job c (.plain "")).machine {}).declared r.settings.backend (r.job c (.plain "")).hidden slots

theorem ordered_redeclared (r : Agent) (ordered : Dict.Ordered c.variables) (slots : List Slot) :
    Dict.Ordered (r.redeclared c slots) :=
  ordered.overlay _

/-- Where every variable was declared anew, each has a value that was declared. -/
theorem redeclared_subset (ordered : Dict.Ordered c.variables)
    (anew : ∀ name ∈ c.variables.keys, name ∈ (r.declared c slots).keys) :
    r.redeclared c slots ⊆ r.declared c slots := by
  intro entry hentry
  obtain ⟨name, value⟩ := entry
  have hget := (r.ordered_redeclared ordered slots).get?_of_mem hentry
  have hname : name ∈ (r.declared c slots).keys := by
    rcases Dict.mem_keys_overlay.mp (Dict.mem_keys_of_mem hentry) with hname | hname
    · exact anew name hname
    · rcases Dict.mem_keys_overlay.mp hname with hname | hname
      · exact anew name (Job.mem_keys_variables_machine hname)
      · exact hname
  obtain ⟨value', hmem, hvalue'⟩ := Dict.exists_get?_overlay hname
    (((r.job c (.plain "")).machine {}).variables r.settings.backend (r.job c (.plain "")).hidden)
  have hleft : ((r.job c (.plain "")).leftBy {} slots).get? name = some value' := hvalue'
  have hsame : some value' = some value := by
    rw [← hget, redeclared, Dict.get?_overlay (Job.ordered_leftBy _ _ _), hleft, Option.some_or]
  rw [Option.some.inj hsame] at hmem
  exact hmem

/-- Where every variable was declared anew, the next script starts with what was declared at most. -/
theorem sum_redeclared_le (ordered : Dict.Ordered c.variables)
    (anew : ∀ name ∈ c.variables.keys, name ∈ (r.declared c slots).keys) (size : Json → Nat) :
    ((r.redeclared c slots).map fun e => size e.2).sum ≤ ((r.declared c slots).map fun e => size e.2).sum := by
  have hnodup : (r.redeclared c slots).Nodup := List.Nodup.of_map _ (r.ordered_redeclared ordered slots).nodup
  obtain ⟨entries, hperm, hsublist⟩ := hnodup.subperm (redeclared_subset ordered anew)
  calc ((r.redeclared c slots).map fun e => size e.2).sum
    _ = (entries.map fun e => size e.2).sum := ((hperm.map _).sum_eq).symm
    _ ≤ ((r.declared c slots).map fun e => size e.2).sum :=
      (hsublist.map _).sum_le_sum fun _ _ => Nat.zero_le _

/-- A turn whose script only declares does not fail, whatever is in scope when it starts, unless the time is up. -/
theorem declaring_turn (turned : (r.advance c w).2.1.iterations = c.iterations ++ [i]) (wrote : i.code = some code)
    (compiles : compile code = .ok compiled) (parsed : (r.job c compiled).parse compiled.code = .ok p)
    (unshadowed : p.Unshadowed) (declares : Script.Stmts.Declare p.body slots) :
    i.error = some (.timeout r.settings.limits.timeout) ∨
      i.error = none ∧ (r.advance c w).2.1.variables = r.redeclared c slots := by
  obtain ⟨s, host, hvariables, herror, hi, hadvance⟩ := advance_executes turned wrote compiles
  rcases Job.execute_declares host parsed unshadowed declares with htime | ⟨hnull, hleft⟩
  · exact .inl (hi.trans (Turn.takeExecution_timeout htime s))
  · obtain ⟨herror', hvariables'⟩ := Turn.takeExecution_null compiled hnull s
    refine .inr ⟨hi.trans (herror'.trans herror), ?_⟩
    rw [hadvance, hvariables', hvariables, hleft]
    rfl

/-- A turn that starts over the budget fails where its script first reads a variable, unless the time is up. -/
theorem reading_turn (turned : (r.advance c w).2.1.iterations = c.iterations ++ [i]) (wrote : i.code = some code)
    (compiles : compile code = .ok compiled) (parsed : (r.job c compiled).parse compiled.code = .ok p)
    (unshadowed : p.Unshadowed) (declares : Script.Stmts.Declare opening slots) {s : Stmt} {rest : List Stmt}
    (body : p.body = opening ++ s :: rest) {n : Nat} (readsFirst : s.ReadsFirst n) (shallow : n < nestingFuel)
    (exceeds : r.budget < c.startSize r.settings.backend) :
    i.error = some (.timeout r.settings.limits.timeout) ∨
      i.error = some (.memoryLimit r.settings.limits.memory) ∧
        (r.advance c w).2.1.variables = r.redeclared c slots := by
  obtain ⟨start, host, hvariables, -, hi, hadvance⟩ := advance_executes turned wrote compiles
  have hover : r.budget < ((r.job c compiled).machine host).scopeSize := by
    rw [r.scopeSize_job]
    exact exceeds
  rcases Job.execute_overflows host parsed unshadowed declares body readsFirst shallow hover with
    htime | ⟨⟨line, hmemory⟩, hleft⟩
  · exact .inl (hi.trans (Turn.takeExecution_timeout htime start))
  · obtain ⟨herror, hvariables'⟩ := Turn.takeExecution_memoryLimit compiled hmemory start
    refine .inr ⟨hi.trans herror, ?_⟩
    rw [hadvance, hvariables', hvariables, hleft]
    rfl

/-- Where every variable was declared anew, the next script starts within the budget if what was declared is
within it. -/
theorem startSize_of_redeclared (ordered : Dict.Ordered c.variables)
    (anew : ∀ name ∈ c.variables.keys, name ∈ (r.declared c slots).keys)
    (within : ((r.declared c slots).map fun e => e.2.startSize r.settings.backend).sum + 16 * (c.objects.length + 1) ≤
      r.budget) {c' : Context} (hvariables : c'.variables = r.redeclared c slots)
    (hobjects : c'.objects.length = c.objects.length) : c'.startSize r.settings.backend ≤ r.budget := by
  have hsum := sum_redeclared_le ordered anew fun v => v.startSize r.settings.backend
  unfold Context.startSize
  rw [hvariables, hobjects]
  omega

theorem objects_advance (r : Agent) (c : Context) (w : World) :
    (r.advance c w).2.1.objects.length = c.objects.length := by
  obtain ⟨i, hadvanced⟩ := r.advance_advanced c w
  rcases hadvanced.objects with hsame | ⟨j, host, -, hreconciled⟩
  · rw [hsame]
  · rw [hreconciled, List.length_map]

/-- An agent with a small budget, and with room for so many tokens. -/
def frugal (script : String) (room : Nat) : Agent :=
  scripted { limits := { memory := 64 } } script [] room

theorem budget_frugal (script : String) (room : Nat) : (frugal script room).budget = 64 := rfl

theorem parse_frugal (script : String) (room : Nat) (c : Context) (compiled : Compiled) (text : String) :
    ((frugal script room).job c compiled).parse text =
      Script.parse text (Backend.inline.parseLimits (Backend.inline.sizeLimits 64)) := rfl

/-- A context with more variables than the budget allows. -/
def bulkyContext : Context where
  id := "ctx"
  «variables» := [("a", .str "xxxxxxxxxxxxxxxxxxxx"), ("b", .str "xxxxxxxxxxxxxxxxxxxx")]

/-- A script that declares them anew. -/
def mendingScript : String := "let a = 1;\nlet b = 2;"

/-- What the script is compiled to. -/
def mendingCode : Compiled := (compile mendingScript).toOption.getD (.plain mendingScript)

/-- What the script declares. -/
def mendingSlots : List Slot := [⟨"a", false, .int 1⟩, ⟨"b", false, .int 2⟩]

/-- Whether a text was parsed as what the script is compiled to. -/
def isMendingTree : Except Script.ParseError Program → Bool
  | .ok ⟨[], [.expr (.call "__track_line" [.lit (.int 1) _] _), .declare "a" false (some (.lit (.int 1) _)) _,
      .expr (.call "__track_line" [.lit (.int 2) _] _), .declare "b" false (some (.lit (.int 2) _)) _]⟩ => true
  | _ => false

theorem declares_of_isMendingTree {parsed : Except Script.ParseError Program} (h : isMendingTree parsed = true) :
    ∃ p, parsed = .ok p ∧ p.Unshadowed ∧ Script.Stmts.Declare p.body mendingSlots := by
  unfold isMendingTree at h
  split at h
  · refine ⟨_, rfl, by simp [Program.Unshadowed], ?_⟩
    exact .cons (.hook (.line 1 _ _)) (.cons (.constant (.literal (.int 1) _) "a" false _)
      (.cons (.hook (.line 2 _ _)) (.cons (.constant (.literal (.int 2) _) "b" false _) .nil)))
  · cases h

theorem declared_mending (script : String) (room : Nat) :
    (frugal script room).declared bulkyContext mendingSlots = [("a", .int 1), ("b", .int 2)] := by
  rfl

/-- The state after a script, where there is room for all messages. -/
def stateAfter (script : String) (c : Context) : TurnState :=
  (Turn.runCode (frugal script 0) (Fence.parseResponse script).code
    (scriptedStart { limits := { memory := 64 } } script [] c)).2

theorem advance_of_whole {t : TurnState} (h : Turn.whole r (turnStart c {} []) = (none, t)) :
    (r.advance c {}).1 = (endingOf none (iterationAfter t) { t.host with traces := [] }).1 ∧
      (r.advance c {}).2.1 = contextAfter t := by
  rw [advance_of_turn (w := {}) (turn_of_whole h)]
  exact ⟨rfl, rfl⟩

/-- With enough room, a turn leaves the state after the script of the model. -/
theorem exists_room_whole (script : String) (c : Context) (written : (Fence.parseResponse script).hasCode = true) :
    ∃ room, Turn.whole (frugal script room) (turnStart c {} []) = (none, stateAfter script c) :=
  ⟨_, scripted_whole (le_windowBudget (Truncate.initial (promptMessages c))) written⟩

/-- The turn with the script that declares the variables anew. -/
theorem mendingState_mends : (stateAfter mendingScript bulkyContext).context.iterations = [] ∧
    (stateAfter mendingScript bulkyContext).iteration.code = some mendingScript ∧
    (stateAfter mendingScript bulkyContext).iteration.error = none := by
  decide +kernel

theorem turned_of_whole {t : TurnState} {script : String} (h : Turn.whole r (turnStart c {} []) = (none, t))
    (fresh : t.context.iterations = c.iterations) (wrote : t.iteration.code = some script)
    (fine : t.iteration.error = none) :
    ∃ i, (r.advance c {}).2.1.iterations = c.iterations ++ [i] ∧ i.code = some script ∧ i.error = none := by
  refine ⟨iterationAfter t, ?_, wrote, fine⟩
  rw [(advance_of_whole h).2]
  exact congrArg (· ++ [iterationAfter t]) fresh

theorem mending_turn : ∃ room i,
    ((frugal mendingScript room).advance bulkyContext {}).2.1.iterations = bulkyContext.iterations ++ [i] ∧
      i.code = some mendingScript ∧ i.error = none := by
  obtain ⟨room, hwhole⟩ := exists_room_whole mendingScript bulkyContext (by decide +kernel)
  obtain ⟨fresh, wrote, fine⟩ := mendingState_mends
  exact ⟨room, turned_of_whole hwhole fresh wrote fine⟩

/-- A script that reads a variable when there is too much in scope. -/
def bulkyScript : String := "let a = \"xxxxxxxxxxxxxxxxxxxx\";\nlet b = \"xxxxxxxxxxxxxxxxxxxx\";\na == b;"

theorem iterations_contextAfter {t : TurnState} (fresh : t.context.iterations = []) :
    (contextAfter t).iterations = [iterationAfter t] :=
  congrArg (· ++ [iterationAfter t]) fresh

/-- The turn with that script, started with no variables. -/
theorem bulkyState_fails : (endingOf none (iterationAfter (stateAfter bulkyScript { id := "ctx" }))
      { (stateAfter bulkyScript { id := "ctx" }).host with traces := [] }).1.isNone = true ∧
    (stateAfter bulkyScript { id := "ctx" }).context.iterations = [] ∧
    (iterationAfter (stateAfter bulkyScript { id := "ctx" })).error = some (.memoryLimit 64) ∧
    64 < (contextAfter (stateAfter bulkyScript { id := "ctx" })).startSize .inline := by
  decide +kernel

end Agent

end ScriptAgent
