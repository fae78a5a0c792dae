import ScriptAgent.Proofs.Loop.Invariant
import ScriptAgent.Proofs.Loop.ScriptOutcome
import ScriptAgent.Proofs.Loop.Validity
import ScriptAgent.Proofs.Text.Case

/-!
# Taking an exit

The names of exits are told apart in lower case, so an action that is written like a name of an exit finds
that exit and no other.  But actions that are built in are looked for first, also in lower case, while a
context only refuses names that are reserved as they are written: an exit that is named like a built-in
action but for its case is never taken.
-/

namespace ScriptAgent

/-! ### Names of exits -/

namespace Context

/-- Names of exits that are accepted are not reserved, and differ in lower case. -/
theorem checkExits_ok {seen names : List String} (h : checkExits seen names = .ok ()) :
    (∀ name ∈ names, isReserved name = false ∧ Text.lower name ∉ seen) ∧ (names.map Text.lower).Nodup := by
  induction names generalizing seen with
  | nil => exact ⟨nofun, .nil⟩
  | cons name rest ih =>
    rw [checkExits] at h
    split at h
    · cases h
    · next hfree =>
      split at h
      · cases h
      · next hnew =>
        obtain ⟨hrest, hnodup⟩ := ih h
        have hlater : ∀ other ∈ rest, Text.lower other ∉ seen ∧ Text.lower other ≠ Text.lower name := by
          intro other hother
          simpa using (hrest other hother).2
        refine ⟨List.forall_mem_cons.mpr ⟨?_, fun other hother => ?_⟩, List.nodup_cons.mpr ⟨fun hmem => ?_, hnodup⟩⟩
        · exact ⟨by simpa using hfree, by simpa using hnew⟩
        · exact ⟨(hrest other hother).1, (hlater other hother).1⟩
        · obtain ⟨other, hother, hsame⟩ := List.mem_map.mp hmem
          exact (hlater other hother).2 hsame

theorem checkExits_of_validate {c : Context} (valid : c.validate = .ok ()) :
    checkExits [] (c.exits.flatMap Exit.names) = .ok () := by
  rw [validate_eq_ok] at valid
  unfold check at valid
  dsimp only at valid
  split at valid
  · cases valid
  · obtain ⟨globals, -, hrest⟩ := ok_of_bind valid
    obtain ⟨u, hexits, -⟩ := ok_of_bind hrest
    exact hexits

end Context

theorem Exit.matchesAction_of_mem {e : Exit} {name : String} (h : name ∈ e.names) : e.matchesAction name = true :=
  List.any_eq_true.mpr ⟨name, h, beq_self_eq_true _⟩

theorem Exit.exists_lower_of_matchesAction {e : Exit} {action : String} (h : e.matchesAction action = true) :
    ∃ name ∈ e.names, Text.lower name = Text.lower action := by
  obtain ⟨name, hname, hsame⟩ := List.any_eq_true.mp h
  exact ⟨name, hname, Text.lower_eq_of_same hsame⟩

/-- An action that is written like a name of an exit finds that exit. -/
theorem Context.find_exit {c : Context} (valid : c.validate = .ok ()) {e : Exit} (he : e ∈ c.exits) {name : String}
    (hname : name ∈ e.names) : c.exits.find? (·.matchesAction name) = some e := by
  obtain ⟨before, after, hsplit⟩ := List.append_of_mem he
  have hnodup := (checkExits_ok (checkExits_of_validate valid)).2
  rw [hsplit, List.flatMap_append, List.flatMap_cons, List.map_append, List.map_append] at hnodup
  rw [hsplit]
  refine List.find?_eq_some_iff_append.mpr ⟨Exit.matchesAction_of_mem hname, before, after, rfl, fun other hother => ?_⟩
  -- an exit before it that matched, too, would have one of its names in lower case
  by_contra hmatches
  obtain ⟨name', hname', hlower⟩ := Exit.exists_lower_of_matchesAction (by simpa using hmatches)
  have hbefore : Text.lower name' ∈ (before.flatMap Exit.names).map Text.lower :=
    List.mem_map_of_mem (List.mem_flatMap.mpr ⟨other, hother, hname'⟩)
  have hown : Text.lower name' ∈ e.names.map Text.lower ++ (after.flatMap Exit.names).map Text.lower :=
    List.mem_append_left _ (hlower ▸ List.mem_map_of_mem hname)
  exact (List.nodup_append.mp hnodup).2.2 _ hbefore _ hown rfl

/-! ### Actions -/

namespace Returned

/-- The actions that are no exits. -/
def builtInActions : List String := ["think", "listen", "transition", "execute"]

theorem ofAction_exit {action : String} (h : Text.lower action ∉ builtInActions) (fields : Dict Json) :
    ofAction action fields = .exit action ((Dict.get? fields "value").getD .null) := by
  simp only [builtInActions, List.mem_cons, List.not_mem_nil, or_false, not_or] at h
  obtain ⟨hthink, hlisten, htransition, hexecute⟩ := h
  simp [ofAction, hthink, hlisten, htransition, hexecute]

theorem ofAction_builtIn {action : String} (h : Text.lower action ∈ builtInActions) (fields : Dict Json) :
    (∃ s, ofAction action fields = .signal s) ∨ ∃ message, ofAction action fields = .invalid action message := by
  simp only [builtInActions, List.mem_cons, List.not_mem_nil, or_false] at h
  rcases h with h | h | h | h <;> simp only [ofAction, h]
  · exact .inl ⟨_, rfl⟩
  · exact .inl ⟨_, rfl⟩
  · cases textIn fields "target" with
    | some target => exact .inl ⟨_, rfl⟩
    | none => exact .inr ⟨_, rfl⟩
  · cases textIn fields "target" with
    | some target => exact .inl ⟨_, rfl⟩
    | none => exact .inr ⟨_, rfl⟩

theorem ofValue_of_action {fields : Dict Json} {action : String} (h : Dict.get? fields "action" = some (.str action)) :
    ofValue (.obj fields) = ofAction action fields := by
  rw [ofValue, action?, h]

/-- Actions that are built in are reserved, as far as they are written in lower case. -/
theorem isReserved_of_builtIn {action : String} (h : action ∈ builtInActions) : isReserved action = true := by
  simp only [builtInActions, List.mem_cons, List.not_mem_nil, or_false] at h
  rcases h with rfl | rfl | rfl | rfl <;> decide

end Returned

/-! ### Judging an execution -/

/-- An iteration that took an exit. -/
structure Iteration.Exited (i : Iteration) (name : String) (value : Json) : Prop where
  status : i.status = .success
  exit : i.exit = some name
  returnValue : i.returnValue = some value
  signal : i.signal = none
  error : i.error = none

namespace Turn

variable (code : String)

/-- With exits, one is taken only if it is found, and its schema admits the value. -/
theorem takeExit_cases (action : String) (value : Json) {s : TurnState} (configured : s.context.exits ≠ []) :
    (∃ exit parsed, s.context.exits.find? (·.matchesAction action) = some exit ∧ exit.parseValue value = .ok parsed ∧
      (takeExit code action value s).2.iteration =
        { s.iteration with exit := some exit.name, returnValue := some parsed, status := .success }) ∨
    (takeExit code action value s).2.iteration.status = .failed ∧
      ∀ exit parsed, s.context.exits.find? (·.matchesAction action) = some exit → exit.parseValue value ≠ .ok parsed := by
  have hsome : s.context.exits.isEmpty = false := by simpa using configured
  unfold takeExit
  rw [get_bind_apply]
  dsimp only
  rw [hsome, if_neg Bool.false_ne_true]
  cases s.context.exits.find? (·.matchesAction action) with
  | none => exact .inr ⟨rfl, nofun⟩
  | some exit =>
    dsimp only
    cases hparsed : exit.parseValue value with
    | ok parsed => exact .inl ⟨exit, parsed, rfl, hparsed, rfl⟩
    | error e =>
      refine .inr ⟨rfl, fun exit' parsed hsame => ?_⟩
      rw [← Option.some.inj hsame, hparsed]
      nofun

/-- A thought with nothing to report: nothing was assigned, and nothing is carried on. -/
structure Quiet (c : Context) (assigned : Dict Json) (context : Option Json) : Prop where
  unassigned : assigned = []
  empty : Signal.contextSize context = 0
  convention : c.convention.reportsCodeExecuted = false

theorem quiet_of_hasExecuted {c : Context} {assigned : Dict Json} {context : Option Json}
    (h : hasExecuted c assigned context = false) : Quiet c assigned context := by
  simp only [hasExecuted, Bool.or_eq_false_iff, Bool.not_eq_false', List.isEmpty_iff, decide_eq_false_iff_not,
    Nat.not_lt, Nat.le_zero] at h
  exact ⟨h.1.1, h.1.2, h.2⟩

/-- A signal is recorded; a thought ends the attempt only if there is nothing to report. -/
theorem takeSignal_cases (assigned : Dict Json) (signal : Signal) (s : TurnState) :
    ((takeSignal code assigned signal s).2.iteration = { s.iteration with signal := some signal, status := .success } ∧
      ∀ reason context, signal = .think reason context → Quiet s.context assigned context) ∨
    (takeSignal code assigned signal s).2.iteration = { s.iteration with signal := some signal, status := .incomplete } := by
  unfold takeSignal
  split
  · next reason context =>
    dsimp only
    rw [get_bind_apply]
    split
    · exact .inr rfl
    · next hquiet =>
      refine .inl ⟨rfl, ?_⟩
      rintro _ _ ⟨⟩
      exact quiet_of_hasExecuted (Bool.eq_false_iff.mpr hquiet)
  · next hother => exact .inl ⟨rfl, fun reason context h => absurd h (hother reason context)⟩

/-! ### Judging a script -/

variable {compiled : Compiled} {e : Execution}

/-- A script that returns an action which is no exit takes none. -/
theorem not_exited_of_builtIn {fields : Dict Json} {action name : String} {parsed : Json}
    (completed : e.outcome = .completed (.obj fields)) (asked : Dict.get? fields "action" = some (.str action))
    (builtIn : Text.lower action ∈ Returned.builtInActions) (s : TurnState) :
    ¬ (takeExecution compiled e s).2.iteration.Exited name parsed := by
  intro h
  have hsignal := h.signal
  have hstatus := h.status
  rw [takeExecution_completed completed] at hsignal hstatus
  unfold takeValue at hsignal hstatus
  rw [Returned.ofValue_of_action asked] at hsignal hstatus
  rcases Returned.ofAction_builtIn builtIn fields with ⟨raised, hraised⟩ | ⟨message, hinvalid⟩
  · rw [hraised] at hsignal
    rcases takeSignal_cases compiled.source (assignedBy compiled e) raised
      (traceSignal raised (afterExecution e s)).2 with ⟨htaken, -⟩ | htaken
    · exact nomatch (congrArg (·.signal) htaken).symm.trans hsignal
    · exact nomatch (congrArg (·.signal) htaken).symm.trans hsignal
  · rw [hinvalid] at hstatus
    cases hstatus

/-- A script that returns an action which finds an exit, with a value that its schema admits, takes it. -/
theorem exited_of_find {fields : Dict Json} {action : String} {exit : Exit} {parsed : Json}
    (completed : e.outcome = .completed (.obj fields)) (asked : Dict.get? fields "action" = some (.str action))
    (foreign : Text.lower action ∉ Returned.builtInActions) {s : TurnState} (fresh : s.iteration.Open)
    (found : s.context.exits.find? (·.matchesAction action) = some exit)
    (admitted : exit.parseValue ((Dict.get? fields "value").getD .null) = .ok parsed) :
    (takeExecution compiled e s).2.iteration.Exited exit.name parsed := by
  have hconfigured : s.context.exits ≠ [] := by
    intro hnone
    rw [hnone] at found
    cases found
  rw [takeExecution_completed completed]
  unfold takeValue
  rw [Returned.ofValue_of_action asked, Returned.ofAction_exit foreign]
  dsimp only
  rcases takeExit_cases compiled.source action ((Dict.get? fields "value").getD .null) (s := afterExecution e s) hconfigured with
    ⟨exit', parsed', hfound, hparsed, htaken⟩ | ⟨-, hrefused⟩
  · obtain rfl := Option.some.inj (hfound.symm.trans found)
    obtain rfl := Except.ok.inj (hparsed.symm.trans admitted)
    rw [htaken]
    exact ⟨rfl, rfl, rfl, fresh.signal, fresh.error⟩
  · exact absurd admitted (hrefused exit parsed found)

end Turn

namespace Agent

/-! ### Exits of a context -/

/-- What runs do to a context, its exits stay. -/
theorem invariant_exits (exits : List Exit) : Invariant fun c => c.exits = exits where
  advance h r w := by
    obtain ⟨i, -, hleaves⟩ := r.advance_leaves _ w
    exact hleaves.exits.trans h
  onto h _ := h
  applied h := (applySnapshot_grown _).checks.exits.trans h
  aborted h _ := h
  finished h := h

/-- Closing an iteration does not change whether it took an exit. -/
theorem exited_closed (t : TurnState) (name : String) (value : Json) :
    (closed t).iteration.Exited name value ↔ t.iteration.Exited name value :=
  ⟨fun h => ⟨h.status, h.exit, h.returnValue, h.signal, h.error⟩,
    fun h => ⟨h.status, h.exit, h.returnValue, h.signal, h.error⟩⟩

/-- Every exit is reached by each of its names, unless that is in lower case the name of a built-in action: a
script that returns the name with a value that the schema admits takes the exit with the value as it was
parsed, and any other does not.  Names that are written in lower case are no such names. -/
theorem exit_reached_iff (r : Agent) {c c' : Context} (valid : c.validate = .ok ()) (became : Becomes c c')
    {exit : Exit} (configured : exit ∈ c.exits) {name : String} (named : name ∈ exit.names) {value parsed : Json}
    (admitted : exit.parseValue value = .ok parsed) {host : Host} {requests : List GenerateRequest}
    {compiled : Compiled} {e : Execution} (executes : Executes r c' host requests compiled e) {fields : Dict Json}
    (completed : e.outcome = .completed (.obj fields)) (asked : Dict.get? fields "action" = some (.str name))
    (given : Dict.get? fields "value" = some value) :
    ((r.turn c' host requests).1 = none ∧ (r.turn c' host requests).2.iteration.Exited exit.name parsed ↔
      Text.lower name ∉ Returned.builtInActions) ∧
    (Text.lower name = name → Text.lower name ∉ Returned.builtInActions) := by
  obtain ⟨s, fresh, hexits, -, hturn⟩ := executes.turn
  have hfound : s.context.exits.find? (·.matchesAction name) = some exit := by
    rw [hexits, (invariant_exits c.exits).becomes rfl became]
    exact Context.find_exit valid configured named
  rw [hturn, exited_closed]
  refine ⟨⟨fun h builtIn => Turn.not_exited_of_builtIn completed asked builtIn s h.2, fun foreign => ?_⟩,
    fun hlower builtIn => ?_⟩
  · exact ⟨rfl, Turn.exited_of_find completed asked foreign fresh hfound (by rw [given]; exact admitted)⟩
  · have hreserved := ((Context.checkExits_ok (Context.checkExits_of_validate valid)).1 name
      (List.mem_flatMap.mpr ⟨exit, configured, named⟩)).1
    rw [hlower] at builtIn
    rw [Returned.isReserved_of_builtIn builtIn] at hreserved
    cases hreserved

/-- A script that returns an action with the value 7. -/
def sevenScript (action : String) : String :=
  "#\x7baction: \"" ++ action ++ "\", value: 7\x7d"

/-- What the script returns. -/
def sevenValue (action : String) : Json :=
  .obj [("action", .str action), ("value", .int 7)]

/-- A context with one exit. -/
def exitContext (name : String) : Context where
  id := "ctx"
  exits := [{ name }]

theorem exists_completes_done :
    ∃ r, Completes r (sevenScript "done") (exitContext "done") (sevenValue "done") :=
  exists_completes (by decide +kernel) (by decide +kernel) (by decide +kernel)

theorem exists_completes_think :
    ∃ r, Completes r (sevenScript "Think") (exitContext "Think") (sevenValue "Think") :=
  exists_completes (by decide +kernel) (by decide +kernel) (by decide +kernel)

/-- An exit in lower case is taken. -/
theorem done_is_reached : ∃ r, (exitContext "done").validate = .ok () ∧
    Completes r (sevenScript "done") (exitContext "done") (sevenValue "done") ∧
    (r.turn (exitContext "done") {} []).1 = none ∧
    (r.turn (exitContext "done") {} []).2.iteration.Exited "done" (.int 7) := by
  obtain ⟨r, completes⟩ := exists_completes_done
  have valid : (exitContext "done").validate = .ok () := by decide
  have admitted : Exit.parseValue { name := "done" } (.int 7) = .ok (.int 7) := rfl
  have hreached := exit_reached_iff r valid .start (List.mem_singleton_self _) (List.mem_singleton_self "done")
    admitted completes.executes completes.completed rfl rfl
  have htaken := hreached.1.mpr (by decide +kernel)
  exact ⟨r, valid, completes, htaken.1, htaken.2⟩

/-- Not every exit that is accepted can be taken: one named like a built-in action, with a capital, is not
reached by its own name. -/
theorem capital_think_is_unreached :
    ¬ ∀ (r : Agent) (c : Context) (exit : Exit) (name : String) (value parsed : Json) (host : Host)
        (requests : List GenerateRequest) (compiled : Compiled) (e : Execution),
      c.validate = .ok () → exit ∈ c.exits → name ∈ exit.names → exit.parseValue value = .ok parsed →
      Executes r c host requests compiled e →
      e.outcome = .completed (.obj [("action", .str name), ("value", value)]) →
      (r.turn c host requests).2.iteration.Exited exit.name parsed := by
  intro reached
  obtain ⟨r, executes, completed⟩ := exists_completes_think
  have hexited := reached r (exitContext "Think") { name := "Think" } "Think" (.int 7) (.int 7) {} [] _ _ (by decide)
    (List.mem_singleton_self _) (List.mem_singleton_self _) rfl executes completed
  obtain ⟨s, -, -, -, hturn⟩ := executes.turn
  rw [hturn, exited_closed] at hexited
  exact Turn.not_exited_of_builtIn completed rfl (by decide +kernel) s hexited

end Agent

end ScriptAgent
