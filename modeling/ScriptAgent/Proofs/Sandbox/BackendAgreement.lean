import ScriptAgent.Proofs.Instrument.Meaning
import ScriptAgent.Proofs.Sandbox.Globals
import ScriptAgent.Proofs.Sandbox.RunConduct

/-!
# What the two backends agree on

The isolated backend passes values as text, and a text that is nested too deep is not read back: the
empty value stands in its place.  A value that is nested less deep arrives as it was, as long as its
doubles do.  So the two backends convert all values alike but those that are nested too deep, and a
script does the same on both unless such a value crosses the border.
-/

namespace ScriptAgent

open Script (Value)

/-! ### Values -/

namespace Json

variable {v : Json}

/-- A value whose doubles are what their texts are read back as. -/
def Rereads (v : Json) : Prop :=
  v.rereadFloats = v

/-- What is nested too deep to be read back is lost. -/
theorem pass_deep (h : Backend.maxDepth < v.depth) : Backend.isolated.pass v = .null :=
  if_neg (Nat.not_le.mpr h)

theorem passes_iff (hv : v.Rereads) : v.Passes ↔ v.depth ≤ Backend.maxDepth := by
  constructor
  · intro hpass
    by_contra hdeep
    have hnull : v = .null := hpass.symm.trans (pass_deep (Nat.not_le.mp hdeep))
    exact hdeep (hnull ▸ Nat.zero_le _)
  · intro hdepth
    exact (if_pos hdepth).trans hv

end Json

namespace Binding

/-- Only the empty value becomes the empty value of scripts. -/
theorem ofJson_eq_unit {v : Json} (h : ofJson v = .unit) : v = .null := by
  cases v with
  | null => rfl
  | num n =>
    rw [ofJson] at h
    cases n with
    | int n =>
      rw [ofNumeral] at h
      split at h <;> cases h
    | float x => cases h
  | _ => cases h

end Binding

namespace Backend

variable {v : Json}

/-- The backends hand a value to a script alike just if it is not nested too deep. -/
theorem toScript_agree_iff (hv : v.Rereads) : isolated.toScript v = inline.toScript v ↔ v.depth ≤ maxDepth := by
  constructor
  · intro hsame
    by_contra hdeep
    have hlost : isolated.toScript v = .unit := congrArg Binding.ofJson (Json.pass_deep (Nat.not_le.mp hdeep))
    have hnull : v = .null := Binding.ofJson_eq_unit (hsame.symm.trans hlost)
    exact hdeep (hnull ▸ Nat.zero_le _)
  · intro hdepth
    exact inline.toScript_isolated ((Json.passes_iff hv).mpr hdepth)

/-- The backends take a value from a script alike just if its JSON form is not nested too deep. -/
theorem ofScript_agree_iff {hosted : Value → Json} {w : Value} (hw : (Binding.toJson hosted w).Rereads) :
    isolated.ofScript hosted w = inline.ofScript hosted w ↔ (Binding.toJson hosted w).depth ≤ maxDepth :=
  Json.passes_iff hw

end Backend

/-! ### The variables that a script starts with -/

namespace Job

/-- The variables that are handed to a script as values of its own.  Objects become records, which stay
outside. -/
def given : Dict Json → List Json
  | [] => []
  | (_, .obj _) :: rest => given rest
  | (_, v) :: rest => v :: given rest

theorem given_plain {v : Json} (hv : ∀ fields, v ≠ .obj fields) (name : String) (rest : Dict Json) :
    given ((name, v) :: rest) = v :: given rest := by
  cases v with
  | obj fields => exact absurd rfl (hv fields)
  | _ => rfl

/-- A script finds the same on both backends just if what it is given arrives as it was. -/
theorem globals_isolated_iff {id : Nat} {vars : Dict Json} :
    globals .isolated id vars = globals .inline id vars ↔
      ∀ v ∈ given vars, Backend.isolated.toScript v = Backend.inline.toScript v := by
  induction vars generalizing id with
  | nil => simp [globals, given]
  | cons entry rest ih =>
    obtain ⟨name, v⟩ := entry
    by_cases hv : ∃ fields, v = .obj fields
    · obtain ⟨fields, rfl⟩ := hv
      have hrest := @ih (id + 1)
      rw [Prod.ext_iff] at hrest
      simp only [globals_obj, given, ← hrest, Prod.mk.injEq, List.cons.injEq, true_and]
    · have hplain : ∀ fields, v ≠ .obj fields := fun fields h => hv ⟨fields, h⟩
      have hrest := @ih id
      rw [Prod.ext_iff] at hrest
      rw [globals_plain hplain, globals_plain hplain, given_plain hplain, List.forall_mem_cons, ← hrest]
      simp only [Prod.mk.injEq, List.cons.injEq, Slot.mk.injEq, true_and, and_assoc]

/-- A script finds the same on both backends just if nothing that it is given is nested too deep. -/
theorem globals_agree_iff {id : Nat} {vars : Dict Json} (hvars : ∀ v ∈ given vars, v.Rereads) :
    globals .isolated id vars = globals .inline id vars ↔ ∀ v ∈ given vars, v.depth ≤ Backend.maxDepth := by
  rw [globals_isolated_iff]
  exact forall₂_congr fun v hv => Backend.toScript_agree_iff (hvars v hv)

end Job

/-! ### What is reported at the end -/

namespace Dict

theorem mapValues_eq_self {α : Type} {f : α → α} {d : Dict α} (h : ∀ v ∈ d.values, f v = v) : d.mapValues f = d := by
  refine (List.map_congr_left fun entry hentry => ?_).trans (List.map_id d)
  exact Prod.ext rfl (h entry.2 (List.mem_map_of_mem hentry))

end Dict

/-- The isolated backend reports the variables that the other one reports, passed as text. -/
theorem Machine.variables_isolated (m : Machine) (hidden : List String) :
    m.variables .isolated hidden = (m.variables .inline hidden).mapValues Backend.isolated.pass := by
  let collect (b : Backend) (d : Dict Json) (slot : Slot) : Dict Json :=
    if hidden.contains slot.name || (m.contents slot.value).isFn then d
    else d.insert slot.name (m.toJson b (m.contents slot.value))
  have collected (slots : List Slot) (d : Dict Json) :
      slots.foldl (collect .isolated) (d.mapValues Backend.isolated.pass) =
        (slots.foldl (collect .inline) d).mapValues Backend.isolated.pass := by
    induction slots generalizing d with
    | nil => rfl
    | cons slot rest ih =>
      have hslot : collect .isolated (d.mapValues Backend.isolated.pass) slot =
          (collect .inline d slot).mapValues Backend.isolated.pass := by
        show (if _ then _ else _) = Dict.mapValues _ (if _ then _ else _)
        split
        · rfl
        · exact Dict.insert_mapValues Backend.isolated.pass d slot.name _
      rw [List.foldl_cons, List.foldl_cons, hslot, ih]
  exact collected m.scope.reverse []

/-- The values that are reported. -/
def Report.values (r : Report) : List Json :=
  r.variables.values ++
    match r.ending with
    | .completed v => [v]
    | _ => []

theorem Machine.ending_isolated {m : Machine} {result : Except Stop Value}
    (h : ∀ v, m.ending .inline result = .completed v → v.Passes) :
    m.ending .isolated result = m.ending .inline result := by
  cases result with
  | ok v => exact congrArg Ending.completed (m.toJson_isolated .inline (h _ rfl))
  | error s =>
    cases s with
    | returned v => exact congrArg Ending.completed (m.toJson_isolated .inline (h _ rfl))
    | _ => rfl

namespace Job

/-- The job on a backend. -/
def on (j : Job) (b : Backend) : Job :=
  { j with backend := b }

variable {j : Job} {host : Host}

/-- Statements that end the same are reported the same if what is reported passes. -/
theorem report_isolated {r : Except Stop Value × Machine}
    (h : ∀ v ∈ ((j.on .inline).report r).values, v.Passes) :
    (j.on .isolated).report r = (j.on .inline).report r := by
  obtain ⟨result, m⟩ := r
  have hvars : m.variables .isolated j.hidden = m.variables .inline j.hidden := by
    rw [m.variables_isolated]
    exact Dict.mapValues_eq_self fun v hv => h v (List.mem_append_left _ hv)
  have hending : ((j.on .isolated).report (result, m)).ending = ((j.on .inline).report (result, m)).ending := by
    cases hm : m.raised with
    | some s => simp only [report, hm]
    | none =>
      simp only [report, hm]
      refine Machine.ending_isolated fun v hv => h v (List.mem_append_right _ ?_)
      simp only [report, hm]
      rw [show m.ending (j.on .inline).backend result = .completed v from hv]
      exact List.mem_singleton_self v
  show Report.mk _ _ _ = Report.mk _ _ _
  rw [Report.mk.injEq]
  exact ⟨hending, hvars, rfl⟩

/-- Runs that are reported the same are executed the same, unless they were stopped. -/
theorem execute_isolated (h : (j.on .isolated).run host = (j.on .inline).run host)
    (hstop : Execution.wasStopped ((j.on .inline).execute host).1.outcome = false) :
    (j.on .isolated).execute host = (j.on .inline).execute host := by
  unfold execute at hstop ⊢
  rw [h]
  generalize (j.on .inline).run host = r at hstop
  obtain ⟨ending, «variables», m⟩ := r
  cases ending with
  | completed v => rfl
  | suspended s => rfl
  | failed f =>
    have hfailed : Execution.wasStopped (.failed (Execution.errorOf f m (j.on .isolated))) = false := hstop
    dsimp only
    rw [hfailed, Bool.and_false]
    rfl

/-! ### Runs -/

/-- Whether the statements of a job's script are hindered neither by a limit nor by the host. -/
def isUnhindered (j : Job) (host : Host) : Bool :=
  match j.parse j.compiled.code with
  | .error _ => true
  | .ok p => unhindered (p.finish (j.env host p.functions) (j.machine host)).1

/-- The values that cross the border when a job is executed: those that the script is given, those that cross
while its statements are carried out, and those that are reported. -/
inductive Crosses (j : Job) (host : Host) : List Json → Prop
  | unparsed {e : Script.ParseError} (hparse : j.parse j.compiled.code = .error e) : Crosses j host (given j.variables)
  | ran {p : Script.Program} {cs : List Json} (hparse : j.parse j.compiled.code = .ok p)
      (during : Crossing (j.env host p.functions) (j.machine host).outside cs
        (p.finish (j.env host p.functions) (j.machine host)).2.outside) :
      Crosses j host (given j.variables ++ cs ++ (j.run host).values)

theorem isUnhindered_of_parse {p : Script.Program} (hparse : j.parse j.compiled.code = .ok p)
    (h : j.isUnhindered host = true) : unhindered (p.finish (j.env host p.functions) (j.machine host)).1 = true := by
  rwa [isUnhindered, hparse] at h

theorem machine_isolated (h : ∀ v ∈ given j.variables, v.Passes) :
    (j.on .isolated).machine host = (j.on .inline).machine host := by
  have hglobals : globals .isolated 0 j.variables = globals .inline 0 j.variables :=
    globals_isolated_iff.mpr fun v hv => Backend.inline.toScript_isolated (h v hv)
  unfold machine
  rw [show globals (j.on .isolated).backend 0 (j.on .isolated).variables = _ from hglobals]
  rfl

/-- The isolated run of a job has the environment of the inline run but for the backend and its limits. -/
theorem env_isolated (j : Job) (host : Host) (functions : List Script.Function) :
    (j.on .isolated).env host functions =
      ((j.on .inline).env host functions).isolated (Backend.isolated.sizeLimits j.limits.memory) := rfl

/-- What a run is of a script that does not parse. -/
theorem run_of_error {e : Script.ParseError} (hparse : j.parse j.compiled.code = .error e) :
    j.run host =
      { ending := .failed ⟨.execution, e.fault.message, if e.pos.isNone then none else some e.pos.line,
          if e.pos.isNone || e.pos.column == 0 then none else some e.pos.column⟩
        machine := j.machine host } := by
  unfold parse at hparse
  rw [run, hparse]

/-- A script whose statements are not hindered does the same on both backends if what crosses passes. -/
theorem run_isolated (hparse : (j.on .isolated).parse j.compiled.code = (j.on .inline).parse j.compiled.code)
    (hfree : (j.on .inline).isUnhindered host = true) (hfree' : (j.on .isolated).isUnhindered host = true) :
    ∃ cs, (j.on .inline).Crosses host cs ∧
      ((∀ c ∈ cs, c.Passes) → (j.on .isolated).run host = (j.on .inline).run host) := by
  cases hp : (j.on .inline).parse j.compiled.code with
  | error e =>
    refine ⟨_, .unparsed hp, fun hpass => ?_⟩
    have hp' : (j.on .isolated).parse (j.on .isolated).compiled.code = .error e := hparse.trans hp
    rw [run_of_error hp, run_of_error hp', machine_isolated (j := j) hpass]
  | ok p =>
    have hp' : (j.on .isolated).parse j.compiled.code = .ok p := hparse.trans hp
    let env := (j.on .inline).env host p.functions
    let m := (j.on .inline).machine host
    have hobeys := obeys_evaluate (z := Backend.isolated.sizeLimits j.limits.memory) env
      ((j.on .inline).describes host p.functions) nestingFuel
    -- `cs` crosses while the statements run; variables cross before, and what is reported after
    obtain ⟨cs, hcs, hsame⟩ := (Exec.obeys_runAll hobeys p.body m rfl).across
    refine ⟨_, .ran hp hcs, fun hpass => ?_⟩
    have hmachine : (j.on .isolated).machine host = m :=
      machine_isolated fun v hv => hpass v (List.mem_append_left _ (List.mem_append_left _ hv))
    have hfinish : p.finish ((j.on .isolated).env host p.functions) ((j.on .isolated).machine host) = p.finish env m := by
      have hfree₂ := isUnhindered_of_parse hp' hfree'
      rw [hmachine, env_isolated] at hfree₂ ⊢
      exact hsame (fun c hc => hpass c (List.mem_append_left _ (List.mem_append_right _ hc)))
        (isUnhindered_of_parse hp hfree) hfree₂
    have hrun : (j.on .inline).run host = (j.on .inline).report (p.finish env m) := run_of_parse (j.on .inline) host hp
    calc (j.on .isolated).run host
        = (j.on .isolated).report
            (p.finish ((j.on .isolated).env host p.functions) ((j.on .isolated).machine host)) :=
          run_of_parse (j.on .isolated) host hp'
      _ = (j.on .isolated).report (p.finish env m) := by rw [hfinish]
      _ = (j.on .inline).report (p.finish env m) := by
          refine report_isolated fun v hv => hpass v (List.mem_append_right _ ?_)
          rwa [hrun]
      _ = (j.on .inline).run host := hrun.symm

end Job

/-! ### What holds on both backends -/

/-- A script that nests an array too deep, and asks for its length. -/
def nestingText : String :=
  "let v = [];\nfor i in 0..127 \x7b\n    v = [v];\n\x7d\nlet w = v.len();"

/-- The job that carries it out. -/
def nestingJob : Job :=
  { compiled := (compile nestingText).toOption.getD (.plain nestingText) }

/-- How a variable is written that an execution gives back. -/
def Execution.written (e : Execution) (name : String) : Option String :=
  (e.variables.get? name).map Json.compact

/-- Whether a script came to its end. -/
def Execution.isCompleted (e : Execution) : Bool :=
  e.outcome matches .completed _

end ScriptAgent
