import ScriptAgent.Proofs.Sandbox.EvaluationSparing
import ScriptAgent.Proofs.Sandbox.Overload
import ScriptAgent.Proofs.Sandbox.RoundTrip

/-!
# What is left of a variable that was spared

Of the variables with one name the latest counts when they are read off.  If a script spares a variable, that is the
one that was handed to it, and it is left as it crossed the border twice.
-/

namespace ScriptAgent

open Script (Value Stmt)

variable {name : String}

/-! ### Reading the variables off -/

namespace Machine

/-- What a script finds under a name. -/
def lookup? (m : Machine) (name : String) : Option Value :=
  (m.scope.find? (·.name == name)).map fun slot => m.contents slot.value

variable {m : Machine} {b : Backend} {hidden : List String}

theorem get?_foldl_collected {scope : List Slot} (h : ∀ slot ∈ scope, slot.name ≠ name) (d : Dict Json) :
    (scope.foldl (m.collected b hidden) d).get? name = d.get? name := by
  induction scope generalizing d with
  | nil => rfl
  | cons slot scope ih =>
    obtain ⟨hslot, hscope⟩ := List.forall_mem_cons.mp h
    rw [List.foldl_cons, ih hscope]
    unfold collected
    dsimp only
    split
    · rfl
    · exact Dict.get?_insert_of_ne d hslot.symm _

/-- Under a name stands what a script finds there. -/
theorem get?_variables (visible : name ∉ hidden) {v : Value} (hv : m.lookup? name = some v) (hfn : v.isFn = false) :
    (m.variables b hidden).get? name = some (m.toJson b v) := by
  obtain ⟨slot, hslot, rfl⟩ := Option.map_eq_some_iff.mp hv
  obtain ⟨hname, after, before, hscope, hafter⟩ := List.find?_eq_some_iff_append.mp hslot
  obtain rfl := eq_of_beq hname
  have hlatest : ∀ s ∈ after.reverse, s.name ≠ slot.name := by simpa using hafter
  have hvariables : m.variables b hidden =
      after.reverse.foldl (m.collected b hidden) (m.collected b hidden (before.reverse.foldl (m.collected b hidden) [])
        slot) := by
    show m.scope.reverse.foldl (m.collected b hidden) [] = _
    rw [hscope, List.reverse_append, List.reverse_cons, List.foldl_append, List.foldl_append]
    rfl
  rw [hvariables, get?_foldl_collected hlatest]
  unfold collected
  dsimp only
  rw [hfn, Bool.or_false, if_neg (by simpa using visible)]
  exact Dict.get?_insert_self _ _ _

end Machine

/-! ### Spared variables -/

namespace Job

variable {j : Job} {host : Host} {v : Json}

/-- A script spares a variable: when it is over, what it found under the name when it started is found there, and if
that is a record, its fields are the same. -/
structure Spares (j : Job) (host : Host) (name : String) : Prop where
  found : (j.run host).machine.lookup? name = (j.machine host).lookup? name
  fields : ∀ id, (j.machine host).lookup? name = some (.record id) →
    (j.run host).machine.records[id]? = (j.machine host).records[id]?

/-- A JSON value becomes neither a function nor a record. -/
theorem ofJson_plain (v : Json) : (Binding.ofJson v).isFn = false ∧ ∀ id, Binding.ofJson v ≠ .record id := by
  cases v with
  | num n =>
    rcases n with n | x
    · show (if Script.fitsInt n then Value.int n else .float (Float.ofInt n)).isFn = false ∧
        ∀ id, (if Script.fitsInt n then Value.int n else .float (Float.ofInt n)) ≠ .record id
      split <;> exact ⟨rfl, nofun⟩
    · exact ⟨rfl, nofun⟩
  | _ => exact ⟨rfl, nofun⟩

/-- What a script finds is neither shared nor a function. -/
theorem plain_of_holds {b : Backend} {records : Array Record} {held : Value} (h : Holds b records name v held)
    (m : Machine) : m.contents held = held ∧ held.isFn = false := by
  cases v with
  | obj fields =>
    obtain ⟨id, rfl, -⟩ := h
    exact ⟨rfl, rfl⟩
  | _ =>
    subst h
    exact ⟨m.contents_ofJson (b.pass _), (ofJson_plain (b.pass _)).1⟩

/-- A script finds each variable of its job that nothing hides. -/
theorem lookup?_machine (host : Host) (ordered : Dict.Ordered j.variables) (visible : name ∉ j.hidden)
    (hv : Dict.get? j.variables name = some v) : ∃ held, (j.machine host).lookup? name = some held ∧
      Holds j.backend (j.machine host).records name v held := by
  obtain ⟨held, hslot, hholds⟩ := (j.starts_machine host ordered).found name visible v hv
  refine ⟨held, ?_, hholds⟩
  unfold Machine.lookup?
  rw [hslot, Option.map_some, (plain_of_holds hholds _).1]

/-- The inline backend reads off a variable as it was kept, as long as the fields of a record are the same. -/
theorem toJson_of_holds {records : Array Record} {held : Value} (h : Holds .inline records name v held)
    (formed : v.WellFormed) {m : Machine} (hfields : ∀ id, held = .record id → m.records[id]? = records[id]?) :
    m.toJson .inline held = v.kept := by
  cases v with
  | obj fields =>
    obtain ⟨id, rfl, hrecord⟩ := h
    have hsame : m.records[id]? = some ⟨name, fields⟩ := (hfields id rfl).trans hrecord
    show (m.records[id]?.map Record.toJson).getD .null = _
    rw [hsame]
    rfl
  | _ =>
    subst h
    exact Binding.toJson_ofJson m.hostedJson formed

/-- A variable that a script spares is read off as it is kept, if there is a script to run. -/
theorem get?_variables_run {p : Script.Program} (parsed : j.parse j.compiled.code = .ok p)
    (inline : j.backend = .inline) (ordered : Dict.Ordered j.variables) (visible : name ∉ j.hidden)
    (hv : Dict.get? j.variables name = some v) (formed : v.WellFormed) (spares : j.Spares host name) :
    Dict.get? (j.run host).variables name = some v.kept := by
  obtain ⟨held, hfound, hholds⟩ := lookup?_machine host ordered visible hv
  have hend := spares.found.trans hfound
  have hrun := j.run_of_parse host parsed
  have hvariables : (j.run host).variables = (j.run host).machine.variables j.backend j.hidden := by
    rw [hrun]
    rfl
  rw [hvariables, Machine.get?_variables visible hend (plain_of_holds hholds (j.machine host)).2]
  rw [inline] at hholds ⊢
  rw [toJson_of_holds hholds formed fun id hid => spares.fields id (hid ▸ hfound)]

/-- What is read off was in scope when a script was over, and nothing hides it. -/
theorem slot_of_mem_keys_variables (h : name ∈ (j.run host).variables.keys) :
    ∃ p, j.parse j.compiled.code = .ok p ∧ name ∉ j.hidden ∧
      ∃ slot ∈ (runAll (evaluate (j.env host p.functions) nestingFuel) p.body (j.machine host)).2.scope,
        slot.name = name := by
  cases parsed : j.parse j.compiled.code with
  | error e =>
    have hnone : (j.run host).variables = [] := by
      unfold parse at parsed
      unfold run
      rw [parsed]
    rw [hnone] at h
    cases h
  | ok p =>
    rw [j.run_of_parse host parsed] at h
    rcases mem_keys_foldl_collected _ h with hnil | ⟨visible, slot, hslot, hname⟩
    · cases hnil
    · exact ⟨p, rfl, visible, slot, List.mem_reverse.mp hslot, hname⟩

/-- However a script that spares a variable ends, the variable is read off as it is kept, or not at all. -/
theorem eq_kept_of_get? (inline : j.backend = .inline) (ordered : Dict.Ordered j.variables)
    (hv : Dict.get? j.variables name = some v) (formed : v.WellFormed) (spares : j.Spares host name) {w : Json}
    (hw : Dict.get? (j.run host).variables name = some w) : w = v.kept := by
  obtain ⟨p, parsed, visible, -⟩ := slot_of_mem_keys_variables (Dict.mem_keys_of_mem (Dict.mem_of_get? hw))
  have hkept := get?_variables_run parsed inline ordered visible hv formed spares
  exact Option.some.inj (hw.symm.trans hkept)

theorem ordered_variables_run (j : Job) (host : Host) : Dict.Ordered (j.run host).variables := by
  have hempty : Dict.Ordered ([] : Dict Json) := by simp [Dict.Ordered]
  unfold run
  split
  · exact hempty
  · exact ordered_foldl_collected _ hempty

/-- An execution on the inline backend gives back all that was read off. -/
theorem variables_execute (inline : j.backend = .inline) (host : Host) :
    (j.execute host).1.variables = (j.run host).variables := by
  unfold execute
  dsimp only
  rw [inline]
  rfl

/-- A script that is written to spare a variable leaves it in scope; a plain object may still have other fields. -/
theorem lookup?_run_of_allSpare {p : Script.Program} (parsed : j.parse j.compiled.code = .ok p)
    (written : Stmt.allSpare name p.body = true) (ordered : Dict.Ordered j.variables) (visible : name ∉ j.hidden)
    (hv : Dict.get? j.variables name = some v) :
    (j.run host).machine.lookup? name = (j.machine host).lookup? name := by
  obtain ⟨held, hslot, hholds⟩ := (j.starts_machine host ordered).found name visible v hv
  have hspared : Spared name (j.machine host).scope (j.run host).machine.scope := by
    rw [j.run_of_parse host parsed]
    exact Exec.spares_runAll (spares_evaluate (j.env host p.functions) name nestingFuel) written (j.machine host)
  unfold Machine.lookup?
  rw [hspared.find?, hslot, Option.map_some, Option.map_some, (plain_of_holds hholds _).1, (plain_of_holds hholds _).1]

theorem spares_of_allSpare {p : Script.Program} (parsed : j.parse j.compiled.code = .ok p)
    (written : Stmt.allSpare name p.body = true) (ordered : Dict.Ordered j.variables) (visible : name ∉ j.hidden)
    (hv : Dict.get? j.variables name = some v) (plain : ∀ fields, v ≠ .obj fields) : j.Spares host name := by
  refine ⟨lookup?_run_of_allSpare parsed written ordered visible hv, fun id hid => ?_⟩
  obtain ⟨held, hfound, hholds⟩ := lookup?_machine host ordered visible hv
  obtain rfl := Option.some.inj (hfound.symm.trans hid)
  cases v with
  | obj fields => exact absurd rfl (plain fields)
  | _ => exact absurd hholds.symm ((ofJson_plain (j.backend.pass _)).2 id)

end Job

end ScriptAgent
