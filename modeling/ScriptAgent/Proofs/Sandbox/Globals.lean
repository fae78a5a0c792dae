import ScriptAgent.Proofs.Dict
import ScriptAgent.Sandbox.Run

/-!
# What a script finds when it starts

A script starts with the variables that it was handed, each under its name, and with nothing else but
the objects and the console, which hide variables of their names.
-/

namespace ScriptAgent

open Script (Value)

/-- How a script holds a variable of the host: a plain object as a record, any other value as its own. -/
def Holds (b : Backend) (records : Array Record) (name : String) : Json → Value → Prop
  | .obj fields, held => ∃ id, held = .record id ∧ records[id]? = some ⟨name, fields⟩
  | v, held => held = b.toScript v

namespace Job

variable {b : Backend} {d : Dict Json} {id : Nat}

@[simp] theorem globals_obj (b : Backend) (id : Nat) (name : String) (fields : List (String × Json)) (rest : Dict Json) :
    globals b id ((name, .obj fields) :: rest) =
      (⟨name, false, .record id⟩ :: (globals b (id + 1) rest).1, ⟨name, fields⟩ :: (globals b (id + 1) rest).2) := rfl

theorem globals_plain {name : String} {v : Json} (hv : ∀ fields, v ≠ .obj fields) (rest : Dict Json) :
    globals b id ((name, v) :: rest) =
      (⟨name, false, b.toScript v⟩ :: (globals b id rest).1, (globals b id rest).2) := by
  cases v with
  | obj fields => exact absurd rfl (hv fields)
  | _ => rfl

/-- The variables are in scope under their names. -/
theorem names_globals (b : Backend) (id : Nat) (d : Dict Json) : (globals b id d).1.map (·.name) = d.keys := by
  induction d generalizing id with
  | nil => rfl
  | cons entry rest ih =>
    obtain ⟨name, v⟩ := entry
    by_cases hv : ∃ fields, v = .obj fields
    · obtain ⟨fields, rfl⟩ := hv
      simp [ih]
    · rw [globals_plain fun fields h => hv ⟨fields, h⟩]
      simp [ih]

/-- What is in scope holds a variable; the records stand in the order in which they were numbered. -/
theorem holds_of_mem_globals {slot : Slot} (h : slot ∈ (globals b id d).1) (before : List Record)
    (hid : before.length = id) :
    slot.constant = false ∧
      ∃ v, (slot.name, v) ∈ d ∧ Holds b (before ++ (globals b id d).2).toArray slot.name v slot.value := by
  induction d generalizing id before with
  | nil => cases h
  | cons entry rest ih =>
    obtain ⟨name, v⟩ := entry
    by_cases hv : ∃ fields, v = .obj fields
    · obtain ⟨fields, rfl⟩ := hv
      rw [globals_obj] at h ⊢
      rcases List.mem_cons.mp h with rfl | h
      · exact ⟨rfl, .obj fields, .head _, id, rfl, by simp [← hid]⟩
      · obtain ⟨hc, v, hmem, hholds⟩ := ih h (before ++ [⟨name, fields⟩]) (by simp [hid])
        rw [List.append_assoc] at hholds
        exact ⟨hc, v, .tail _ hmem, hholds⟩
    · have hplain : ∀ fields, v ≠ .obj fields := fun fields h => hv ⟨fields, h⟩
      rw [globals_plain hplain] at h ⊢
      rcases List.mem_cons.mp h with rfl | h
      · refine ⟨rfl, v, .head _, ?_⟩
        cases v with
        | obj fields => exact absurd rfl (hplain fields)
        | _ => rfl
      · obtain ⟨hc, v, hmem, hholds⟩ := ih h before hid
        exact ⟨hc, v, .tail _ hmem, hholds⟩

/-- What a script of a job finds under each name when it starts. -/
structure Starts (j : Job) (m : Machine) : Prop where
  /-- Each variable that nothing hides is found, with its value. -/
  found : ∀ name ∉ j.hidden, ∀ v, Dict.get? j.variables name = some v →
    ∃ held, m.scope.find? (·.name == name) = some ⟨name, false, held⟩ ∧ Holds j.backend m.records name v held
  /-- No other variable is. -/
  absent : ∀ name ∉ j.hidden, Dict.get? j.variables name = none → m.scope.find? (·.name == name) = none
  /-- Objects and the console hide variables of their names. -/
  hides : ∀ name ∈ j.hidden, ∃ held, m.scope.find? (·.name == name) = some ⟨name, false, held⟩ ∧
    (held = .console ∨ ∃ i o, j.objects[i]? = some o ∧ o.name = name ∧ held = .object i)

/-- The slots of the objects. -/
def objectSlots (objects : List ObjectInstance) : List Slot :=
  objects.mapIdx fun i o => { name := o.name, value := .object i }

theorem mem_objectSlots {objects : List ObjectInstance} {slot : Slot} :
    slot ∈ objectSlots objects ↔ ∃ i o, objects[i]? = some o ∧ slot = ⟨o.name, false, .object i⟩ := by
  unfold objectSlots
  rw [List.mem_mapIdx]
  constructor
  · rintro ⟨i, hi, rfl⟩
    exact ⟨i, objects[i], List.getElem?_eq_getElem hi, rfl⟩
  · rintro ⟨i, o, ho, rfl⟩
    obtain ⟨hi, rfl⟩ := List.getElem?_eq_some_iff.mp ho
    exact ⟨i, hi, rfl⟩

theorem scope_machine (j : Job) (host : Host) :
    (j.machine host).scope = ⟨"console", false, .console⟩ :: ((objectSlots j.objects).reverse ++
      (globals j.backend 0 j.variables).1.reverse) := by
  simp [machine, objectSlots]

/-- A script starts with its variables, the objects and the console in scope. -/
theorem name_of_mem_scope_machine {j : Job} {host : Host} {slot : Slot} (h : slot ∈ (j.machine host).scope) :
    slot.name ∈ j.variables.keys ∨ slot.name ∈ j.hidden := by
  rw [scope_machine, List.mem_cons, List.mem_append, List.mem_reverse, List.mem_reverse] at h
  rcases h with rfl | hobject | hglobal
  · exact .inr (List.mem_append_right _ (List.mem_singleton.mpr rfl))
  · obtain ⟨i, o, ho, rfl⟩ := mem_objectSlots.mp hobject
    exact .inr (List.mem_append_left _ (List.mem_map.mpr ⟨o, List.mem_of_getElem? ho, rfl⟩))
  · rw [← names_globals j.backend 0]
    exact .inl (List.mem_map.mpr ⟨slot, hglobal, rfl⟩)

theorem find?_scope (j : Job) (host : Host) (name : String) :
    (j.machine host).scope.find? (·.name == name) =
      if name = "console" then some ⟨"console", false, .console⟩
      else ((objectSlots j.objects).reverse.find? (·.name == name)).or
        ((globals j.backend 0 j.variables).1.reverse.find? (·.name == name)) := by
  rw [scope_machine]
  split
  · next h => simp [h]
  · next h => rw [List.find?_cons_of_neg (by simpa using Ne.symm h), List.find?_append]

theorem find?_objectSlots_eq_none {objects : List ObjectInstance} {name : String}
    (h : name ∉ objects.map (·.name)) : (objectSlots objects).reverse.find? (·.name == name) = none := by
  refine List.find?_eq_none.mpr fun slot hslot hname => h ?_
  obtain ⟨i, o, ho, rfl⟩ := mem_objectSlots.mp (List.mem_reverse.mp hslot)
  exact List.mem_map.mpr ⟨o, List.mem_of_getElem? ho, by simpa using hname⟩

theorem starts_machine (j : Job) (host : Host) (ordered : Dict.Ordered j.variables) :
    j.Starts (j.machine host) := by
  have unhidden {name : String} (h : name ∉ j.hidden) : (j.machine host).scope.find? (·.name == name) =
      (globals j.backend 0 j.variables).1.reverse.find? (·.name == name) := by
    simp only [hidden, List.mem_append, List.mem_singleton, not_or] at h
    rw [find?_scope, if_neg h.2, find?_objectSlots_eq_none h.1, Option.none_or]
  refine ⟨fun name hname v hv => ?_, fun name hname hnone => ?_, fun name hname => ?_⟩
  · rw [unhidden hname]
    -- every variable has a slot, and the latest slot of a name holds its value
    cases hf : (globals j.backend 0 j.variables).1.reverse.find? (·.name == name) with
    | none =>
      have hmem : name ∈ (globals j.backend 0 j.variables).1.map (·.name) := by
        rw [names_globals]
        exact Dict.mem_keys_of_mem (Dict.mem_of_get? hv)
      obtain ⟨slot, hslot, hslotname⟩ := List.mem_map.mp hmem
      exact absurd (beq_iff_eq.mpr hslotname) (List.find?_eq_none.mp hf slot (List.mem_reverse.mpr hslot))
    | some slot =>
      obtain rfl : slot.name = name := by simpa using List.find?_some hf
      obtain ⟨hc, v', hmem, hholds⟩ :=
        holds_of_mem_globals (List.mem_reverse.mp (List.mem_of_find?_eq_some hf)) [] rfl
      obtain rfl : v' = v := Option.some.inj ((ordered.get?_of_mem hmem).symm.trans hv)
      obtain ⟨slotname, constant, held⟩ := slot
      obtain rfl : constant = false := hc
      exact ⟨held, rfl, hholds⟩
  · rw [unhidden hname]
    refine List.find?_eq_none.mpr fun slot hslot hslotname => Dict.get?_eq_none_iff.mp hnone ?_
    rw [← names_globals j.backend 0, ← beq_iff_eq.mp hslotname]
    exact List.mem_map.mpr ⟨slot, List.mem_reverse.mp hslot, rfl⟩
  · rw [find?_scope]
    split
    · next h => exact ⟨.console, by rw [h], .inl rfl⟩
    · next h =>
      have hobject : name ∈ j.objects.map (·.name) := by
        simpa [hidden, h] using hname
      cases hf : (objectSlots j.objects).reverse.find? (·.name == name) with
      | none =>
        obtain ⟨o, ho, rfl⟩ := List.mem_map.mp hobject
        obtain ⟨i, hi⟩ := List.getElem?_of_mem ho
        have hslot := List.mem_reverse.mpr (mem_objectSlots.mpr ⟨i, o, hi, rfl⟩)
        exact absurd (beq_self_eq_true o.name) (List.find?_eq_none.mp hf _ hslot)
      | some slot =>
        obtain ⟨i, o, ho, rfl⟩ := mem_objectSlots.mp (List.mem_reverse.mp (List.mem_of_find?_eq_some hf))
        obtain rfl : o.name = name := by simpa using List.find?_some hf
        exact ⟨.object i, rfl, .inr ⟨i, o, ho, rfl, rfl⟩⟩

end Job

end ScriptAgent
