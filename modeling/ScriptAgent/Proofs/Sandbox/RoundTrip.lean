import ScriptAgent.Proofs.Json.Sameness
import ScriptAgent.Sandbox.Binding

/-!
# Values that a script gives back

Scripts know integers of 64 bits with a sign, JSON also those without one.  A value that is handed to a script and
given back is therefore the same but for integers that only fit without a sign: in their place stand the doubles
nearest to them.  Deep equality cannot tell, and once given back a value is given back as it is.
-/

namespace ScriptAgent

open Script (Value)

/-! ### Numbers -/

namespace Numeral

/-- A number that scripts know: a double, or an integer of 64 bits with a sign. -/
def Scripted : Numeral → Prop
  | .int n => Script.fitsInt n = true
  | .float _ => True

/-- A number as a script gives it back. -/
def givenBack : Numeral → Numeral
  | .int n => if Script.fitsInt n then .int n else .float (Float.ofInt n)
  | .float x => .float x

variable {n : Numeral}

theorem givenBack_cases (n : Numeral) :
    n.Scripted ∧ n.givenBack = n ∨ ¬ n.Scripted ∧ n.givenBack = .float n.toFloat := by
  cases n with
  | float x => exact .inl ⟨trivial, rfl⟩
  | int n =>
    by_cases h : Script.fitsInt n = true
    · exact .inl ⟨h, if_pos h⟩
    · exact .inr ⟨h, if_neg h⟩

theorem givenBack_eq_self_iff : n.givenBack = n ↔ n.Scripted := by
  rcases givenBack_cases n with ⟨hn, hsame⟩ | ⟨hn, hfloat⟩
  · exact iff_of_true hsame hn
  · refine iff_of_false (fun hsame => hn ?_) hn
    rw [← hsame, hfloat]
    trivial

theorem scripted_givenBack (n : Numeral) : n.givenBack.Scripted := by
  rcases givenBack_cases n with ⟨hn, hsame⟩ | ⟨-, hfloat⟩
  · rwa [hsame]
  · rw [hfloat]
    trivial

theorem rounded_givenBack (n : Numeral) : n.givenBack.rounded = n.rounded := by
  rcases givenBack_cases n with ⟨-, hsame⟩ | ⟨-, hfloat⟩
  · rw [hsame]
  · rw [hfloat]
    rfl

theorem WellFormed.givenBack (h : n.WellFormed) : n.givenBack.WellFormed := by
  rcases givenBack_cases n with ⟨-, hsame⟩ | ⟨-, hfloat⟩
  · rwa [hsame]
  · rw [hfloat]
    exact h.finite

end Numeral

/-! ### Values -/

namespace Json

mutual

/-- A value with its numbers changed by a function. -/
def mapNumbers (f : Numeral → Numeral) : Json → Json
  | .num n => .num (f n)
  | .arr items => .arr (mapItems f items)
  | .obj fields => .obj (mapFields f fields)
  | v => v

/-- Items with their numbers changed by a function. -/
def mapItems (f : Numeral → Numeral) : List Json → List Json
  | [] => []
  | v :: rest => mapNumbers f v :: mapItems f rest

/-- Fields with their numbers changed by a function. -/
def mapFields (f : Numeral → Numeral) : List (String × Json) → List (String × Json)
  | [] => []
  | (key, v) :: rest => (key, mapNumbers f v) :: mapFields f rest

end

variable {f g : Numeral → Numeral} {P Q : Numeral → Prop} {v : Json}

theorem mapItems_eq (f : Numeral → Numeral) (items : List Json) : mapItems f items = items.map (mapNumbers f) := by
  induction items with
  | nil => rfl
  | cons v rest ih => rw [mapItems, ih, List.map_cons]

theorem mapFields_eq (f : Numeral → Numeral) (fields : List (String × Json)) :
    mapFields f fields = Dict.mapValues (mapNumbers f) fields := by
  induction fields with
  | nil => rfl
  | cons entry rest ih =>
    rw [mapFields, ih]
    rfl

@[simp] theorem mapNumbers_num (f : Numeral → Numeral) (n : Numeral) : mapNumbers f (.num n) = .num (f n) := rfl

@[simp] theorem mapNumbers_arr (f : Numeral → Numeral) (items : List Json) :
    mapNumbers f (.arr items) = .arr (items.map (mapNumbers f)) := by
  rw [mapNumbers, mapItems_eq]

@[simp] theorem mapNumbers_obj (f : Numeral → Numeral) (fields : List (String × Json)) :
    mapNumbers f (.obj fields) = .obj (Dict.mapValues (mapNumbers f) fields) := by
  rw [mapNumbers, mapFields_eq]

theorem Formed.mapNumbers (hPQ : ∀ n, P n → Q (f n)) (h : v.Formed P) : (v.mapNumbers f).Formed Q := by
  induction h with
  | null => exact .null
  | bool b => exact .bool b
  | str s => exact .str s
  | num hn => exact .num (hPQ _ hn)
  | arr each ih =>
    rw [mapNumbers_arr]
    exact .arr (List.forall_mem_map.mpr ih)
  | obj ordered each ih =>
    rw [mapNumbers_obj]
    exact .obj (ordered.mapValues _) (List.forall_mem_map.mpr ih)

theorem map_eq_self_iff {α : Type} {F : α → α} {as : List α} : as.map F = as ↔ ∀ a ∈ as, F a = a := by
  conv_lhs => rhs; rw [← List.map_id as]
  exact List.map_inj_left

/-- A value stays as it is just if its numbers do. -/
theorem mapNumbers_eq_self_iff (h : v.Formed P) : v.mapNumbers f = v ↔ v.Formed fun n => f n = n := by
  induction h with
  | null => simp [Json.mapNumbers]
  | bool b => simp [Json.mapNumbers]
  | str s => simp [Json.mapNumbers]
  | num hn => simp
  | @arr items each ih =>
    rw [mapNumbers_arr, formed_arr_iff, Json.arr.injEq, map_eq_self_iff]
    exact forall₂_congr ih
  | @obj fields ordered each ih =>
    rw [mapNumbers_obj, formed_obj_iff, Json.obj.injEq, Dict.mapValues, map_eq_self_iff]
    refine (forall₂_congr fun e he => ?_).trans (and_iff_right ordered).symm
    rw [← ih e he, Prod.ext_iff]
    exact and_iff_right rfl

theorem rounded_mapNumbers (hf : ∀ n, (f n).rounded = n.rounded) (h : v.Formed P) :
    (v.mapNumbers f).rounded = v.rounded := by
  induction h with
  | null => rfl
  | bool b => rfl
  | str s => rfl
  | num hn => simp [hf]
  | arr each ih =>
    rw [mapNumbers_arr, rounded_arr, rounded_arr, List.map_map]
    exact congrArg Datum.arr (List.map_congr_left ih)
  | obj ordered each ih =>
    rw [mapNumbers_obj, rounded_obj, rounded_obj, Dict.mapValues, Dict.mapValues, List.map_map]
    exact congrArg Datum.obj (List.map_congr_left fun e he => Prod.ext rfl (ih e he))

/-- A value as a script gives it back. -/
def givenBack (v : Json) : Json :=
  v.mapNumbers Numeral.givenBack

theorem givenBack_eq_self_iff (h : v.WellFormed) : v.givenBack = v ↔ v.Formed Numeral.Scripted := by
  refine (mapNumbers_eq_self_iff h).trans ?_
  simp only [Numeral.givenBack_eq_self_iff]

theorem wellFormed_givenBack (h : v.WellFormed) : v.givenBack.WellFormed :=
  h.mapNumbers fun _ hn => hn.givenBack

theorem givenBack_givenBack (h : v.WellFormed) : v.givenBack.givenBack = v.givenBack :=
  (givenBack_eq_self_iff (wellFormed_givenBack h)).mpr (h.mapNumbers fun n _ => Numeral.scripted_givenBack n)

/-- A variable as a script leaves it that does not touch it.  A plain object is handed over as it is, and a script
only holds its number. -/
def kept : Json → Json
  | .obj fields => .obj fields
  | v => v.givenBack

theorem kept_cases (v : Json) :
    (∃ fields, v = .obj fields) ∧ v.kept = v ∨ (¬ ∃ fields, v = .obj fields) ∧ v.kept = v.givenBack := by
  cases v with
  | obj fields => exact .inl ⟨⟨fields, rfl⟩, rfl⟩
  | _ => exact .inr ⟨nofun, rfl⟩

theorem wellFormed_kept (h : v.WellFormed) : v.kept.WellFormed := by
  rcases kept_cases v with ⟨-, hsame⟩ | ⟨-, hgiven⟩
  · rwa [hsame]
  · rw [hgiven]
    exact wellFormed_givenBack h

/-- A variable that was left once is left as it is from then on. -/
theorem kept_kept (h : v.WellFormed) : v.kept.kept = v.kept := by
  cases v with
  | obj fields => rfl
  | _ => exact givenBack_givenBack h

theorem kept_eq_self_iff (h : v.WellFormed) :
    v.kept = v ↔ (∃ fields, v = .obj fields) ∨ v.Formed Numeral.Scripted := by
  rcases kept_cases v with ⟨hobj, hsame⟩ | ⟨hplain, hgiven⟩
  · exact iff_of_true hsame (.inl hobj)
  · rw [hgiven, givenBack_eq_self_iff h, or_iff_right hplain]

/-- Deep equality does not tell a variable that was left from what it was. -/
theorem same_kept (h : v.WellFormed) : same v v.kept = true := by
  rw [same_iff h (wellFormed_kept h)]
  rcases kept_cases v with ⟨-, hsame⟩ | ⟨-, hgiven⟩
  · rw [hsame]
  · rw [hgiven]
    exact (rounded_mapNumbers Numeral.rounded_givenBack h).symm

end Json

/-! ### There and back -/

namespace Binding

variable {v : Json}

theorem ofItems_eq (items : List Json) : ofItems items = items.map ofJson := by
  induction items with
  | nil => rfl
  | cons v rest ih => rw [ofItems, ih, List.map_cons]

theorem ofFields_eq (fields : List (String × Json)) : ofFields fields = Dict.mapValues ofJson fields := by
  induction fields with
  | nil => rfl
  | cons entry rest ih =>
    rw [ofFields, ih]
    rfl

theorem toItems_eq (hosted : Value → Json) (items : List Value) :
    toItems hosted items = items.map (toJson hosted) := by
  induction items with
  | nil => rfl
  | cons v rest ih => rw [toItems, ih, List.map_cons]

theorem toFields_eq (hosted : Value → Json) (entries : List (String × Value)) :
    toFields hosted entries = Dict.mapValues (toJson hosted) entries := by
  induction entries with
  | nil => rfl
  | cons entry rest ih =>
    rw [toFields, ih]
    rfl

theorem toJson_ofNumeral (hosted : Value → Json) {n : Numeral} (h : n.WellFormed) :
    toJson hosted (ofNumeral n) = .num n.givenBack := by
  cases n with
  | float x => exact if_pos h
  | int n =>
    rw [ofNumeral, Numeral.givenBack]
    split
    · rfl
    · exact if_pos h.finite

/-- A value that goes to a script and back has its numbers given back, and is the same in all else. -/
theorem toJson_ofJson (hosted : Value → Json) (h : v.WellFormed) : toJson hosted (ofJson v) = v.givenBack := by
  unfold Json.givenBack
  induction h with
  | null => rfl
  | bool b => rfl
  | str s => rfl
  | num hn => exact toJson_ofNumeral hosted hn
  | arr each ih =>
    rw [ofJson, ofItems_eq, toJson, toItems_eq, List.map_map, Json.mapNumbers_arr]
    exact congrArg Json.arr (List.map_congr_left ih)
  | obj ordered each ih =>
    rw [ofJson, ofFields_eq, toJson, toFields_eq, Json.mapNumbers_obj, Dict.mapValues, Dict.mapValues, List.map_map]
    exact congrArg Json.obj (List.map_congr_left fun e he => Prod.ext rfl (ih e he))

end Binding

end ScriptAgent
