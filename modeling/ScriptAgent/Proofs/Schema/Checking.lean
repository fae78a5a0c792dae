import ScriptAgent.Proofs.Schema.Keywords
import ScriptAgent.Schema.Check

/-!
# What is checked

A check is a sequence of refusals, so it passes just if none of them applies: each rule by itself, each
alternative by one of its options, and each item and field at its own place.
-/

namespace ScriptAgent

theorem bind_eq_ok_iff {ε : Type} {x y : Except ε Unit} : (x >>= fun _ => y) = .ok () ↔ x = .ok () ∧ y = .ok () := by
  cases x with
  | error e => exact iff_of_false (fun h => nomatch h) fun h => nomatch h.1
  | ok u => exact (and_iff_right rfl).symm

theorem ite_error_eq_ok_iff {ε : Type} {c : Prop} [Decidable c] {e : ε} {x : Except ε Unit} :
    (if c then .error e else x) = .ok () ↔ ¬ c ∧ x = .ok () := by
  split <;> simp_all

namespace SimpleRules

variable {r : SimpleRules} {path : Path} {v : Json}

theorem checkWhole_iff : r.checkWhole path v = .ok () ↔
    (r.types ≠ [] → ∃ name ∈ r.types, v.hasType name = true) ∧
      (∀ choices, r.choices = some choices → ∃ c ∈ choices, Json.same c v = true) ∧
      ∀ c, r.constant = some c → Json.same c v = true := by
  unfold checkWhole
  cases r.choices <;> cases r.constant <;>
    simp [throw, throwThe, MonadExceptOf.throw, bind, Except.bind, pure, Except.pure, ite_error_eq_ok_iff]

theorem checkNumber_iff {n : Float} : r.checkNumber path n = .ok () ↔
    (∀ b, r.minimum = some b → ¬ n < b) ∧ (∀ b, r.maximum = some b → ¬ n > b) ∧
      (∀ b, r.exclusiveMinimum = some b → ¬ n ≤ b) ∧ ∀ b, r.exclusiveMaximum = some b → ¬ n ≥ b := by
  unfold checkNumber
  cases r.minimum <;> cases r.maximum <;> cases r.exclusiveMinimum <;> cases r.exclusiveMaximum <;>
    simp [throw, throwThe, MonadExceptOf.throw, bind, Except.bind, pure, Except.pure, ite_error_eq_ok_iff]

theorem checkLength_iff {length : Nat} : r.checkLength path length = .ok () ↔
    (∀ b, r.minLength = some b → b ≤ length) ∧ ∀ b, r.maxLength = some b → length ≤ b := by
  unfold checkLength
  cases r.minLength <;> cases r.maxLength <;>
    simp [throw, throwThe, MonadExceptOf.throw, bind, Except.bind, pure, Except.pure, ite_error_eq_ok_iff]

theorem checkCount_iff {count : Nat} : r.checkCount path count = .ok () ↔
    (∀ b, r.minItems = some b → b ≤ count) ∧ ∀ b, r.maxItems = some b → count ≤ b := by
  unfold checkCount
  cases r.minItems <;> cases r.maxItems <;>
    simp [throw, throwThe, MonadExceptOf.throw, bind, Except.bind, pure, Except.pure, ite_error_eq_ok_iff]

theorem checkRequired_iff {fields : Dict Json} : r.checkRequired path fields = .ok () ↔
    ∀ key ∈ r.required, key ∈ fields.keys := by
  unfold checkRequired
  cases hfind : r.required.find? fun key => !fields.contains key with
  | none =>
    refine iff_of_true rfl fun key hkey => ?_
    have hcontains := List.find?_eq_none.mp hfind key hkey
    by_contra hnot
    exact hcontains (by simp [Dict.contains, Dict.get?_eq_none_iff.mpr hnot])
  | some key =>
    refine iff_of_false (fun h => nomatch h) fun h => ?_
    have hmem := h key (List.mem_of_find?_eq_some hfind)
    have hmissing : fields.get? key = none := by simpa [Dict.contains] using List.find?_some hfind
    exact Dict.get?_eq_none_iff.mp hmissing hmem

end SimpleRules

theorem checkEach_iff {check : Path → Json → Except SchemaError Unit} {path : Path} {index : Nat} {vs : List Json} :
    checkEach check path index vs = .ok () ↔
      ∀ i v, vs[i]? = some v → check (.item (index + i) :: path) v = .ok () := by
  induction vs generalizing index with
  | nil => simp [checkEach]
  | cons v vs ih =>
    rw [checkEach, bind_eq_ok_iff, ih]
    constructor
    · rintro ⟨hfirst, hrest⟩ i w hw
      cases i with
      | zero =>
        obtain rfl : v = w := by simpa using hw
        exact hfirst
      | succ i =>
        rw [← Nat.add_assoc, Nat.add_right_comm]
        exact hrest i w (by simpa using hw)
    · intro h
      refine ⟨h 0 v rfl, fun i w hw => ?_⟩
      rw [Nat.add_right_comm, Nat.add_assoc]
      exact h (i + 1) w (by simpa using hw)

theorem checkFields_iff {check : String → Json → Except SchemaError Unit} {fields : List (String × Json)} :
    checkFields check fields = .ok () ↔ ∀ e ∈ fields, check e.1 e.2 = .ok () := by
  induction fields with
  | nil => simp [checkFields]
  | cons entry rest ih => rw [checkFields, bind_eq_ok_iff, ih, List.forall_mem_cons]

namespace Schema

variable {path : Path} {v : Json} {key : String}

theorem admitsAny_iff {options : List Schema} :
    admitsAny path v options = true ↔ ∃ s ∈ options, check path v s = .ok () := by
  induction options with
  | nil => simp [admitsAny]
  | cons s rest ih =>
    have hok : (check path v s).isOk = true ↔ check path v s = .ok () := by
      cases check path v s <;> simp [Except.isOk, Except.toBool]
    rw [admitsAny, Bool.or_eq_true, hok, ih]
    simp

theorem checkDeclared_eq {undeclared : Except SchemaError Unit} {declared : List (String × Schema)} :
    checkDeclared path key v undeclared declared =
      ((Dict.get? declared key).map (check (.field key :: path) v)).getD undeclared := by
  induction declared with
  | nil => rfl
  | cons entry rest ih =>
    rw [checkDeclared, Dict.get?]
    split
    · rfl
    · exact ih

@[simp] theorem check_anything : check path v .anything = .ok () := rfl

@[simp] theorem check_nothing : check path v .nothing = .error ⟨path, .forbidden⟩ := rfl

/-- A check of alternatives, and what is checked next. -/
def checkAlternatives (path : Path) (v : Json) (options : Option (List Schema)) (next : Except SchemaError Unit) :
    Except SchemaError Unit :=
  match options with
  | some ss => if !admitsAny path v ss then .error ⟨path, .noAlternative⟩ else next
  | none => next

theorem checkAlternatives_iff {options : Option (List Schema)} {next : Except SchemaError Unit} :
    checkAlternatives path v options next = .ok () ↔
      (∀ ss, options = some ss → ∃ s ∈ ss, check path v s = .ok ()) ∧ next = .ok () := by
  cases options with
  | none => simp [checkAlternatives]
  | some ss => simp [checkAlternatives, ite_error_eq_ok_iff, admitsAny_iff]

/-- A check of what is in a value. -/
def checkInside (path : Path) (p : Parts) : Json → Except SchemaError Unit
  | .num n => p.simple.checkNumber path n.toFloat
  | .str s => p.simple.checkLength path s.length
  | .arr vs => do
    p.simple.checkCount path vs.length
    match p.items with
    | some schema => checkEach (fun place item => check place item schema) path 0 vs
    | none => pure ()
  | .obj fields => do
    p.simple.checkRequired path fields
    checkFields (fun key item =>
      let undeclared : Except SchemaError Unit :=
        if p.simple.closed then throw ⟨path, .unexpected key⟩
        else
          match p.extra with
          | some schema => check (.field key :: path) item schema
          | none => pure ()
      match p.properties with
      | some declared => checkDeclared path key item undeclared declared
      | none => undeclared) fields
  | _ => pure ()

theorem check_toSchema (p : Parts) : check path v p.toSchema =
    checkAlternatives path v p.anyOf (checkAlternatives path v p.oneOf (do
      p.simple.checkWhole path v
      checkInside path p v)) := by
  obtain ⟨simple, anyOf, oneOf, items, properties, extra⟩ := p
  -- a check is defined by the form of the value, with each part there or not
  cases anyOf <;> cases oneOf <;> cases v with
  | arr vs => cases items <;> rfl
  | obj fields => cases properties <;> cases extra <;> rfl
  | _ => rfl

/-! ### Checks by keywords -/

variable {kws : List (String × Json)}

theorem check_alternatives_iff {name : String} :
    (∀ ss, ((Dict.get? kws name).bind Json.items?).map ofItems = some ss → ∃ s ∈ ss, check path v s = .ok ()) ↔
      ∀ options, Dict.get? kws name = some (.arr options) → ∃ o ∈ options, check path v (ofJson o) = .ok () := by
  cases Dict.get? kws name with
  | none => simp
  | some w => cases w <;> simp [Json.items?, ofItems_eq]

theorem check_undeclared_iff {x : Json} :
    (if (simpleOf kws).closed then .error ⟨path, .unexpected key⟩
      else
        match (partsOf kws).extra with
        | some schema => check (.field key :: path) x schema
        | none => pure () : Except SchemaError Unit) = .ok () ↔
      ∀ s, Dict.get? kws "additionalProperties" = some s → check (.field key :: path) x (ofJson s) = .ok () := by
  unfold partsOf simpleOf
  cases Dict.get? kws "additionalProperties" with
  | none => simp [pure, Except.pure]
  | some w =>
    cases w with
    | bool b => cases b <;> simp [Json.isFalse, Json.fields?, ofJson, pure, Except.pure]
    | obj keywords => simp [Json.isFalse, Json.fields?]
    | _ => simp [Json.isFalse, Json.fields?, ofJson, pure, Except.pure]

/-- What the keywords of a schema ask of a field. -/
theorem check_field_iff {x : Json} :
    (let undeclared : Except SchemaError Unit :=
        if (simpleOf kws).closed then .error ⟨path, .unexpected key⟩
        else
          match (partsOf kws).extra with
          | some schema => check (.field key :: path) x schema
          | none => pure ()
      match (partsOf kws).properties with
      | some declared => checkDeclared path key x undeclared declared
      | none => undeclared) = .ok () ↔
      (∀ s, (Json.obj kws).declared? key = some s → check (.field key :: path) x (ofJson s) = .ok ()) ∧
        ((Json.obj kws).declared? key = none → ∀ s, Dict.get? kws "additionalProperties" = some s →
          check (.field key :: path) x (ofJson s) = .ok ()) := by
  have hproperties : (partsOf kws).properties = ((Dict.get? kws "properties").bind Json.fields?).map ofFields := rfl
  dsimp only
  rw [Json.declared?_obj, hproperties]
  cases (Dict.get? kws "properties").bind Json.fields? with
  | none => simpa using check_undeclared_iff
  | some declared =>
    rw [Option.map_some, Option.bind_some]
    dsimp only
    rw [checkDeclared_eq, ofFields_eq, Dict.get?_mapValues]
    cases Dict.get? declared key with
    | none => simpa using check_undeclared_iff
    | some s => simp

/-- What the keywords of a schema ask of a value. -/
theorem check_obj_iff (hkws : (Dict.keys kws).Nodup) : check path v (ofJson (.obj kws)) = .ok () ↔
    (∀ options, Dict.get? kws "anyOf" = some (.arr options) → ∃ o ∈ options, check path v (ofJson o) = .ok ()) ∧
      (∀ options, Dict.get? kws "oneOf" = some (.arr options) → ∃ o ∈ options, check path v (ofJson o) = .ok ()) ∧
      (simpleOf kws).checkWhole path v = .ok () ∧
      match v with
      | .num n => (simpleOf kws).checkNumber path n.toFloat = .ok ()
      | .str s => (simpleOf kws).checkLength path s.length = .ok ()
      | .arr vs => (simpleOf kws).checkCount path vs.length = .ok () ∧
        ∀ s, Dict.get? kws "items" = some s → ∀ i x, vs[i]? = some x → check (.item i :: path) x (ofJson s) = .ok ()
      | .obj fields => (simpleOf kws).checkRequired path fields = .ok () ∧ ∀ e ∈ fields,
        (∀ s, (Json.obj kws).declared? e.1 = some s → check (.field e.1 :: path) e.2 (ofJson s) = .ok ()) ∧
          ((Json.obj kws).declared? e.1 = none → ∀ s, Dict.get? kws "additionalProperties" = some s →
            check (.field e.1 :: path) e.2 (ofJson s) = .ok ())
      | _ => True := by
  rw [ofJson_obj hkws, check_toSchema, checkAlternatives_iff, checkAlternatives_iff, bind_eq_ok_iff]
  refine and_congr check_alternatives_iff (and_congr check_alternatives_iff (and_congr_right' ?_))
  cases v with
  | null => exact iff_of_true rfl trivial
  | bool b => exact iff_of_true rfl trivial
  | num n => exact Iff.rfl
  | str s => exact Iff.rfl
  | arr vs =>
    rw [checkInside, bind_eq_ok_iff]
    refine and_congr_right' ?_
    show (match (Dict.get? kws "items").map ofJson with | some schema => _ | none => _) = _ ↔ _
    cases Dict.get? kws "items" with
    | none => simp [pure, Except.pure]
    | some s => simp [checkEach_iff]
  | obj fields =>
    rw [checkInside, bind_eq_ok_iff, checkFields_iff]
    exact and_congr_right' (forall₂_congr fun e he => check_field_iff)

end Schema

end ScriptAgent
