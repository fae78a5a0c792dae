import ScriptAgent.Proofs.Schema.Meaning

/-!
# Where a value is at fault

A violation is reported with the place where it was found.  The place is a chain of keys and indices that leads from
the whole value to a part of it, and along the same chain the schema leads to the one for that part.  The part by itself
breaks that schema, in the way that is reported.
-/

namespace ScriptAgent

variable {schema s v x : Json} {kws : List (String × Json)} {key : String} {path : Path} {e : SchemaError}

/-! ### Places in a value and in its schema -/

/-- The text of one step. -/
def PathStep.text : PathStep → String
  | .field key => "." ++ key
  | .item index => "[" ++ toString index ++ "]"

theorem Path.render_append (steps : List PathStep) (outer : Path) :
    Path.render (steps.reverse ++ outer) = Path.render outer ++ String.join (steps.map PathStep.text) := by
  induction steps generalizing outer with
  | nil => simp
  | cons step rest ih =>
    rw [List.reverse_cons, List.append_assoc, List.singleton_append, ih, List.map_cons, String.join_cons,
      ← String.append_assoc]
    cases step <;> simp [Path.render, PathStep.text, String.append_assoc]

/-- The part of a value one step down. -/
def Json.part? : Json → PathStep → Option Json
  | .obj fields, .field key => Dict.get? fields key
  | .arr items, .item index => items[index]?
  | _, _ => none

/-- The schema for the parts of a value one step down. -/
def Json.partSchema? (schema : Json) : PathStep → Option Json
  | .field key => (schema.declared? key).or (schema.get? "additionalProperties")
  | .item _ => schema.get? "items"

/-- A chain of steps that a schema and a value both have, and the schema and the part that it leads to. -/
inductive Leads : Json → Json → List PathStep → Json → Json → Prop
  | here {schema v : Json} : Leads schema v [] schema v
  | down {schema v s x t y : Json} {step : PathStep} {rest : List PathStep} (hschema : schema.partSchema? step = some s)
      (hpart : v.part? step = some x) (hrest : Leads s x rest t y) : Leads schema v (step :: rest) t y

theorem Subschema.of_partSchema? {step : PathStep} (h : schema.partSchema? step = some s) : Subschema s schema := by
  cases schema with
  | obj kws =>
    cases step with
    | field key =>
      rcases Option.or_eq_some_iff.mp h with hdeclared | ⟨-, hadditional⟩
      · exact .property hdeclared
      · exact .additional hadditional
    | item index => exact .items h
  | _ => cases step <;> cases h

theorem Json.Formed.part? {P : Numeral → Prop} {step : PathStep} (h : v.Formed P) (hx : v.part? step = some x) :
    x.Formed P := by
  cases h with
  | obj ordered each =>
    cases step with
    | field key => exact each _ (Dict.mem_of_get? hx)
    | item index => cases hx
  | arr each =>
    cases step with
    | field key => cases hx
    | item index => exact each x (List.mem_of_getElem? hx)
  | _ => cases hx

/-! ### One step -/

/-- What a check of a value by its schema comes to, wherever the value is: it passes, or it finds a violation by the
value as a whole, or it is the check of one part that fails. -/
inductive Finding (schema v : Json) (check : Path → Except SchemaError Unit) : Prop
  | passes (h : ∀ path, check path = .ok ())
  | here (violation : Violation) (h : ∀ path, check path = .error ⟨path, violation⟩)
  | below (step : PathStep) (x s : Json) (hpart : v.part? step = some x) (hschema : schema.partSchema? step = some s)
      (hfails : ∀ path, Schema.check path x (Schema.ofJson s) ≠ .ok ())
      (h : ∀ path, check path = Schema.check (step :: path) x (Schema.ofJson s))

namespace Finding

variable {check next : Path → Except SchemaError Unit}

theorem guard {violation : Violation} {c : Prop} [Decidable c] (hnext : Finding schema v next) :
    Finding schema v fun path => if c then .error ⟨path, violation⟩ else next path := by
  by_cases hc : c
  · exact .here violation fun path => if_pos hc
  · simpa only [if_neg hc] using hnext

theorem andThen (hcheck : Finding schema v check) (hnext : Finding schema v next) :
    Finding schema v fun path => check path >>= fun _ => next path := by
  cases hcheck with
  | passes h =>
    have hpath (path : Path) : (check path >>= fun _ => next path) = next path := by rw [h]; rfl
    simpa only [hpath] using hnext
  | here violation h => exact .here violation fun path => by rw [h]; rfl
  | below step x s hpart hschema hfails h =>
    refine .below step x s hpart hschema hfails fun path => ?_
    rw [h]
    cases hx : Schema.check (step :: path) x (Schema.ofJson s) with
    | ok u => exact absurd hx (hfails _)
    | error e => rfl

/-! A rule about the value as a whole is a row of refusals, each at the place of the value. -/

variable (r : SimpleRules)

theorem checkWhole : Finding schema v fun path => r.checkWhole path v := by
  unfold SimpleRules.checkWhole
  cases r.choices <;> cases r.constant <;>
    simp only [throw, throwThe, MonadExceptOf.throw, pure, Except.pure, bind, Except.bind] <;>
    (repeat refine guard ?_) <;> exact .passes fun _ => rfl

theorem checkNumber (n : Float) : Finding schema v fun path => r.checkNumber path n := by
  unfold SimpleRules.checkNumber
  cases r.minimum <;> cases r.maximum <;> cases r.exclusiveMinimum <;> cases r.exclusiveMaximum <;>
    simp only [throw, throwThe, MonadExceptOf.throw, pure, Except.pure, bind, Except.bind] <;>
    (repeat refine guard ?_) <;> exact .passes fun _ => rfl

theorem checkLength (length : Nat) : Finding schema v fun path => r.checkLength path length := by
  unfold SimpleRules.checkLength
  cases r.minLength <;> cases r.maxLength <;>
    simp only [throw, throwThe, MonadExceptOf.throw, pure, Except.pure, bind, Except.bind] <;>
    (repeat refine guard ?_) <;> exact .passes fun _ => rfl

theorem checkCount (count : Nat) : Finding schema v fun path => r.checkCount path count := by
  unfold SimpleRules.checkCount
  cases r.minItems <;> cases r.maxItems <;>
    simp only [throw, throwThe, MonadExceptOf.throw, pure, Except.pure, bind, Except.bind] <;>
    (repeat refine guard ?_) <;> exact .passes fun _ => rfl

theorem checkRequired (fields : Dict Json) : Finding schema v fun path => r.checkRequired path fields := by
  unfold SimpleRules.checkRequired
  cases r.required.find? fun key => !fields.contains key with
  | none => exact .passes fun _ => rfl
  | some key => exact .here (.missing key) fun _ => rfl

/-! The rest of a check is about alternatives and parts. -/

/-- A value passes wherever it is, or nowhere. -/
theorem check_ok_congr (hs : s.WellFormed) (hx : x.WellFormed) (path path' : Path) :
    Schema.check path x (Schema.ofJson s) = .ok () ↔ Schema.check path' x (Schema.ofJson s) = .ok () :=
  (check_iff_satisfies hs path hx).trans (check_iff_satisfies hs path' hx).symm

theorem part (hs : s.WellFormed) (hx : x.WellFormed) {step : PathStep} (hpart : v.part? step = some x)
    (hschema : schema.partSchema? step = some s) :
    Finding schema v fun path => Schema.check (step :: path) x (Schema.ofJson s) := by
  by_cases h : Schema.check [] x (Schema.ofJson s) = .ok ()
  · exact .passes fun path => (check_ok_congr hs hx _ []).mpr h
  · exact .below step x s hpart hschema (fun path hok => h ((check_ok_congr hs hx path []).mp hok)) fun path => rfl

theorem checkAlternatives (hv : v.WellFormed) {options : Option (List Json)}
    (hoptions : ∀ ss, options = some ss → ∀ o ∈ ss, o.WellFormed) (hnext : Finding schema v next) :
    Finding schema v fun path => Schema.checkAlternatives path v (options.map Schema.ofItems) (next path) := by
  cases options with
  | none => exact hnext
  | some ss =>
    have hadmits (path : Path) :
        Schema.admitsAny path v (Schema.ofItems ss) = Schema.admitsAny [] v (Schema.ofItems ss) := by
      rw [Bool.eq_iff_iff, Schema.admitsAny_iff, Schema.admitsAny_iff, Schema.ofItems_eq]
      simp only [List.mem_map, exists_exists_and_eq_and]
      exact exists_congr fun o => and_congr_right fun ho => check_ok_congr (hoptions ss rfl o ho) hv path []
    simp only [Option.map_some, Schema.checkAlternatives, hadmits]
    exact guard hnext

theorem checkEach {check : Path → Json → Except SchemaError Unit} {index : Nat} {items : List Json}
    (h : ∀ i x, items[i]? = some x → Finding schema v fun path => check (.item (index + i) :: path) x) :
    Finding schema v fun path => ScriptAgent.checkEach check path index items := by
  induction items generalizing index with
  | nil => exact .passes fun path => rfl
  | cons x rest ih =>
    refine (h 0 x rfl).andThen (ih fun i y hy => ?_)
    rw [Nat.add_right_comm, Nat.add_assoc]
    exact h (i + 1) y hy

theorem checkFields {check : Path → String → Json → Except SchemaError Unit} {fields : List (String × Json)}
    (h : ∀ e ∈ fields, Finding schema v fun path => check path e.1 e.2) :
    Finding schema v fun path => ScriptAgent.checkFields (check path) fields := by
  induction fields with
  | nil => exact .passes fun path => rfl
  | cons entry rest ih =>
    obtain ⟨hfirst, hrest⟩ := List.forall_mem_cons.mp h
    exact hfirst.andThen (ih hrest)

theorem checkField (hkws : (Json.obj kws).WellFormed) (hx : x.WellFormed) (hpart : v.part? (.field key) = some x) :
    Finding (.obj kws) v fun path =>
      let undeclared : Except SchemaError Unit :=
        if (Schema.simpleOf kws).closed then .error ⟨path, .unexpected key⟩
        else
          match (Schema.partsOf kws).extra with
          | some schema => Schema.check (.field key :: path) x schema
          | none => pure ()
      match (Schema.partsOf kws).properties with
      | some declared => Schema.checkDeclared path key x undeclared declared
      | none => undeclared := by
  -- a field that is not declared may be forbidden, or checked with the schema for all others
  have hundeclared (hnone : (Json.obj kws).declared? key = none) : Finding (.obj kws) v fun path =>
      if (Schema.simpleOf kws).closed then .error ⟨path, .unexpected key⟩
      else
        match (Schema.partsOf kws).extra with
        | some schema => Schema.check (.field key :: path) x schema
        | none => pure () := by
    refine guard ?_
    have hextra : (Schema.partsOf kws).extra = ((Dict.get? kws "additionalProperties").bind Json.fields?).map
      fun keywords => Schema.ofJson (.obj keywords) := rfl
    rw [hextra]
    cases hadditional : (Dict.get? kws "additionalProperties").bind Json.fields? with
    | none => exact .passes fun path => rfl
    | some keywords =>
      have hget := Json.bind_fields?_eq_some.mp hadditional
      exact part (hkws.get? hget) hx hpart (Option.or_eq_some_iff.mpr (.inr ⟨hnone, hget⟩))
  have hproperties : (Schema.partsOf kws).properties =
    ((Dict.get? kws "properties").bind Json.fields?).map Schema.ofFields := rfl
  have hdeclared? := Json.declared?_obj kws key
  rw [hproperties]
  cases hall : (Dict.get? kws "properties").bind Json.fields? with
  | none =>
    rw [hall] at hdeclared?
    exact hundeclared hdeclared?
  | some declared =>
    rw [hall, Option.bind_some] at hdeclared?
    simp only [Option.map_some, Schema.checkDeclared_eq, Schema.ofFields_eq, Dict.get?_mapValues]
    cases hget : Dict.get? declared key with
    | none => exact hundeclared (hdeclared?.trans hget)
    | some s =>
      have hs := hdeclared?.trans hget
      exact part (hkws.declared? hs) hx hpart (Option.or_eq_some_iff.mpr (.inl hs))

theorem checkInside (hkws : (Json.obj kws).WellFormed) (hv : v.WellFormed) :
    Finding (.obj kws) v fun path => Schema.checkInside path (Schema.partsOf kws) v := by
  cases hv with
  | null | bool => exact .passes fun path => rfl
  | num hn => exact checkNumber _ _
  | str text => exact checkLength _ _
  | @arr items each =>
    refine (checkCount _ _).andThen ?_
    have hitems : (Schema.partsOf kws).items = (Dict.get? kws "items").map Schema.ofJson := rfl
    rw [hitems]
    cases hs : Dict.get? kws "items" with
    | none => exact .passes fun path => rfl
    | some s =>
      refine checkEach fun i x hx => ?_
      rw [Nat.zero_add]
      exact part (hkws.get? hs) (each x (List.mem_of_getElem? hx)) hx hs
  | @obj fields ordered each =>
    refine (checkRequired _ _).andThen (checkFields fun entry hentry => ?_)
    exact checkField hkws (each entry hentry) (ordered.get?_of_mem hentry)

end Finding

/-- What checking a value by a schema comes to. -/
theorem finding_check (hschema : schema.WellFormed) (hv : v.WellFormed) :
    Finding schema v fun path => Schema.check path v (Schema.ofJson schema) := by
  cases schema with
  | obj kws =>
    have hkws := (Json.formed_obj_iff.mp hschema).1
    simp only [Schema.ofJson_obj hkws.nodup, Schema.check_toSchema]
    have hoptions (name : String) (ss : List Json) (hss : (Dict.get? kws name).bind Json.items? = some ss) :
        ∀ o ∈ ss, o.WellFormed :=
      Json.formed_arr_iff.mp (hschema.get? (Json.bind_items?_eq_some.mp hss))
    refine .checkAlternatives hv (hoptions "anyOf") (.checkAlternatives hv (hoptions "oneOf") ?_)
    exact (Finding.checkWhole _).andThen (Finding.checkInside hschema hv)
  | bool allowed =>
    cases allowed with
    | true => exact .passes fun path => rfl
    | false => exact .here .forbidden fun path => rfl
  | _ => exact .passes fun path => rfl

/-! ### The whole chain -/

/-- A check that fails does so at the end of a chain, where the part fails by its own schema in the same way. -/
theorem leads_of_check (hschema : schema.WellFormed) (hv : v.WellFormed)
    (h : Schema.check path v (Schema.ofJson schema) = .error e) :
    ∃ steps s x, Leads schema v steps s x ∧ e.path = steps.reverse ++ path ∧
      ∀ place, Schema.check place x (Schema.ofJson s) = .error ⟨place, e.violation⟩ := by
  -- each step goes to a schema that is in the one before
  induction schema using Subschema.induction generalizing v path with
  | step schema ih =>
    cases finding_check hschema hv with
    | passes hpasses => exact absurd (h.symm.trans (hpasses path)) nofun
    | here violation hhere =>
      obtain rfl : e = ⟨path, violation⟩ := Except.error.inj (h.symm.trans (hhere path))
      exact ⟨[], schema, v, .here, rfl, hhere⟩
    | below step x s hpart hs _ hbelow =>
      have hsub := Subschema.of_partSchema? hs
      obtain ⟨steps, t, y, hleads, hpath, hfails⟩ :=
        ih s hsub (hsub.formed hschema) (hv.part? hpart) ((hbelow path).symm.trans h)
      refine ⟨step :: steps, t, y, .down hs hpart hleads, ?_, hfails⟩
      rw [hpath, List.reverse_cons, List.append_assoc, List.singleton_append]

/-- What an error points at.  Its place is a chain of keys and indices that the value and the schema both have, and the
part that it leads to fails by the schema for that part, as a whole and with the violation that is reported. -/
theorem validate_error_culprit (hschema : schema.WellFormed) (hv : v.WellFormed) (h : validate schema v = .error e) :
    ∃ steps s x, Leads schema v steps s x ∧ e.path = steps.reverse ∧
      e.path.render = "$" ++ String.join (steps.map PathStep.text) ∧ validate s x = .error ⟨[], e.violation⟩ := by
  obtain ⟨steps, s, x, hleads, hpath, hfails⟩ := leads_of_check hschema hv h
  refine ⟨steps, s, x, hleads, by rw [hpath, List.append_nil], ?_, hfails []⟩
  rw [hpath, Path.render_append]
  rfl

/-- Teams of persons by name. -/
def teamsSchema : Json :=
  .obj [("additionalProperties", .obj [("items", personSchema)])]

/-- A team of which the second member is not born yet. -/
def unbornTeam : Json :=
  .obj [("red", .arr [.obj [("age", .int 36)], .obj [("age", .int (-1))]])]

theorem unborn_culprit :
    validate teamsSchema unbornTeam = .error ⟨[.field "age", .item 1, .field "red"], .below 0⟩ ∧
      ∃ steps s x, Leads teamsSchema unbornTeam steps s x ∧
        [.field "age", .item 1, .field "red"] = steps.reverse ∧
        Path.render [.field "age", .item 1, .field "red"] = "$" ++ String.join (steps.map PathStep.text) ∧
        validate s x = .error ⟨[], .below 0⟩ := by
  have hschema : teamsSchema.WellFormed := by
    simp [teamsSchema, personSchema, Json.int, Numeral.WellFormed]
    decide
  have hv : unbornTeam.WellFormed := by
    simp [unbornTeam, Json.int, Numeral.WellFormed]
    decide
  have h : validate teamsSchema unbornTeam = .error ⟨[.field "age", .item 1, .field "red"], .below 0⟩ := rfl
  exact ⟨h, validate_error_culprit hschema hv h⟩

example : (SchemaError.mk [.field "age", .item 1, .field "red"] (.below 0)).render = "$.red[1].age: must be >= 0" := by
  decide +kernel

end ScriptAgent
