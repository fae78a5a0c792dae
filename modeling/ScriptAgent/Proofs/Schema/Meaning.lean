import Mathlib.Logic.Relation
import ScriptAgent.Proofs.Schema.Checking

/-!
# What schemas mean

A schema is satisfied by data, whatever form the numbers of a value have.  In the standard reading of the keywords
numbers are compared exactly, a size may be written as any whole number, and a value satisfies exactly one of the
alternatives of `oneOf`.  Checks read schemas in another way, in which numbers are rounded to doubles, sizes are
written as integers, and one alternative is enough.  Where these do not matter checks keep to the standard.
-/

namespace ScriptAgent

/-! ### Keywords -/

/-- A way of reading schemas. -/
structure Reading where
  /-- What a number is worth. -/
  worth : Numeral → ℚ
  /-- The sizes that a number stands for. -/
  size : Numeral → ℕ → Prop
  /-- Whether it is too much if a value satisfies two alternatives of `oneOf`. -/
  exclusive : Prop

namespace Reading

/-- The standard reading of schemas. -/
def standard : Reading where
  worth := Numeral.toRat
  size n k := n.toRat = k
  exclusive := True

/-- The reading of checks. -/
def asChecked : Reading where
  worth := Numeral.rounded
  size n k := n = .int k
  exclusive := False

end Reading

/-- The types that a schema can name. -/
def knownTypes : List String :=
  ["null", "boolean", "number", "integer", "string", "array", "object"]

/-- Data of a named type. -/
def Datum.HasType : Datum → String → Prop
  | .null, name => name = "null"
  | .bool _, name => name = "boolean"
  | .num q, name => name = "number" ∨ name = "integer" ∧ ∃ k : ℤ, q = k
  | .str _, name => name = "string"
  | .arr _, name => name = "array"
  | .obj _, name => name = "object"

variable {R R' : Reading} {kws : Dict Json} {schema s v : Json} {d : Datum} {key : String} {q : ℚ} {n : ℕ}

/-- What is asked of a value as a whole.  A `type` that names no types, or others than those that are known, asks for
nothing. -/
structure Whole (R : Reading) (kws : Dict Json) (d : Datum) : Prop where
  type : ∀ t, kws.get? "type" = some t → t.typeNames ≠ [] → (∀ name ∈ t.typeNames, name ∈ knownTypes) →
    ∃ name ∈ t.typeNames, d.HasType name
  enum : ∀ choices, kws.get? "enum" = some (.arr choices) → ∃ c ∈ choices, c.meaning R.worth = d
  const : ∀ c, kws.get? "const" = some c → c.meaning R.worth = d

/-- What is asked of a number. -/
structure Bounded (R : Reading) (kws : Dict Json) (q : ℚ) : Prop where
  minimum : ∀ b, kws.get? "minimum" = some (.num b) → R.worth b ≤ q
  maximum : ∀ b, kws.get? "maximum" = some (.num b) → q ≤ R.worth b
  exclusiveMinimum : ∀ b, kws.get? "exclusiveMinimum" = some (.num b) → R.worth b < q
  exclusiveMaximum : ∀ b, kws.get? "exclusiveMaximum" = some (.num b) → q < R.worth b

/-- What two keywords ask of the size of a text or of an array. -/
structure Sized (R : Reading) (kws : Dict Json) (least most : String) (n : ℕ) : Prop where
  least : ∀ b k, kws.get? least = some (.num b) → R.size b k → k ≤ n
  most : ∀ b k, kws.get? most = some (.num b) → R.size b k → n ≤ k

/-- The fields that an object must have are there. -/
def HasRequired (kws : Dict Json) (fields : Dict Datum) : Prop :=
  ∀ names name, kws.get? "required" = some (.arr names) → .str name ∈ names → name ∈ fields.keys

/-! ### Schemas in schemas -/

/-- A schema that a schema refers to. -/
inductive Subschema : Json → Json → Prop
  | anyOf {kws : List (String × Json)} {options : List Json} (h : Dict.get? kws "anyOf" = some (.arr options))
      {s : Json} (hs : s ∈ options) : Subschema s (.obj kws)
  | oneOf {kws : List (String × Json)} {options : List Json} (h : Dict.get? kws "oneOf" = some (.arr options))
      {s : Json} (hs : s ∈ options) : Subschema s (.obj kws)
  | items {kws : List (String × Json)} {s : Json} (h : Dict.get? kws "items" = some s) : Subschema s (.obj kws)
  | property {kws : List (String × Json)} {key : String} {s : Json} (h : (Json.obj kws).declared? key = some s) :
      Subschema s (.obj kws)
  | additional {kws : List (String × Json)} {s : Json} (h : Dict.get? kws "additionalProperties" = some s) :
      Subschema s (.obj kws)

theorem sizeOf_lt_of_get? {fields : List (String × Json)} (h : Dict.get? fields key = some v) :
    sizeOf v < sizeOf (Json.obj fields) := by
  have hmem := Dict.mem_of_get? h
  have hlt := List.sizeOf_lt_of_mem hmem
  rw [Json.obj.sizeOf_spec]
  have hpair : sizeOf (key, v) = 1 + sizeOf key + sizeOf v := rfl
  omega

theorem Subschema.sizeOf_lt (h : Subschema s schema) : sizeOf s < sizeOf schema := by
  cases h with
  | anyOf h hs | oneOf h hs =>
    have hlt := sizeOf_lt_of_get? h
    have hmem := List.sizeOf_lt_of_mem hs
    rw [Json.arr.sizeOf_spec] at hlt
    omega
  | items h | additional h => exact sizeOf_lt_of_get? h
  | @property kws key s h =>
    obtain ⟨declared, hdeclared, hs⟩ := Option.bind_eq_some_iff.mp (Json.declared?_obj kws _ ▸ h)
    have hdeclared := Json.bind_fields?_eq_some.mp hdeclared
    exact (sizeOf_lt_of_get? hs).trans (sizeOf_lt_of_get? hdeclared)

/-- Data that satisfy a schema in some reading. -/
def Satisfies (R : Reading) : Json → Datum → Prop
  | .bool allowed, _ => allowed = true
  | .obj kws, d =>
    (∀ options, (_ : Dict.get? kws "anyOf" = some (.arr options)) → ∃ s, ∃ _ : s ∈ options, Satisfies R s d) ∧
      (∀ options, (_ : Dict.get? kws "oneOf" = some (.arr options)) →
        (∃ s, ∃ _ : s ∈ options, Satisfies R s d) ∧
          (R.exclusive → ∀ i j, (hi : i < options.length) → (hj : j < options.length) →
            Satisfies R options[i] d → Satisfies R options[j] d → i = j)) ∧
      Whole R kws d ∧
      match d with
      | .num q => Bounded R kws q
      | .str text => Sized R kws "minLength" "maxLength" text.length
      | .arr items => Sized R kws "minItems" "maxItems" items.length ∧
        ∀ s, (_ : Dict.get? kws "items" = some s) → ∀ x ∈ items, Satisfies R s x
      | .obj fields => HasRequired kws fields ∧ ∀ key x, Dict.get? fields key = some x →
        (∀ s, (_ : (Json.obj kws).declared? key = some s) → Satisfies R s x) ∧
          ((Json.obj kws).declared? key = none →
            ∀ s, (_ : Dict.get? kws "additionalProperties" = some s) → Satisfies R s x)
      | _ => True
  | _, _ => True
termination_by schema => sizeOf schema
decreasing_by
  · exact (Subschema.anyOf ‹_› ‹_›).sizeOf_lt
  · exact (Subschema.oneOf ‹_› ‹_›).sizeOf_lt
  · exact (Subschema.oneOf ‹_› (List.getElem_mem _)).sizeOf_lt
  · exact (Subschema.oneOf ‹_› (List.getElem_mem _)).sizeOf_lt
  · exact (Subschema.items ‹_›).sizeOf_lt
  · exact (Subschema.property ‹_›).sizeOf_lt
  · exact (Subschema.additional ‹_›).sizeOf_lt

theorem satisfies_bool {allowed : Bool} : Satisfies R (.bool allowed) d ↔ allowed = true := by
  rw [Satisfies]

theorem satisfies_obj : Satisfies R (.obj kws) d ↔
    (∀ options, kws.get? "anyOf" = some (.arr options) → ∃ s ∈ options, Satisfies R s d) ∧
      (∀ options, kws.get? "oneOf" = some (.arr options) → (∃ s ∈ options, Satisfies R s d) ∧
        (R.exclusive → ∀ i j (hi : i < options.length) (hj : j < options.length),
          Satisfies R options[i] d → Satisfies R options[j] d → i = j)) ∧
      Whole R kws d ∧
      match d with
      | .num q => Bounded R kws q
      | .str text => Sized R kws "minLength" "maxLength" text.length
      | .arr items => Sized R kws "minItems" "maxItems" items.length ∧
        ∀ s, kws.get? "items" = some s → ∀ x ∈ items, Satisfies R s x
      | .obj fields => HasRequired kws fields ∧ ∀ key x, Dict.get? fields key = some x →
        (∀ s, (Json.obj kws).declared? key = some s → Satisfies R s x) ∧
          ((Json.obj kws).declared? key = none → ∀ s, kws.get? "additionalProperties" = some s → Satisfies R s x)
      | _ => True := by
  cases d <;> simp only [Satisfies, exists_prop]

/-- What holds of a schema if it holds of those it refers to holds of all schemas. -/
theorem Subschema.induction {P : Json → Prop} (step : ∀ schema, (∀ s, Subschema s schema → P s) → P schema)
    (schema : Json) : P schema :=
  step schema fun s _ => Subschema.induction step s
termination_by sizeOf schema
decreasing_by exact Subschema.sizeOf_lt ‹_›

theorem Subschema.formed {P : Numeral → Prop} (hs : Subschema s schema) (h : schema.Formed P) : s.Formed P := by
  cases hs with
  | anyOf hget hs | oneOf hget hs => exact Json.formed_arr_iff.mp (h.get? hget) _ hs
  | items hget | additional hget => exact h.get? hget
  | property hget => exact h.declared? hget

/-! ### Checks -/

theorem hasType_of_unknown {name : String} (h : name ∉ knownTypes) (v : Json) : v.hasType name = true := by
  simp only [knownTypes, List.mem_cons, List.not_mem_nil, or_false, not_or] at h
  simp [Json.hasType, h]

theorem hasType_iff {name : String} (hv : v.WellFormed) (h : name ∈ knownTypes) :
    v.hasType name = true ↔ v.rounded.HasType name := by
  simp only [knownTypes, List.mem_cons, List.not_mem_nil, or_false] at h
  rcases h with rfl | rfl | rfl | rfl | rfl | rfl | rfl <;> cases hv with
  | num hn => simp [Json.hasType, Json.typeName, Json.rounded, Datum.HasType, hn.isWhole_iff]
  | _ => simp [Json.hasType, Json.typeName, Json.rounded, Datum.HasType]

theorem whole_iff (hkws : (Json.obj kws).WellFormed) (hv : v.WellFormed) (path : Path) :
    (Schema.simpleOf kws).checkWhole path v = .ok () ↔ Whole .asChecked kws v.rounded := by
  have same_iff {name : String} {c : Json} (hget : kws.get? name = some c) :
      Json.same c v = true ↔ c.rounded = v.rounded := Json.same_iff (hkws.get? hget) hv
  rw [SimpleRules.checkWhole_iff]
  constructor
  · rintro ⟨htype, henum, hconst⟩
    refine ⟨fun t ht hne hknown => ?_, fun choices hchoices => ?_, fun c hc => ?_⟩
    · have htypes : (Schema.simpleOf kws).types = t.typeNames := by simp [Schema.simpleOf, ht]
      obtain ⟨name, hname, h⟩ := htype (htypes ▸ hne)
      rw [htypes] at hname
      exact ⟨name, hname, (hasType_iff hv (hknown name hname)).mp h⟩
    · obtain ⟨c, hc, h⟩ := henum choices (by simp [Schema.simpleOf, hchoices, Json.items?])
      have hformed := Json.formed_arr_iff.mp (hkws.get? hchoices) c hc
      exact ⟨c, hc, (Json.same_iff hformed hv).mp h⟩
    · exact (same_iff hc).mp (hconst c hc)
  · rintro ⟨htype, henum, hconst⟩
    refine ⟨fun hne => ?_, fun choices hc => ?_, fun c hc => ?_⟩
    · cases ht : kws.get? "type" with
      | none => simp [Schema.simpleOf, ht] at hne
      | some t =>
        have htypes : (Schema.simpleOf kws).types = t.typeNames := by simp [Schema.simpleOf, ht]
        rw [htypes] at hne ⊢
        -- a name that is not known lets every value pass
        by_cases hknown : ∀ name ∈ t.typeNames, name ∈ knownTypes
        · obtain ⟨name, hname, h⟩ := htype t ht hne hknown
          exact ⟨name, hname, (hasType_iff hv (hknown name hname)).mpr h⟩
        · obtain ⟨name, hname, hunknown⟩ : ∃ name ∈ t.typeNames, name ∉ knownTypes := by
            simpa using hknown
          exact ⟨name, hname, hasType_of_unknown hunknown v⟩
    · have hget : kws.get? "enum" = some (.arr choices) := Json.bind_items?_eq_some.mp hc
      obtain ⟨c, hc, h⟩ := henum choices hget
      have hformed := Json.formed_arr_iff.mp (hkws.get? hget) c hc
      exact ⟨c, hc, (Json.same_iff hformed hv).mpr h⟩
    · exact (same_iff hc).mpr (hconst c hc)

/-- A bound does not refuse a number just if it does not do so rounded. -/
theorem bound_iff (name : String) (refuses : Float → Prop) (allows : Numeral → Prop) (hkws : (Json.obj kws).WellFormed)
    (h : ∀ b : Numeral, b.WellFormed → (¬ refuses b.toFloat ↔ allows b)) :
    (∀ b, (kws.get? name).bind Json.float? = some b → ¬ refuses b) ↔
      ∀ b, kws.get? name = some (.num b) → allows b := by
  cases hget : kws.get? name with
  | none => simp
  | some w =>
    cases w with
    | num b => simpa [Json.float?] using h b (Json.formed_num_iff.mp (hkws.get? hget))
    | _ => simp [Json.float?]

theorem bounded_iff (hkws : (Json.obj kws).WellFormed) {n : Numeral} (hn : n.WellFormed) (path : Path) :
    (Schema.simpleOf kws).checkNumber path n.toFloat = .ok () ↔ Bounded .asChecked kws n.rounded := by
  rw [SimpleRules.checkNumber_iff]
  have hmin := bound_iff "minimum" (n.toFloat < ·) (·.rounded ≤ n.rounded) hkws fun b hb => by
    rw [Number.lt_iff hn.finite hb.finite]
    exact not_lt
  have hmax := bound_iff "maximum" (n.toFloat > ·) (n.rounded ≤ ·.rounded) hkws fun b hb => by
    rw [gt_iff_lt, Number.lt_iff hb.finite hn.finite]
    exact not_lt
  have hexmin := bound_iff "exclusiveMinimum" (n.toFloat ≤ ·) (·.rounded < n.rounded) hkws fun b hb => by
    rw [Number.le_iff hn.finite hb.finite]
    exact not_le
  have hexmax := bound_iff "exclusiveMaximum" (n.toFloat ≥ ·) (n.rounded < ·.rounded) hkws fun b hb => by
    rw [ge_iff_le, Number.le_iff hb.finite hn.finite]
    exact not_le
  exact ⟨fun ⟨h₁, h₂, h₃, h₄⟩ => ⟨hmin.mp h₁, hmax.mp h₂, hexmin.mp h₃, hexmax.mp h₄⟩,
    fun ⟨h₁, h₂, h₃, h₄⟩ => ⟨hmin.mpr h₁, hmax.mpr h₂, hexmin.mpr h₃, hexmax.mpr h₄⟩⟩

theorem size_iff (name : String) (allows : ℕ → Prop) :
    (∀ b, (kws.get? name).bind Json.nat? = some b → allows b) ↔
      ∀ b k, kws.get? name = some (.num b) → Reading.asChecked.size b k → allows k := by
  cases kws.get? name with
  | none => simp
  | some w =>
    cases w with
    | num b =>
      have hnat (k : ℕ) : b.toNat? = some k ↔ b = .int k := by
        cases b with
        | int m =>
          rw [Numeral.toNat?, Numeral.int.injEq]
          split
          · rw [Option.some_inj]
            omega
          · exact iff_of_false (fun h => nomatch h) fun h => by omega
        | float x => simp [Numeral.toNat?]
      simp only [Option.bind_some, Json.nat?, hnat, Option.some_inj, Json.num.injEq]
      exact ⟨fun h b' k hb hk => h k (hb.trans hk), fun h k hk => h b k rfl hk⟩
    | _ => simp [Json.nat?]

theorem length_iff (length : ℕ) (path : Path) :
    (Schema.simpleOf kws).checkLength path length = .ok () ↔ Sized .asChecked kws "minLength" "maxLength" length := by
  rw [SimpleRules.checkLength_iff]
  have hmin := @size_iff kws "minLength" (· ≤ length)
  have hmax := @size_iff kws "maxLength" (length ≤ ·)
  exact ⟨fun ⟨h₁, h₂⟩ => ⟨hmin.mp h₁, hmax.mp h₂⟩, fun ⟨h₁, h₂⟩ => ⟨hmin.mpr h₁, hmax.mpr h₂⟩⟩

theorem count_iff (count : ℕ) (path : Path) :
    (Schema.simpleOf kws).checkCount path count = .ok () ↔ Sized .asChecked kws "minItems" "maxItems" count := by
  rw [SimpleRules.checkCount_iff]
  have hmin := @size_iff kws "minItems" (· ≤ count)
  have hmax := @size_iff kws "maxItems" (count ≤ ·)
  exact ⟨fun ⟨h₁, h₂⟩ => ⟨hmin.mp h₁, hmax.mp h₂⟩, fun ⟨h₁, h₂⟩ => ⟨hmin.mpr h₁, hmax.mpr h₂⟩⟩

theorem required_iff (fields : Dict Json) (path : Path) :
    (Schema.simpleOf kws).checkRequired path fields = .ok () ↔ HasRequired kws (fields.mapValues Json.rounded) := by
  rw [SimpleRules.checkRequired_iff, HasRequired, Dict.keys_mapValues]
  have hmem (key : String) : key ∈ (Schema.simpleOf kws).required ↔
      ∃ names, kws.get? "required" = some (.arr names) ∧ .str key ∈ names := by
    have hstr (w : Json) : w.str? = some key ↔ w = .str key := by cases w <;> simp [Json.str?]
    simp only [Schema.simpleOf, List.mem_filterMap, hstr]
    cases h : (kws.get? "required").bind Json.items? with
    | none =>
      refine iff_of_false (by simp) ?_
      rintro ⟨names, hnames, -⟩
      rw [Json.bind_items?_eq_some.mpr hnames] at h
      cases h
    | some names => simp [Json.bind_items?_eq_some.mp h]
  simp only [hmem]
  constructor
  · intro h names key hnames hkey
    exact h key ⟨names, hnames, hkey⟩
  · rintro h key ⟨names, hnames, hkey⟩
    exact h names key hnames hkey

/-- A check passes just if the value, its numbers rounded to doubles, satisfies the schema as checks read it. -/
theorem check_iff_satisfies (hschema : schema.WellFormed) (path : Path) (hv : v.WellFormed) :
    Schema.check path v (Schema.ofJson schema) = .ok () ↔ Satisfies .asChecked schema v.rounded := by
  -- both sides ask the same of the keywords of one schema; all else is about the schemas that it refers to
  induction schema using Subschema.induction generalizing path v with
  | step schema ih =>
    cases schema with
    | bool allowed => cases allowed <;> simp [Schema.ofJson, satisfies_bool]
    | obj kws =>
      have hkws := (Json.formed_obj_iff.mp hschema).1
      rw [Schema.check_obj_iff hkws.nodup, satisfies_obj]
      have ih {s w : Json} (hs : Subschema s (.obj kws)) (hw : w.WellFormed) (place : Path) :
          Schema.check place w (Schema.ofJson s) = .ok () ↔ Satisfies .asChecked s w.rounded :=
        ih s hs (hs.formed hschema) place hw
      refine and_congr ?_ (and_congr ?_ (and_congr (whole_iff hschema hv path) ?_))
      · exact forall₂_congr fun options h => exists_congr fun s => and_congr_right fun hs => ih (.anyOf h hs) hv path
      · refine forall₂_congr fun options h => ?_
        -- checks ask for no more than one alternative
        rw [and_iff_left fun hfalse => hfalse.elim]
        exact exists_congr fun s => and_congr_right fun hs => ih (.oneOf h hs) hv path
      · cases hv with
        | null | bool => exact Iff.rfl
        | num hn => exact bounded_iff hschema hn path
        | str text => exact length_iff text.length path
        | @arr items each =>
          rw [Json.rounded_arr]
          refine and_congr ?_ (forall₂_congr fun s h => ?_)
          · rw [List.length_map]
            exact count_iff items.length path
          · simp only [List.forall_mem_map]
            constructor
            · intro hall x hx
              obtain ⟨i, hi⟩ := List.mem_iff_getElem?.mp hx
              exact (ih (.items h) (each x hx) _).mp (hall i x hi)
            · intro hall i x hi
              have hx := List.mem_of_getElem? hi
              exact (ih (.items h) (each x hx) _).mpr (hall x hx)
        | @obj fields ordered each =>
          rw [Json.rounded_obj]
          refine and_congr (required_iff fields path) ?_
          have hfield {key : String} {x : Json} (hx : (key, x) ∈ fields) :
              ((∀ s, (Json.obj kws).declared? key = some s →
                  Schema.check (.field key :: path) x (Schema.ofJson s) = .ok ()) ∧
                ((Json.obj kws).declared? key = none → ∀ s, Dict.get? kws "additionalProperties" = some s →
                  Schema.check (.field key :: path) x (Schema.ofJson s) = .ok ())) ↔
              (∀ s, (Json.obj kws).declared? key = some s → Satisfies .asChecked s x.rounded) ∧
                ((Json.obj kws).declared? key = none → ∀ s, Dict.get? kws "additionalProperties" = some s →
                  Satisfies .asChecked s x.rounded) :=
            and_congr (forall₂_congr fun s h => ih (.property h) (each _ hx) _)
              (imp_congr_right fun _ => forall₂_congr fun s h => ih (.additional h) (each _ hx) _)
          constructor
          · intro hall key y hy
            obtain ⟨x, hx, rfl⟩ := Option.map_eq_some_iff.mp (Dict.get?_mapValues Json.rounded fields key ▸ hy)
            have hmem := Dict.mem_of_get? hx
            exact (hfield hmem).mp (hall _ hmem)
          · intro hall e he
            have hget : Dict.get? (Dict.mapValues Json.rounded fields) e.1 = some e.2.rounded := by
              rw [Dict.get?_mapValues, ordered.get?_of_mem he, Option.map_some]
            exact (hfield he).mpr (hall e.1 _ hget)
    | _ => simp [Schema.ofJson, Satisfies]

/-- A check does not tell apart values that deep equality has for the same. -/
theorem validate_congr (hschema : schema.WellFormed) {w : Json} (hv : v.WellFormed) (hw : w.WellFormed)
    (h : v.rounded = w.rounded) : validate schema v = .ok () ↔ validate schema w = .ok () := by
  rw [validate, check_iff_satisfies hschema [] hv, h, ← check_iff_satisfies hschema [] hw]
  rfl

/-! ### Two readings -/

/-- What holds of the keywords of a schema and of all schemas in it. -/
inductive Throughout (P : Dict Json → Prop) : Json → Prop
  | intro {schema : Json} (here : ∀ kws, schema = .obj kws → P kws) (below : ∀ s, Subschema s schema → Throughout P s) :
      Throughout P schema

theorem Throughout.mono {P Q : Dict Json → Prop} (hPQ : ∀ kws, P kws → Q kws) (h : Throughout P schema) :
    Throughout Q schema := by
  induction h with
  | intro here below ih => exact .intro (fun kws hkws => hPQ kws (here kws hkws)) ih

theorem throughout_of_forall {P : Dict Json → Prop} (h : ∀ kws, P kws) (schema : Json) : Throughout P schema := by
  induction schema using Subschema.induction with
  | step schema ih => exact .intro (fun kws _ => h kws) ih

/-- The keywords whose values are sizes. -/
def sizeKeywords : List String :=
  ["minLength", "maxLength", "minItems", "maxItems"]

/-- At most one alternative of `oneOf` is satisfied at a time. -/
def Exclusive (R : Reading) (kws : Dict Json) : Prop :=
  ∀ options, kws.get? "oneOf" = some (.arr options) → ∀ i j (hi : i < options.length) (hj : j < options.length) d,
    Satisfies R options[i] d → Satisfies R options[j] d → i = j

/-- Keywords by which one reading asks for all that another asks for, if numbers are worth the same. -/
structure Covers (R R' : Reading) (kws : Dict Json) : Prop where
  sizes : ∀ name ∈ sizeKeywords, ∀ b k, kws.get? name = some (.num b) → R'.size b k → R.size b k
  alternatives : R'.exclusive → Exclusive R' kws

theorem Whole.of_worth (hworth : (Json.obj kws).Formed fun n => R.worth n = R'.worth n) (h : Whole R kws d) :
    Whole R' kws d := by
  refine ⟨h.type, fun choices hchoices => ?_, fun c hc => ?_⟩
  · obtain ⟨c, hc, heq⟩ := h.enum choices hchoices
    exact ⟨c, hc, (Json.formed_arr_iff.mp (hworth.get? hchoices) c hc).meaning_congr ▸ heq⟩
  · exact (hworth.get? hc).meaning_congr ▸ h.const c hc

theorem Bounded.of_worth (hworth : (Json.obj kws).Formed fun n => R.worth n = R'.worth n) (h : Bounded R kws q) :
    Bounded R' kws q := by
  have worth {name : String} {b : Numeral} (hb : kws.get? name = some (.num b)) : R.worth b = R'.worth b :=
    Json.formed_num_iff.mp (hworth.get? hb)
  exact ⟨fun b hb => worth hb ▸ h.minimum b hb, fun b hb => worth hb ▸ h.maximum b hb,
    fun b hb => worth hb ▸ h.exclusiveMinimum b hb, fun b hb => worth hb ▸ h.exclusiveMaximum b hb⟩

theorem Sized.of_covers {least most : String} (hleast : least ∈ sizeKeywords) (hmost : most ∈ sizeKeywords)
    (hcovers : Covers R R' kws) (h : Sized R kws least most n) : Sized R' kws least most n :=
  ⟨fun b k hb hk => h.least b k hb (hcovers.sizes least hleast b k hb hk),
    fun b k hb hk => h.most b k hb (hcovers.sizes most hmost b k hb hk)⟩

/-- A reading that covers another throughout a schema is the stronger one. -/
theorem Satisfies.of_covers (hworth : schema.Formed fun n => R.worth n = R'.worth n)
    (hcovers : Throughout (Covers R R') schema) (h : Satisfies R schema d) : Satisfies R' schema d := by
  induction hcovers generalizing d with
  | @intro schema here below ih =>
    cases schema with
    | bool allowed => exact satisfies_bool.mpr (satisfies_bool.mp h)
    | obj kws =>
      have hkws := here kws rfl
      have ih {s : Json} {x : Datum} (hs : Subschema s (.obj kws)) (hx : Satisfies R s x) : Satisfies R' s x :=
        ih s hs (hs.formed hworth) hx
      rw [satisfies_obj] at h ⊢
      obtain ⟨hany, hone, hwhole, hinside⟩ := h
      refine ⟨fun options hget => ?_, fun options hget => ⟨?_, ?_⟩, hwhole.of_worth hworth, ?_⟩
      · obtain ⟨s, hs, hsat⟩ := hany options hget
        exact ⟨s, hs, ih (.anyOf hget hs) hsat⟩
      · obtain ⟨⟨s, hs, hsat⟩, -⟩ := hone options hget
        exact ⟨s, hs, ih (.oneOf hget hs) hsat⟩
      · exact fun hexclusive i j hi hj => hkws.alternatives hexclusive options hget i j hi hj d
      · cases d with
        | null | bool => trivial
        | num q => exact hinside.of_worth hworth
        | str text => exact hinside.of_covers (by decide) (by decide) hkws
        | arr items =>
          exact ⟨hinside.1.of_covers (by decide) (by decide) hkws,
            fun s hget x hx => ih (.items hget) (hinside.2 s hget x hx)⟩
        | obj fields =>
          refine ⟨hinside.1, fun key x hx => ?_⟩
          obtain ⟨hdeclared, hundeclared⟩ := hinside.2 key x hx
          exact ⟨fun s hget => ih (.property hget) (hdeclared s hget),
            fun hnone s hget => ih (.additional hget) (hundeclared hnone s hget)⟩
    | _ => simp [Satisfies]

/-! ### Where checks keep to the standard -/

/-- Keywords that checks read in the standard way, except for numbers that are no doubles. -/
structure Plain (kws : Dict Json) : Prop where
  sizes : ∀ name ∈ sizeKeywords, ∀ x, kws.get? name ≠ some (.num (.float x))
  alternatives : Exclusive .standard kws

theorem standard_covers_asChecked (kws : Dict Json) : Covers .standard .asChecked kws := by
  refine ⟨fun name _ b k _ hk => ?_, fun h => h.elim⟩
  obtain rfl : b = .int k := hk
  show ((k : ℤ) : ℚ) = k
  exact Int.cast_natCast k

theorem Plain.asChecked_covers_standard (h : Plain kws) : Covers .asChecked .standard kws := by
  refine ⟨fun name hname b k hb hk => ?_, fun _ => h.alternatives⟩
  cases b with
  | int m =>
    have hm : (m : ℚ) = (k : ℤ) := hk
    exact congrArg Numeral.int (by exact_mod_cast hm)
  | float x => exact absurd hb (h.sizes name hname x)

/-- What the validator accepts.  A value passes just if it satisfies the schema as checks read it.  If all numbers
are doubles, what satisfies the schema in the standard reading passes; and if also sizes are written as integers and
alternatives of `oneOf` exclude each other, nothing else does. -/
theorem validate_iff_satisfies (hschema : schema.WellFormed) (hv : v.WellFormed) :
    (validate schema v = .ok () ↔ Satisfies .asChecked schema v.rounded) ∧
      (schema.Formed Numeral.Exact → v.Formed Numeral.Exact →
        (Satisfies .standard schema v.exact → validate schema v = .ok ()) ∧
          (Throughout Plain schema → (validate schema v = .ok () ↔ Satisfies .standard schema v.exact))) := by
  have hchecked : validate schema v = .ok () ↔ Satisfies .asChecked schema v.rounded :=
    check_iff_satisfies hschema [] hv
  refine ⟨hchecked, fun hnumbers hexact => ?_⟩
  have hsame := Json.rounded_eq_exact hexact
  have hworth : schema.Formed fun n => Reading.asChecked.worth n = Reading.standard.worth n := hnumbers
  have hpasses (h : Satisfies .standard schema v.exact) : validate schema v = .ok () := by
    rw [hchecked, hsame]
    exact h.of_covers (hworth.mono fun _ => Eq.symm) (throughout_of_forall standard_covers_asChecked schema)
  refine ⟨hpasses, fun hplain => ⟨fun h => ?_, hpasses⟩⟩
  rw [hchecked, hsame] at h
  exact h.of_covers hworth (hplain.mono fun _ => Plain.asChecked_covers_standard)

/-- A person with an age. -/
def personSchema : Json :=
  .obj [("properties", .obj [("age", .obj [("minimum", .int 0), ("type", .str "integer")])]),
    ("required", .arr [.str "age"])]

theorem personSchema_plain : Throughout Plain personSchema := by
  have hage : Throughout Plain (.obj [("minimum", .int 0), ("type", .str "integer")]) := by
    refine .intro (fun kws hkws => ?_) fun s hs => ?_
    · obtain rfl := Json.obj.inj hkws
      exact ⟨by simp [sizeKeywords, Dict.get?], fun options h => by simp [Dict.get?] at h⟩
    · cases hs with
      | property h => simp [Json.declared?, Json.get?, Json.fields?, Dict.get?] at h
      | _ h => simp [Dict.get?] at h
  refine .intro (fun kws hkws => ?_) fun s hs => ?_
  · obtain rfl := Json.obj.inj hkws
    exact ⟨by simp [sizeKeywords, Dict.get?], fun options h => by simp [Dict.get?] at h⟩
  · cases hs with
    | property h =>
      obtain ⟨-, rfl⟩ : _ ∧ _ = s := by simpa [Json.declared?, Json.get?, Json.fields?, Dict.get?] using h
      exact hage
    | _ h => simp [Dict.get?] at h

theorem adult_satisfies :
    Satisfies .standard personSchema (Json.obj [("age", .int 36)]).exact ∧
      ¬ Satisfies .standard personSchema (Json.obj [("age", .int (-1))]).exact := by
  have hschema : personSchema.WellFormed := by
    simp [personSchema, Json.int, Numeral.WellFormed]
    decide
  have hexact : personSchema.Formed Numeral.Exact := by
    simp [personSchema, Json.int, Numeral.exact_int]
    decide
  have hage (n : ℤ) (hn : n.natAbs ≤ 2 ^ 53) : (Json.obj [("age", .int n)]).WellFormed ∧
      (Json.obj [("age", .int n)]).Formed Numeral.Exact := by
    have hordered : Dict.Ordered [("age", Json.int n)] := List.pairwise_singleton ..
    refine ⟨.obj hordered fun e he => ?_, .obj hordered fun e he => ?_⟩
    · obtain rfl := List.mem_singleton.mp he
      exact .num ⟨by omega, by omega⟩
    · obtain rfl := List.mem_singleton.mp he
      exact .num (Numeral.exact_int hn)
  obtain ⟨hadult, hadult'⟩ := hage 36 (by decide)
  obtain ⟨hunborn, hunborn'⟩ := hage (-1) (by decide)
  have h36 := ((validate_iff_satisfies hschema hadult).2 hexact hadult').2 personSchema_plain
  have h1 := ((validate_iff_satisfies hschema hunborn).2 hexact hunborn').2 personSchema_plain
  refine ⟨h36.mp rfl, fun h => ?_⟩
  have hpasses := h1.mpr h
  cases hpasses

theorem satisfies_type_iff {name : String} (hname : name ∈ knownTypes) :
    Satisfies R (.obj [("type", .str name)]) d ↔ d.HasType name := by
  have hnone {key : String} (hkey : key ≠ "type") : Dict.get? [("type", Json.str name)] key = none := by
    simp [Dict.get?, hkey.symm]
  rw [satisfies_obj]
  constructor
  · rintro ⟨-, -, hwhole, -⟩
    obtain ⟨found, hfound, h⟩ := hwhole.type (.str name) rfl (by simp [Json.typeNames]) (by simpa [Json.typeNames])
    obtain rfl := List.mem_singleton.mp hfound
    exact h
  · intro h
    have hwhole : Whole R [("type", Json.str name)] d := by
      refine ⟨fun t ht _ _ => ⟨name, ?_, h⟩, by simp [hnone], by simp [hnone]⟩
      obtain rfl : Json.str name = t := by simpa [Dict.get?] using ht
      exact List.mem_singleton_self name
    refine ⟨by simp [hnone], by simp [hnone], hwhole, ?_⟩
    cases d with
    | null | bool => trivial
    | num q => exact ⟨by simp [hnone], by simp [hnone], by simp [hnone], by simp [hnone]⟩
    | str text => exact ⟨by simp [hnone], by simp [hnone]⟩
    | arr items => exact ⟨⟨by simp [hnone], by simp [hnone]⟩, by simp [hnone]⟩
    | obj fields =>
      exact ⟨by simp [HasRequired, hnone], by simp [Json.declared?, Json.get?, Json.fields?, hnone]⟩

/-- A number, which may be an integer. -/
def numberOrInteger : Json :=
  .obj [("oneOf", .arr [.obj [("type", .str "number")], .obj [("type", .str "integer")]])]

theorem two_alternatives_pass :
    validate numberOrInteger (.int 1) = .ok () ∧ ¬ Satisfies .standard numberOrInteger (Json.int 1).exact := by
  refine ⟨rfl, fun h => ?_⟩
  obtain ⟨-, hone, -⟩ := satisfies_obj.mp h
  obtain ⟨-, hexclusive⟩ := hone [.obj [("type", .str "number")], .obj [("type", .str "integer")]] rfl
  have hnumber : Satisfies .standard (.obj [("type", .str "number")]) (Json.int 1).exact :=
    (satisfies_type_iff (by decide)).mpr (.inl rfl)
  have hinteger : Satisfies .standard (.obj [("type", .str "integer")]) (Json.int 1).exact :=
    (satisfies_type_iff (by decide)).mpr (.inr ⟨rfl, 1, rfl⟩)
  exact absurd (hexclusive trivial 0 1 (by decide) (by decide) hnumber hinteger) (by decide)

end ScriptAgent
