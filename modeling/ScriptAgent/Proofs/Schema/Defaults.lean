import ScriptAgent.Proofs.Object.Sealed
import ScriptAgent.Proofs.Schema.Keywords
import ScriptAgent.Schema.Check

/-!
# Defaults only add

Filling puts a default where a value is null or where a declared field is missing, and leaves everything else as
it is.  It is described by what stands under each key: a declared field that is there is filled in turn by its own
schema, one that is missing is its default, and other fields are not touched.
-/

namespace ScriptAgent

/-- A value with the defaults of a schema filled in. -/
def Json.filledBy (v schema : Json) : Json :=
  (Schema.ofJson schema).fill v

/-- What stands in the place of a field after it was filled by its own schema. -/
def Json.fieldFilledBy (field : Option Json) (schema : Json) : Option Json :=
  (field.map (·.filledBy schema)).or (schema.get? "default")

theorem Json.fieldFilledBy_eq_some {field : Option Json} {schema y : Json} :
    Json.fieldFilledBy field schema = some y ↔
      (∃ x, field = some x ∧ x.filledBy schema = y) ∨ field = none ∧ schema.get? "default" = some y := by
  cases field <;> simp [Json.fieldFilledBy]

/-! ### One field after another -/

namespace Schema

variable {P : Numeral → Prop} {schema s : Json} {declared : List (String × Json)} {fields : Dict Json} {key name : String}

theorem default?_ofJson (h : schema.Formed P) : (ofJson schema).default? = schema.get? "default" := by
  cases h with
  | bool allowed => cases allowed <;> rfl
  | obj ordered each =>
    rw [ofJson_obj ordered.nodup]
    rfl
  | _ => rfl

theorem fill_obj (fields : List (String × Json)) (p : Parts) : p.toSchema.fill (.obj fields) =
    match p.properties with
    | some declared => .obj (fillFields fields declared)
    | none => .obj fields := by
  obtain ⟨_, _, _, _, properties, _⟩ := p
  cases properties <;> rfl

/-- A declared field is put in as it is filled. -/
theorem fillFields_cons (hs : s.Formed P) (fields : Dict Json) (name : String) (rest : List (String × Json)) :
    fillFields fields (ofFields ((name, s) :: rest)) =
      fillFields (((Json.fieldFilledBy (fields.get? name) s).map (fields.insert name)).getD fields) (ofFields rest) := by
  rw [ofFields, fillFields, Json.fieldFilledBy, ← default?_ofJson hs]
  cases fields.get? name with
  | some current => rfl
  | none => cases (ofJson s).default? <;> rfl

theorem get?_putIn_self {field : Option Json} (h : field = none → fields.get? name = none) :
    ((field.map (fields.insert name)).getD fields).get? name = field := by
  cases field with
  | none => exact h rfl
  | some x => exact Dict.get?_insert_self fields name x

theorem get?_putIn_of_ne (field : Option Json) (h : key ≠ name) :
    ((field.map (fields.insert name)).getD fields).get? key = fields.get? key := by
  cases field with
  | none => rfl
  | some x => exact Dict.get?_insert_of_ne fields h x

/-- Under each key stands what its own schema makes of the field, or the field itself if it is not declared. -/
theorem get?_fillFields (hdeclared : (Json.obj declared).Formed P) (fields : Dict Json) (key : String) :
    (fillFields fields (ofFields declared)).get? key =
      match Dict.get? declared key with
      | some s => Json.fieldFilledBy (fields.get? key) s
      | none => fields.get? key := by
  induction declared generalizing fields with
  | nil => rfl
  | cons entry rest ih =>
    obtain ⟨name, s⟩ := entry
    obtain ⟨hordered, heach⟩ := Json.formed_obj_iff.mp hdeclared
    obtain ⟨hless, hrest⟩ := Dict.ordered_cons.mp hordered
    rw [fillFields_cons (heach _ (.head _)), ih (.obj hrest fun e he => heach e (.tail _ he)), Dict.get?]
    by_cases hkey : name = key
    · subst hkey
      have hnone : Dict.get? rest name = none :=
        Dict.get?_eq_none_iff.mpr fun hmem => String.lt_irrefl _ (hless _ hmem)
      rw [hnone, if_pos (beq_self_eq_true name)]
      -- nothing is put in only if the field is missing and has no default, and then it stays missing
      refine get?_putIn_self fun h => ?_
      simpa using (Option.or_eq_none_iff.mp h).1
    · rw [if_neg (by simpa using hkey), get?_putIn_of_ne _ (Ne.symm hkey)]

theorem ordered_fillFields (h : fields.Ordered) (declared : List (String × Schema)) :
    (fillFields fields declared).Ordered := by
  induction declared generalizing fields with
  | nil => exact h
  | cons entry rest ih =>
    rw [fillFields]
    split
    · exact ih (h.insert _ _)
    · exact ih (h.insert _ _)
    · exact ih h

end Schema

namespace Json

variable {P : Numeral → Prop} {schema s v w x y : Json} {key : String}

/-! ### Filled values -/

/-- A null is filled by the default of the schema. -/
theorem filledBy_null (h : schema.Formed P) : Json.null.filledBy schema = (schema.get? "default").getD .null := by
  rw [← Schema.default?_ofJson h, filledBy]
  cases Schema.ofJson schema with
  | rules simple anyOf oneOf items properties extra =>
    rcases simple with ⟨_, _, _, _, _, _, _, _, _, _, _, _, _, _ | d⟩ <;> rfl
  | _ => rfl

/-- An object is filled field by field. -/
theorem filledBy_obj (h : schema.Formed P) (fields : List (String × Json)) :
    ∃ filled, (Json.obj fields).filledBy schema = .obj filled ∧ (Dict.Ordered fields → Dict.Ordered filled) ∧
      ∀ key, Dict.get? filled key =
        match schema.declared? key with
        | some s => fieldFilledBy (Dict.get? fields key) s
        | none => Dict.get? fields key := by
  cases h with
  | bool allowed => cases allowed <;> exact ⟨fields, rfl, id, fun key => rfl⟩
  | @obj kws ordered each =>
    have hfill : (Json.obj fields).filledBy (.obj kws) = (Schema.partsOf kws).toSchema.fill (.obj fields) := by
      rw [filledBy, Schema.ofJson_obj ordered.nodup]
    have hproperties : (Schema.partsOf kws).properties =
        ((Dict.get? kws "properties").bind Json.fields?).map Schema.ofFields := rfl
    rw [Schema.fill_obj, hproperties] at hfill
    cases hget : (Dict.get? kws "properties").bind Json.fields? with
    | none =>
      rw [hget] at hfill
      exact ⟨fields, hfill, id, fun key => by rw [declared?_obj, hget]; rfl⟩
    | some declared =>
      rw [hget] at hfill
      have hformed : (Json.obj declared).Formed P := each _ (Dict.mem_of_get? (bind_fields?_eq_some.mp hget))
      refine ⟨_, hfill, fun hfields => Schema.ordered_fillFields hfields _, fun key => ?_⟩
      rw [Schema.get?_fillFields hformed, declared?_obj, hget]
      rfl
  | _ => exact ⟨fields, rfl, id, fun key => rfl⟩

theorem filledBy_of_other (hnull : v ≠ .null) (hobj : ∀ fields, v ≠ .obj fields) (schema : Json) :
    v.filledBy schema = v := by
  rw [filledBy]
  cases Schema.ofJson schema with
  | rules simple anyOf oneOf items properties extra =>
    cases v with
    | null => exact absurd rfl hnull
    | obj fields => exact absurd rfl (hobj fields)
    | _ => rfl
  | _ => rfl

@[simp] theorem filledBy_bool (b : Bool) (schema : Json) : (Json.bool b).filledBy schema = .bool b :=
  filledBy_of_other (by simp) (by simp) schema

@[simp] theorem filledBy_num (n : Numeral) (schema : Json) : (Json.num n).filledBy schema = .num n :=
  filledBy_of_other (by simp) (by simp) schema

@[simp] theorem filledBy_str (s : String) (schema : Json) : (Json.str s).filledBy schema = .str s :=
  filledBy_of_other (by simp) (by simp) schema

@[simp] theorem filledBy_arr (items : List Json) (schema : Json) : (Json.arr items).filledBy schema = .arr items :=
  filledBy_of_other (by simp) (by simp) schema

theorem Formed.default (h : schema.Formed P) {d : Json} (hd : schema.get? "default" = some d) : d.Formed P := by
  cases h with
  | obj ordered each => exact each _ (Dict.mem_of_get? hd)
  | _ => cases hd

/-- What is filled in is well-formed if the value and the schema are. -/
theorem Formed.filledBy (h : v.Formed P) (hschema : schema.Formed P) : (v.filledBy schema).Formed P := by
  induction h generalizing schema with
  | null =>
    rw [filledBy_null hschema]
    cases hd : schema.get? "default" with
    | none => exact .null
    | some d => exact hschema.default hd
  | @obj fields ordered each ih =>
    obtain ⟨filled, hfilled, hordered, hkeys⟩ := filledBy_obj hschema fields
    rw [hfilled]
    refine .obj (hordered ordered) fun ⟨key, y⟩ hy => ?_
    have hfield := hkeys key
    rw [(hordered ordered).get?_of_mem hy] at hfield
    cases hs : schema.declared? key with
    | none =>
      rw [hs] at hfield
      exact each _ (Dict.mem_of_get? hfield.symm)
    | some s =>
      rw [hs] at hfield
      have hsformed := hschema.declared? hs
      rcases fieldFilledBy_eq_some.mp hfield.symm with ⟨x, hx, rfl⟩ | ⟨-, hd⟩
      · exact ih _ (Dict.mem_of_get? hx) hsformed
      · exact hsformed.default hd
  | bool | str => simp
  | num hn => simpa using hn
  | arr each => simpa using each

/-- Values that mean the same are filled to values that do. -/
theorem filledBy_congr {f : Numeral → ℚ} (hv : v.Formed P) (hw : w.Formed P) (hschema : schema.Formed P)
    (h : v.meaning f = w.meaning f) : (v.filledBy schema).meaning f = (w.filledBy schema).meaning f := by
  induction hv generalizing w schema with
  | null => cases hw with
    | null => rfl
    | _ => simp at h
  | @obj fields ordered each ih => cases hw with
    | @obj others ordered' each' =>
      obtain ⟨filled, hfilled, hordered, hkeys⟩ := filledBy_obj hschema fields
      obtain ⟨filled', hfilled', hordered', hkeys'⟩ := filledBy_obj hschema others
      rw [meaning_obj, meaning_obj, Datum.obj.injEq] at h
      rw [hfilled, hfilled', meaning_obj, meaning_obj, Datum.obj.injEq]
      refine ((hordered ordered).mapValues _).ext ((hordered' ordered').mapValues _) fun key => ?_
      have hfield := congrArg (Dict.get? · key) h
      simp only [Dict.get?_mapValues] at hfield ⊢
      rw [hkeys, hkeys']
      cases hs : schema.declared? key with
      | none => exact hfield
      | some s =>
        dsimp only
        cases hx : Dict.get? fields key with
        | none =>
          rw [hx] at hfield
          rw [Option.map_eq_none_iff.mp hfield.symm]
        | some x =>
          rw [hx] at hfield
          obtain ⟨x', hx', hmeaning⟩ := Option.map_eq_some_iff.mp hfield.symm
          rw [hx']
          have hfilled := ih _ (Dict.mem_of_get? hx) (each' _ (Dict.mem_of_get? hx')) (hschema.declared? hs) hmeaning.symm
          exact congrArg some hfilled
    | _ => simp at h
  | bool | num | str | arr => cases hw <;> simp_all

/-! ### Places reached through keys -/

/-- The value at the end of a path of keys. -/
def at? (v : Json) : List String → Option Json
  | [] => some v
  | key :: path => (v.get? key).bind (at? · path)

/-- The schema that is declared at the end of a path of keys. -/
def declaredAt? (schema : Json) : List String → Option Json
  | [] => some schema
  | key :: path => (schema.declared? key).bind (declaredAt? · path)

/-- A default that is declared at the end of a path of keys. -/
def DefaultAt (schema : Json) (path : List String) (d : Json) : Prop :=
  ∃ s, schema.declaredAt? path = some s ∧ s.get? "default" = some d

/-- What may become of the value at the end of a path.  A null may be replaced by the default that is declared there;
an object stays one and keeps its keys, and any other key that it has then is declared there and has its default; and
all else stays as it is. -/
def Extended (schema : Json) (path : List String) : Json → Json → Prop
  | .null, y => y = .null ∨ schema.DefaultAt path y
  | .obj fields, y => ∃ filled, y = .obj filled ∧
      (∀ key x, Dict.get? fields key = some x → ∃ y, Dict.get? filled key = some y) ∧
      ∀ key d, Dict.get? fields key = none → Dict.get? filled key = some d → schema.DefaultAt (path ++ [key]) d
  | x, y => y = x

variable {path : List String}

theorem extended_refl (schema : Json) (path : List String) (v : Json) : Extended schema path v v := by
  cases v with
  | null => exact .inl rfl
  | obj fields =>
    exact ⟨fields, rfl, fun _ x hx => ⟨x, hx⟩, fun key d hkey hd => by rw [hkey] at hd; cases hd⟩
  | _ => exact rfl

theorem defaultAt_cons (h : schema.declared? key = some s) {d : Json} (hd : s.DefaultAt path d) :
    schema.DefaultAt (key :: path) d := by
  obtain ⟨t, ht, hd⟩ := hd
  exact ⟨t, by rw [declaredAt?, h]; exact ht, hd⟩

theorem Extended.cons (h : schema.declared? key = some s) (hxy : Extended s path x y) :
    Extended schema (key :: path) x y := by
  cases x with
  | null => exact hxy.imp_right (defaultAt_cons h)
  | obj fields =>
    obtain ⟨filled, rfl, hkeys, hnew⟩ := hxy
    exact ⟨filled, rfl, hkeys, fun name d hname hd => defaultAt_cons h (hnew name d hname hd)⟩
  | _ => exact hxy

theorem extended_filledBy (h : schema.Formed P) (v : Json) : Extended schema [] v (v.filledBy schema) := by
  cases v with
  | null =>
    rw [filledBy_null h]
    cases hd : schema.get? "default" with
    | none => exact .inl rfl
    | some d => exact .inr ⟨schema, rfl, hd⟩
  | obj fields =>
    obtain ⟨filled, hfilled, -, hget⟩ := filledBy_obj h fields
    refine ⟨filled, hfilled, fun key x hx => ?_, fun key d hkey hd => ?_⟩
    · rw [hget, hx]
      cases schema.declared? key with
      | none => exact ⟨x, rfl⟩
      | some s => exact ⟨_, rfl⟩
    · rw [hget, hkey] at hd
      cases hs : schema.declared? key with
      | none =>
        rw [hs] at hd
        cases hd
      | some s =>
        rw [hs] at hd
        exact defaultAt_cons hs ⟨s, rfl, hd⟩
  | _ => exact filledBy_of_other (by simp) (by simp) schema

/-- Filling extends a value at each place that is reached through its keys. -/
theorem filledBy_extends (h : schema.Formed P) (hx : v.at? path = some x) :
    ∃ y, (v.filledBy schema).at? path = some y ∧ Extended schema path x y := by
  induction path generalizing schema v with
  | nil =>
    obtain rfl := Option.some.inj hx
    exact ⟨_, rfl, extended_filledBy h v⟩
  | cons key path ih =>
    obtain ⟨u, hu, hrest⟩ := Option.bind_eq_some_iff.mp hx
    obtain ⟨found, hv, hget⟩ := Option.bind_eq_some_iff.mp hu
    cases v with
    | obj fields =>
      obtain rfl : fields = found := Option.some.inj hv
      obtain ⟨filled, hfilled, -, hkeys⟩ := filledBy_obj h fields
      have hstep (y : Json) (hy : Dict.get? filled key = some y) :
          ((Json.obj fields).filledBy schema).at? (key :: path) = y.at? path := by
        rw [hfilled, at?, get?, fields?, Option.bind_some, hy, Option.bind_some]
      have hfield := hkeys key
      cases hs : schema.declared? key with
      | none =>
        rw [hs, hget] at hfield
        exact ⟨x, (hstep u hfield).trans hrest, extended_refl schema (key :: path) x⟩
      | some s =>
        rw [hs, hget] at hfield
        obtain ⟨y, hy, hxy⟩ := ih (h.declared? hs) hrest
        exact ⟨y, (hstep _ hfield).trans hy, hxy.cons hs⟩
    | _ => cases hv

end Json

theorem filledBy_of_parseWith {schema v w : Json} (h : parseWith schema v = .ok w) : v.filledBy schema = w := by
  obtain ⟨-, -, hw⟩ := ok_of_bind h
  exact Except.ok.inj hw

theorem parseWith_of_validate {schema v : Json} (h : validate schema (v.filledBy schema) = .ok ()) :
    parseWith schema v = .ok (v.filledBy schema) := by
  unfold Json.filledBy at h
  unfold parseWith Json.filledBy
  dsimp only
  rw [h]
  rfl

/-- What is filled in and passes the check is a value that satisfies the schema and extends the one given. -/
theorem parse_extends {schema v w : Json} (hschema : schema.WellFormed) (h : parseWith schema v = .ok w) :
    validate schema w = .ok () ∧
      ∀ path x, v.at? path = some x → ∃ y, w.at? path = some y ∧ Json.Extended schema path x y := by
  refine ⟨validate_of_parseWith h, fun path x hx => ?_⟩
  rw [← filledBy_of_parseWith h]
  exact Json.filledBy_extends hschema hx

/-- A user that has a tier. -/
def sampleUserSchema : Json :=
  .obj [("properties", .obj [("tier", .obj [("default", .str "free")])])]

theorem free_tier_is_added :
    parseWith sampleUserSchema (.obj [("name", .str "Ada")]) =
        .ok (.obj [("name", .str "Ada"), ("tier", .str "free")]) ∧
      ∃ y, (Json.obj [("name", .str "Ada"), ("tier", .str "free")]).at? ["name"] = some y ∧
        Json.Extended sampleUserSchema ["name"] (.str "Ada") y := by
  have hordered (key : String) (v : Json) : Dict.Ordered [(key, v)] := List.pairwise_singleton ..
  have hschema : sampleUserSchema.WellFormed := by simp [sampleUserSchema, hordered]
  have hparsed : parseWith sampleUserSchema (.obj [("name", .str "Ada")]) =
      .ok (.obj [("name", .str "Ada"), ("tier", .str "free")]) := rfl
  exact ⟨hparsed, (parse_extends hschema hparsed).2 ["name"] (.str "Ada") rfl⟩

/-! ### Filled again -/

namespace Json

variable {P : Numeral → Prop} {schema s v : Json} {key : String}

/-- Each default is filled by its own schema to something that means the same. -/
def DefaultsSettle (f : Numeral → ℚ) (schema : Json) : Prop :=
  ∀ path s d, schema.declaredAt? path = some s → s.get? "default" = some d →
    (d.filledBy s).meaning f = d.meaning f

theorem DefaultsSettle.declared? {f : Numeral → ℚ} (h : schema.DefaultsSettle f)
    (hs : schema.declared? key = some s) : s.DefaultsSettle f :=
  fun path t d ht hd => h (key :: path) t d (by rw [declaredAt?, hs]; exact ht) hd

/-- Where defaults settle a filled value does not change if it is filled again. -/
theorem filledBy_filledBy {f : Numeral → ℚ} (hv : v.Formed P) (hschema : schema.Formed P)
    (hsettle : schema.DefaultsSettle f) :
    ((v.filledBy schema).filledBy schema).meaning f = (v.filledBy schema).meaning f := by
  induction hv generalizing schema with
  | null =>
    rw [filledBy_null hschema]
    cases hd : schema.get? "default" with
    | none =>
      rw [Option.getD_none, filledBy_null hschema, hd]
      rfl
    | some d => exact hsettle [] schema d rfl hd
  | @obj fields ordered each ih =>
    obtain ⟨filled, hfilled, hordered, hkeys⟩ := filledBy_obj hschema fields
    obtain ⟨filled', hfilled', hordered', hkeys'⟩ := filledBy_obj hschema filled
    rw [hfilled, hfilled', meaning_obj, meaning_obj, Datum.obj.injEq]
    refine ((hordered' (hordered ordered)).mapValues _).ext ((hordered ordered).mapValues _) fun key => ?_
    simp only [Dict.get?_mapValues]
    rw [hkeys']
    have hfield := hkeys key
    cases hs : schema.declared? key with
    | none => rfl
    | some s =>
      rw [hs] at hfield
      rw [hfield]
      dsimp only
      cases hx : Dict.get? fields key with
      | none =>
        -- the default was put in as it is, so it is filled only now
        cases hd : s.get? "default" with
        | none => simp [fieldFilledBy, hd]
        | some d => simpa [fieldFilledBy, hd] using hsettle [key] s d (by rw [declaredAt?, hs]; rfl) hd
      | some x =>
        simpa [fieldFilledBy] using ih _ (Dict.mem_of_get? hx) (hschema.declared? hs) (hsettle.declared? hs)
  | bool | num | str | arr => simp

/-- Without defaults nothing is filled in. -/
theorem filledBy_eq_self (hv : v.Formed P) (hschema : schema.Formed P)
    (hnone : ∀ path s, schema.declaredAt? path = some s → s.get? "default" = none) : v.filledBy schema = v := by
  induction hv generalizing schema with
  | null =>
    rw [filledBy_null hschema, hnone [] schema rfl]
    rfl
  | @obj fields ordered each ih =>
    obtain ⟨filled, hfilled, hordered, hkeys⟩ := filledBy_obj hschema fields
    rw [hfilled]
    refine congrArg Json.obj ((hordered ordered).ext ordered fun key => ?_)
    rw [hkeys]
    cases hs : schema.declared? key with
    | none => rfl
    | some s =>
      have hnone (path : List String) (t : Json) (ht : s.declaredAt? path = some t) : t.get? "default" = none :=
        hnone (key :: path) t (by rw [declaredAt?, hs]; exact ht)
      dsimp only
      cases hx : Dict.get? fields key with
      | none => exact hnone [] s rfl
      | some x => exact congrArg some (ih _ (Dict.mem_of_get? hx) (hschema.declared? hs) hnone)
  | bool | num | str | arr => simp

end Json

end ScriptAgent
