import ScriptAgent.Proofs.Json.Sameness
import ScriptAgent.Schema.Basic

/-!
# Keywords by name

A schema is collected keyword by keyword.  Where each keyword stands once, each part of the schema is what the
keyword of one name makes of its value.
-/

namespace ScriptAgent

/-- The names that a `type` keyword lists. -/
def Json.typeNames : Json → List String
  | .str name => [name]
  | .arr names => names.filterMap Json.str?
  | _ => []

theorem Json.bind_items?_eq_some {o : Option Json} {items : List Json} :
    o.bind Json.items? = some items ↔ o = some (.arr items) := by
  cases o with
  | none => simp
  | some w => cases w <;> simp [Json.items?]

theorem Json.bind_fields?_eq_some {o : Option Json} {fields : Dict Json} :
    o.bind Json.fields? = some fields ↔ o = some (.obj fields) := by
  cases o with
  | none => simp
  | some w => cases w <;> simp [Json.fields?]

/-- The schema that a schema declares for a field. -/
def Json.declared? (schema : Json) (key : String) : Option Json :=
  (schema.get? "properties").bind (Json.get? · key)

theorem Json.declared?_obj (kws : List (String × Json)) (key : String) : (Json.obj kws).declared? key =
    ((Dict.get? kws "properties").bind Json.fields?).bind (Dict.get? · key) := by
  simp only [Json.declared?, Json.get?, Json.fields?, Option.bind_some, Option.bind_assoc]

theorem Json.Formed.declared? {P : Numeral → Prop} {schema s : Json} {key : String} (h : schema.Formed P)
    (hs : schema.declared? key = some s) : s.Formed P := by
  cases h with
  | @obj kws ordered each =>
    obtain ⟨declared, hdeclared, hs⟩ := Option.bind_eq_some_iff.mp (Json.declared?_obj kws key ▸ hs)
    exact (each _ (Dict.mem_of_get? (Json.bind_fields?_eq_some.mp hdeclared))).get? hs
  | _ => cases hs

/-- The value false. -/
def Json.isFalse : Json → Bool
  | .bool false => true
  | _ => false

namespace Schema

/-- The simple rules that keywords make, each found by its name. -/
def simpleOf (kws : Dict Json) : SimpleRules where
  types := ((kws.get? "type").map Json.typeNames).getD []
  choices := (kws.get? "enum").bind Json.items?
  constant := kws.get? "const"
  minimum := (kws.get? "minimum").bind Json.float?
  maximum := (kws.get? "maximum").bind Json.float?
  exclusiveMinimum := (kws.get? "exclusiveMinimum").bind Json.float?
  exclusiveMaximum := (kws.get? "exclusiveMaximum").bind Json.float?
  minLength := (kws.get? "minLength").bind Json.nat?
  maxLength := (kws.get? "maxLength").bind Json.nat?
  minItems := (kws.get? "minItems").bind Json.nat?
  maxItems := (kws.get? "maxItems").bind Json.nat?
  required := (((kws.get? "required").bind Json.items?).getD []).filterMap Json.str?
  closed := ((kws.get? "additionalProperties").map Json.isFalse).getD false
  default := kws.get? "default"

/-- The parts that keywords make, each found by its name. -/
def partsOf (kws : Dict Json) : Parts where
  simple := simpleOf kws
  anyOf := ((kws.get? "anyOf").bind Json.items?).map ofItems
  oneOf := ((kws.get? "oneOf").bind Json.items?).map ofItems
  items := (kws.get? "items").map ofJson
  properties := ((kws.get? "properties").bind Json.fields?).map ofFields
  extra := ((kws.get? "additionalProperties").bind Json.fields?).map fun keywords => ofJson (.obj keywords)

/-- The parts of a schema with one more keyword taken in. -/
def Parts.withKeyword (p : Parts) (key : String) (v : Json) : Parts :=
  if key == "anyOf" then
    match v with
    | .arr options => { p with anyOf := some (ofItems options) }
    | _ => p
  else if key == "oneOf" then
    match v with
    | .arr options => { p with oneOf := some (ofItems options) }
    | _ => p
  else if key == "items" then { p with items := some (ofJson v) }
  else if key == "properties" then
    match v with
    | .obj declared => { p with properties := some (ofFields declared) }
    | _ => p
  else if key == "additionalProperties" then
    match v with
    | .bool false => { p with simple := { p.simple with closed := true } }
    | .obj keywords => { p with extra := some (ofKeywords keywords).toSchema }
    | _ => p
  else { p with simple := p.simple.withKeyword key v }

theorem ofKeywords_cons (key : String) (v : Json) (rest : List (String × Json)) :
    ofKeywords ((key, v) :: rest) = (ofKeywords rest).withKeyword key v := by
  unfold Parts.withKeyword
  cases v with
  | bool b => cases b <;> rfl
  | _ => rfl

/-- The keywords that a schema is collected from; the first ones take no value of another kind. -/
def keywords : List String :=
  ["anyOf", "oneOf", "properties", "additionalProperties", "type", "items", "enum", "const", "minimum", "maximum",
    "exclusiveMinimum", "exclusiveMaximum", "minLength", "maxLength", "minItems", "maxItems", "required", "default"]

theorem partsOf_cons {key : String} {rest : List (String × Json)} (h : Dict.get? rest key = none) (v : Json) :
    partsOf ((key, v) :: rest) = (partsOf rest).withKeyword key v := by
  by_cases hkey : key ∈ keywords
  · simp only [keywords, List.mem_cons, List.not_mem_nil, or_false] at hkey
    -- these are left alone if their values are of another kind, so they are gone through kind by kind
    rcases hkey with rfl | rfl | rfl | rfl | rfl | hkey
    · cases v with
      | arr options => rfl
      | _ => unfold partsOf; rw [h]; rfl
    · cases v with
      | arr options => rfl
      | _ => unfold partsOf; rw [h]; rfl
    · cases v with
      | obj declared => rfl
      | _ => unfold partsOf; rw [h]; rfl
    · cases v with
      | bool b => cases b <;> (unfold partsOf simpleOf; rw [h]; rfl)
      | _ => unfold partsOf simpleOf; rw [h]; rfl
    · cases v with
      | str name => rfl
      | arr names => rfl
      | _ => unfold partsOf simpleOf; rw [h]; rfl
    · rcases hkey with rfl | rfl | rfl | rfl | rfl | rfl | rfl | rfl | rfl | rfl | rfl | rfl | rfl <;> rfl
  · simp only [keywords, List.mem_cons, List.not_mem_nil, or_false, not_or] at hkey
    simp only [partsOf, simpleOf, Parts.withKeyword, SimpleRules.withKeyword, Dict.get?, beq_iff_eq, hkey,
      if_false]

/-- The parts of a schema are what its keywords make, each found by its name. -/
theorem ofKeywords_eq {kws : List (String × Json)} (hkws : (Dict.keys kws).Nodup) : ofKeywords kws = partsOf kws := by
  induction kws with
  | nil => rfl
  | cons entry rest ih =>
    obtain ⟨key, v⟩ := entry
    obtain ⟨hfresh, hrest⟩ := List.nodup_cons.mp hkws
    rw [ofKeywords_cons, ih hrest, partsOf_cons (Dict.get?_eq_none_iff.mpr hfresh)]

theorem ofJson_obj {kws : List (String × Json)} (hkws : (Dict.keys kws).Nodup) :
    ofJson (.obj kws) = (partsOf kws).toSchema := by
  rw [ofJson, ofKeywords_eq hkws]

theorem ofItems_eq (options : List Json) : ofItems options = options.map ofJson := by
  induction options with
  | nil => rfl
  | cons o rest ih => rw [ofItems, ih, List.map_cons]

theorem ofFields_eq (declared : List (String × Json)) : ofFields declared = Dict.mapValues ofJson declared := by
  induction declared with
  | nil => rfl
  | cons entry rest ih =>
    rw [ofFields, ih]
    rfl

end Schema

end ScriptAgent
