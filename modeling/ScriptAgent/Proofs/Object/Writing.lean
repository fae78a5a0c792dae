import ScriptAgent.Proofs.Json.Sameness
import ScriptAgent.Proofs.Object.Replay

/-!
# What a write stores

A property takes a written value as its schema completes it, and stores it unless deep equality has it for the
value that it holds already.  A value that a property without a schema takes is therefore kept, except where it
only looks the same: where numbers that are no doubles have the same nearest ones.
-/

namespace ScriptAgent

/-- What a property makes of a written value. -/
def Property.take (p : Property) (v : Json) : Except SchemaError Json :=
  match p.schema with
  | none => .ok v
  | some schema => parseWith schema v

/-- Values that deep equality takes for one, though they are not the same. -/
def Json.Confused (a b : Json) : Prop :=
  a.rounded = b.rounded ∧ a.exact ≠ b.exact

namespace Json

variable {a b : Json}

/-- Deep equality has two values for the same just if they are, or are confused. -/
theorem same_iff_exact_or_confused (ha : a.WellFormed) (hb : b.WellFormed) :
    same a b = true ↔ a.exact = b.exact ∨ a.Confused b := by
  rw [same_iff ha hb]
  constructor
  · intro h
    by_cases hexact : a.exact = b.exact
    · exact .inl hexact
    · exact .inr ⟨h, hexact⟩
  · rintro (h | h)
    · exact rounded_eq_of_exact ha hb h
    · exact h.1

/-- Values whose numbers are doubles are not confused. -/
theorem not_confused_of_exact (ha : a.Formed Numeral.Exact) (hb : b.Formed Numeral.Exact) : ¬ a.Confused b := by
  rintro ⟨hrounded, hexact⟩
  rw [rounded_eq_exact ha, rounded_eq_exact hb] at hrounded
  exact hexact hrounded

end Json

namespace Draft

variable {d : Draft} {p : Property} {key : String} {v w : Json}

/-- The draft after a value was stored under a name. -/
def stored (d : Draft) (key : String) (w : Json) : Draft :=
  d.noted ⟨d.name, key, (d.initial.get? key).getD .null, w⟩

/-- A writable property stores what it takes, unless that is the same as what it holds. -/
theorem set_eq (hp : d.property? key = some p) (writable : p.writable = true) (v : Json) :
    d.set key v =
      match p.take v with
      | .error e => .error (.schemaViolation d.name key e)
      | .ok w => if Json.same p.value w then .ok (d, none) else .ok (d.stored key w, some w) := by
  unfold set Property.take
  rw [hp]
  dsimp only
  rw [writable]
  cases p.schema with
  | none => rfl
  | some schema =>
    dsimp only
    cases parseWith schema v <;> rfl

theorem get_stored (hp : d.property? key = some p) (w : Json) : (d.stored key w).get key = .ok w := by
  rw [get_eq_ok, stored, value_noted (by rw [hp]; rfl), if_pos rfl]

/-- What comes of a write to a property without a schema.  It is taken, and what is read afterwards is the written
value, or else the value that was there, if deep equality has the two for the same.  It means the same as the written
one just if that was not confused with the one that was there, and values are confused only if not all of their
numbers are doubles. -/
theorem write_is_kept_iff (hp : d.property? key = some p) (writable : p.writable = true) (free : p.schema = none)
    (held : p.value.WellFormed) (hv : v.WellFormed) :
    (∃ d' change w, d.set key v = .ok (d', change) ∧ d'.get key = .ok w ∧
      (if Json.same p.value v then w = p.value ∧ change = none ∧ d' = d else w = v ∧ change = some v) ∧
      (w.exact = v.exact ↔ ¬ p.value.Confused v)) ∧
    (∀ a b : Json, a.WellFormed → b.WellFormed →
      (Json.same a b = true ↔ a.exact = b.exact ∨ a.Confused b) ∧
      (a.Formed Numeral.Exact → b.Formed Numeral.Exact → ¬ a.Confused b)) := by
  refine ⟨?_, fun a b ha hb => ⟨Json.same_iff_exact_or_confused ha hb, Json.not_confused_of_exact⟩⟩
  have hset := set_eq hp writable v
  rw [Property.take, free] at hset
  dsimp only at hset
  by_cases hsame : Json.same p.value v = true
  · rw [if_pos hsame] at hset
    have hget : d.get key = .ok p.value := get_eq_ok.mpr (by rw [hp]; rfl)
    refine ⟨d, none, p.value, hset, hget, ?_, fun h hconfused => ?_, fun h => ?_⟩
    · rw [if_pos hsame]
      exact ⟨rfl, rfl, rfl⟩
    · exact hconfused.2 h
    · exact ((Json.same_iff_exact_or_confused held hv).mp hsame).resolve_right h
  · rw [if_neg hsame] at hset
    refine ⟨_, _, v, hset, get_stored hp v, ?_, fun _ hconfused => ?_, fun _ => rfl⟩
    · rw [if_neg hsame]
      exact ⟨rfl, rfl⟩
    · exact hsame ((Json.same_iff held hv).mpr hconfused.1)

/-- A counter at the end of the integers that all are doubles. -/
def sampleCounter : ObjectInstance where
  name := "counter"
  properties := [{ name := "count", value := .int 9007199254740992 }]

theorem counted_on_by_two :
    ∃ d' change w, (ofInstance sampleCounter).set "count" (.int 9007199254740994) = .ok (d', change) ∧
      d'.get "count" = .ok w ∧ w.exact = (Json.int 9007199254740994).exact := by
  have hp : (ofInstance sampleCounter).property? "count" =
      some { name := "count", value := .int 9007199254740992 } := rfl
  have held : (Json.int 9007199254740992).WellFormed := .num (by norm_num [Numeral.WellFormed])
  have hv : (Json.int 9007199254740994).WellFormed := .num (by norm_num [Numeral.WellFormed])
  obtain ⟨⟨d', change, w, hset, hget, -, hkept⟩, -⟩ := write_is_kept_iff hp rfl rfl held hv
  refine ⟨d', change, w, hset, hget, hkept.mpr fun hconfused => ?_⟩
  have hsame : Json.same (.int 9007199254740992) (.int 9007199254740994) = true :=
    (Json.same_iff held hv).mpr hconfused.1
  exact absurd hsame (by decide +kernel)

theorem next_count_is_lost :
    ∃ d', (ofInstance sampleCounter).set "count" (.int 9007199254740993) = .ok (d', none) ∧
      d'.get "count" = .ok (.int 9007199254740992) ∧
      (Json.int 9007199254740992).exact ≠ (Json.int 9007199254740993).exact := by
  refine ⟨_, rfl, rfl, fun h => ?_⟩
  have hnum : ((9007199254740992 : ℤ) : ℚ) = ((9007199254740993 : ℤ) : ℚ) := Datum.num.inj h
  norm_num at hnum

end Draft

end ScriptAgent
