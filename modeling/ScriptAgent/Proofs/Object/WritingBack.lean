import ScriptAgent.Proofs.Object.Tracking
import ScriptAgent.Proofs.Object.Writing
import ScriptAgent.Proofs.Schema.Defaults
import ScriptAgent.Proofs.Schema.Meaning

/-!
# Writing a value back

A write of what a property holds is no change just if the property's schema has nothing to fill into its value.
That is so where the schema declares no defaults.  Where it does, it holds from the first change on if the defaults
need no filling themselves; before, the value is the declared one, which was checked but never filled.
-/

namespace ScriptAgent

namespace Property

/-- A property as the program can hold it. -/
structure WellFormed (p : Property) : Prop where
  value : p.value.WellFormed
  schema : ∀ schema, p.schema = some schema → schema.WellFormed

/-- The schema has nothing to fill into the value. -/
def Settled (p : Property) : Prop :=
  ∀ schema, p.schema = some schema → Json.same p.value (p.value.filledBy schema) = true

/-- The schema's defaults need no filling themselves. -/
def DefaultsSettle (p : Property) : Prop :=
  ∀ schema, p.schema = some schema → schema.DefaultsSettle Numeral.rounded

/-- The schema declares no defaults. -/
def DefaultFree (p : Property) : Prop :=
  ∀ schema, p.schema = some schema → ∀ path s, schema.declaredAt? path = some s → s.get? "default" = none

variable {p q : Property} {v w : Json}

theorem settled_of_defaultFree (h : p.WellFormed) (hfree : p.DefaultFree) : p.Settled := by
  intro schema hschema
  rw [Json.filledBy_eq_self h.value (h.schema schema hschema) (hfree schema hschema), Json.same_iff h.value h.value]

/-- What is taken of a value that is the same as the one held is the same as well just if the property is settled. -/
theorem take_same (h : p.WellFormed) (valid : p.Valid) (hv : v.WellFormed) (hsame : Json.same p.value v = true) :
    (p.Settled → ∃ w, p.take v = .ok w ∧ Json.same p.value w = true) ∧
      ∀ w, p.take v = .ok w → Json.same p.value w = true → p.Settled := by
  unfold take Settled
  cases hschema : p.schema with
  | none => exact ⟨fun _ => ⟨v, rfl, hsame⟩, fun _ _ _ _ hnone => nomatch hnone⟩
  | some schema =>
    have hformed := h.schema schema hschema
    have hfilled := hv.filledBy hformed
    have hown := h.value.filledBy hformed
    have hrounded := (Json.same_iff h.value hv).mp hsame
    have hcongr : (p.value.filledBy schema).rounded = (v.filledBy schema).rounded :=
      Json.filledBy_congr h.value hv hformed hrounded
    -- filling takes values that are the same to values that are; so all hangs on the value that is held
    constructor
    · intro hsettled
      have hsettled := (Json.same_iff h.value hown).mp (hsettled schema rfl)
      have hvalid := (validate_congr hformed h.value hfilled (hsettled.trans hcongr)).mp (valid schema hschema)
      exact ⟨_, parseWith_of_validate hvalid, (Json.same_iff h.value hfilled).mpr (hsettled.trans hcongr)⟩
    · intro w hw hsame' schema' hschema'
      obtain rfl := Option.some.inj hschema'
      obtain rfl := filledBy_of_parseWith hw
      rw [Json.same_iff h.value hown, hcongr]
      exact (Json.same_iff h.value hfilled).mp hsame'

/-! ### Properties later on -/

/-- A property after well-formed values were written to it. -/
structure Later (p q : Property) : Prop where
  schema : q.schema = p.schema
  value : q.value = p.value ∨ ∃ u, u.WellFormed ∧ p.take u = .ok q.value

theorem take_spec (h : p.WellFormed) {u : Json} (hu : u.WellFormed) (hw : p.take u = .ok w) :
    w.WellFormed ∧ ∀ schema, p.schema = some schema → w = u.filledBy schema ∧ validate schema w = .ok () := by
  unfold take at hw
  cases hschema : p.schema with
  | none =>
    rw [hschema] at hw
    obtain rfl := Except.ok.inj hw
    exact ⟨hu, fun _ hnone => nomatch hnone⟩
  | some schema =>
    rw [hschema] at hw
    obtain rfl := filledBy_of_parseWith hw
    refine ⟨hu.filledBy (h.schema schema hschema), fun schema' hschema' => ?_⟩
    obtain rfl := Option.some.inj hschema'
    exact ⟨rfl, validate_of_parseWith hw⟩

theorem Later.wellFormed (h : p.Later q) (hp : p.WellFormed) : q.WellFormed := by
  refine ⟨?_, fun schema hschema => hp.schema schema (h.schema ▸ hschema)⟩
  rcases h.value with hvalue | ⟨u, hu, hw⟩
  · exact hvalue ▸ hp.value
  · exact (take_spec hp hu hw).1

theorem Later.valid (h : p.Later q) (hp : p.WellFormed) (valid : p.Valid) : q.Valid := by
  intro schema hschema
  rw [h.schema] at hschema
  rcases h.value with hvalue | ⟨u, hu, hw⟩
  · exact hvalue ▸ valid schema hschema
  · exact ((take_spec hp hu hw).2 schema hschema).2

/-- Once a property was changed it is settled, if its defaults are. -/
theorem Later.settled (h : p.Later q) (hp : p.WellFormed) (hsettle : p.DefaultsSettle) (hchanged : q.value ≠ p.value) :
    q.Settled := by
  intro schema hschema
  rw [h.schema] at hschema
  rcases h.value with hvalue | ⟨u, hu, hw⟩
  · exact absurd hvalue hchanged
  · obtain ⟨hformed, hspec⟩ := take_spec hp hu hw
    have hschemaFormed := hp.schema schema hschema
    rw [Json.same_iff hformed (hformed.filledBy hschemaFormed), (hspec schema hschema).1]
    exact (Json.filledBy_filledBy hu hschemaFormed (hsettle schema hschema)).symm

theorem Later.take (h : p.Later q) (v : Json) : q.take v = p.take v := by
  unfold Property.take
  rw [h.schema]

end Property

variable {objects : List ObjectInstance} {o : ObjectInstance} {d d' : Draft} {p q : Property} {id : Nat} {key : String}
  {v w : Json}

/-! ### Drafts later on -/

namespace Draft

/-- A draft of an object after well-formed values were written to it. -/
def Later (o : ObjectInstance) (d : Draft) : Prop :=
  ∀ key q, d.property? key = some q → ∃ p, o.property? key = some p ∧ p.Later q

theorem later_ofInstance (o : ObjectInstance) : Later o (ofInstance o) :=
  fun _ q hq => ⟨q, hq, rfl, .inl rfl⟩

theorem property?_stored (d : Draft) (key name : String) (w : Json) : (d.stored key w).property? name =
    if name = key then (d.property? name).map ({ · with value := w }) else d.property? name :=
  ObjectInstance.find?_setValue name key w d.properties

theorem Later.stored (h : Later o d) (hq : d.property? key = some q) (hv : v.WellFormed) (hw : q.take v = .ok w) :
    Later o (d.stored key w) := by
  intro name r hr
  rw [property?_stored] at hr
  split at hr
  · next hname =>
    subst hname
    obtain ⟨p, hp, hlater⟩ := h name q hq
    rw [hq] at hr
    obtain rfl := Option.some.inj hr
    exact ⟨p, hp, hlater.schema, .inr ⟨v, hv, hlater.take v ▸ hw⟩⟩
  · exact h name r hr

/-- A write that stores a value has taken it. -/
theorem stored_of_set (h : d.set key v = .ok (d', some w)) :
    ∃ q, d.property? key = some q ∧ q.take v = .ok w ∧ d' = d.stored key w := by
  obtain ⟨q, _, hq, admits, -⟩ := set_cases h
  rw [set_eq hq admits.writable] at h
  refine ⟨q, hq, ?_⟩
  cases htake : q.take v with
  | error e => rw [htake] at h; cases h
  | ok u =>
    rw [htake] at h
    dsimp only at h
    split at h
    · cases h
    · cases h
      exact ⟨rfl, rfl⟩

end Draft

/-- An access with a well-formed value. -/
def Access.WellFormed : Access → Prop
  | .get .. => True
  | .set _ _ v => v.WellFormed

namespace Drafting

/-- Drafts of objects after well-formed values were written to them. -/
def Later (objects : List ObjectInstance) (s : Drafting) : Prop :=
  ∀ (id : Nat) d, s.drafts[id]? = some d → ∃ o, objects[id]? = some o ∧ Draft.Later o d

variable {s : Drafting}

theorem later_start (objects : List ObjectInstance) (host : Host) : Later objects (start objects host) := by
  intro id d hd
  have hd : objects[id]?.map Draft.ofInstance = some d := by simpa [start] using hd
  obtain ⟨o, ho, rfl⟩ := Option.map_eq_some_iff.mp hd
  exact ⟨o, ho, Draft.later_ofInstance o⟩

theorem Later.step (h : Later objects s) {a : Access} (ha : a.WellFormed) : Later objects (s.step a) := by
  cases a with
  | get id key => exact h
  | set id key v =>
    show Later objects (s.set id key v).2
    rcases set_cases s id key v with ⟨reply, -, hset⟩ | ⟨d, d', w, hd, hw, hset⟩
    · rw [hset]
      exact h
    · rw [hset]
      obtain ⟨q, hq, htake, rfl⟩ := Draft.stored_of_set hw
      obtain ⟨hlt, -⟩ := Array.getElem?_eq_some_iff.mp hd
      intro id' e he
      rw [Array.getElem?_setIfInBounds, if_pos hlt] at he
      split at he
      · next hid =>
        obtain rfl := Option.some.inj he
        obtain ⟨o, ho, hlater⟩ := h id d hd
        exact ⟨o, hid ▸ ho, hlater.stored hq ha htake⟩
      · exact h id' e he

theorem Later.play (h : Later objects s) {accesses : List Access} (given : ∀ a ∈ accesses, a.WellFormed) :
    Later objects (s.play accesses).2 := by
  induction accesses generalizing s with
  | nil => exact h
  | cons a rest ih =>
    obtain ⟨ha, hrest⟩ := List.forall_mem_cons.mp given
    exact ih (h.step ha) hrest

/-- What a write to a writable property of a draft comes to. -/
theorem set_eq (hd : s.drafts[id]? = some d) (hp : d.property? key = some p) (writable : p.writable = true)
    (v : Json) :
    s.set id key v =
      match p.take v with
      | .error e => (some (.error (.schemaViolation d.name key e)), s)
      | .ok w =>
        if Json.same p.value w then (some (.ok false), s)
        else (some (.ok true), ⟨s.drafts.setIfInBounds id (d.stored key w),
          s.host.trace (.property s.host.millis d.name key w)⟩) := by
  unfold set
  rw [hd]
  dsimp only
  rw [Draft.set_eq hp writable]
  cases p.take v with
  | error e => rfl
  | ok w =>
    dsimp only
    by_cases hsame : Json.same p.value w = true
    · rw [if_pos hsame, if_pos hsame]
      dsimp only
      rw [setIfInBounds_of_getElem? hd]
      rfl
    · rw [if_neg hsame, if_neg hsame]
      rfl

/-- What comes of a write of what a property holds. -/
theorem set_same (hd : s.drafts[id]? = some d) (hp : d.property? key = some p) (writable : p.writable = true)
    (formed : p.WellFormed) (valid : p.Valid) (hv : v.WellFormed) (hsame : Json.same p.value v = true) :
    (s.set id key v = (some (.ok false), s) ↔ p.Settled) ∧
      (¬ p.Settled → (∃ e, s.set id key v = (some (.error (.schemaViolation d.name key e)), s)) ∨
        ∃ w s', p.take v = .ok w ∧ s.set id key v = (some (.ok true), s') ∧ s'.get id key = some (.ok w)) := by
  obtain ⟨htaken, hsettled⟩ := Property.take_same formed valid hv hsame
  have hset := set_eq hd hp writable v
  cases htake : p.take v with
  | error e =>
    rw [htake] at hset
    refine ⟨⟨fun h => ?_, fun h => ?_⟩, fun _ => .inl ⟨e, hset⟩⟩
    · rw [hset] at h
      cases h
    · obtain ⟨w, hw, -⟩ := htaken h
      rw [htake] at hw
      cases hw
  | ok w =>
    rw [htake] at hset
    dsimp only at hset
    by_cases hsame' : Json.same p.value w = true
    · rw [if_pos hsame'] at hset
      have h := hsettled w htake hsame'
      exact ⟨⟨fun _ => h, fun _ => hset⟩, fun hn => absurd h hn⟩
    · rw [if_neg hsame'] at hset
      refine ⟨⟨fun h => ?_, fun h => ?_⟩, fun _ => .inr ⟨w, _, rfl, hset, ?_⟩⟩
      · rw [hset] at h
        cases h
      · obtain ⟨w', hw, hkept⟩ := htaken h
        obtain rfl := Except.ok.inj (htake.symm.trans hw)
        exact absurd hkept hsame'
      · obtain ⟨hlt, -⟩ := Array.getElem?_eq_some_iff.mp hd
        rw [get, Array.getElem?_setIfInBounds, if_pos rfl, if_pos hlt, Option.map_some, Draft.get_stored hp]

/-- A property of a draft was declared by a built object. -/
theorem Later.declared (h : Later objects s)
    (built : ∀ o ∈ objects, ∃ raw : ObjectInstance, raw.build = .ok o)
    (formed : ∀ o ∈ objects, ∀ p ∈ o.properties, p.WellFormed) (hd : s.drafts[id]? = some d)
    (hp : d.property? key = some p) :
    ∃ o p₀, objects[id]? = some o ∧ o.property? key = some p₀ ∧ p₀.WellFormed ∧ p₀.Valid ∧ p₀.Later p := by
  obtain ⟨o, ho, hdraft⟩ := h id d hd
  obtain ⟨p₀, hp₀, hlater⟩ := hdraft key p hp
  have hmem := List.mem_of_find?_eq_some hp₀
  obtain ⟨raw, hraw⟩ := built o (List.mem_of_getElem? ho)
  obtain ⟨rfl, hvalid⟩ := ObjectInstance.of_build hraw
  exact ⟨o, p₀, ho, hp₀, formed o (List.mem_of_getElem? ho) p₀ hmem, hvalid p₀ hmem, hlater⟩

/-- What comes of writing a value back, in every state that accesses to drafts of built objects reach.  A value that
is the same as the one a property holds is no change, and leaves everything as it is, just if the property is settled.
If it is not, the write is either refused, and then leaves everything as it is as well, or it is a change, and what
is filled in is stored.  A property is settled if its schema declares no defaults, and also if these need no filling
themselves and the property no longer has the value it was declared with. -/
theorem write_back_iff (host : Host) {accesses : List Access} {changes : List Change}
    (built : ∀ o ∈ objects, ∃ raw : ObjectInstance, raw.build = .ok o)
    (formed : ∀ o ∈ objects, ∀ p ∈ o.properties, p.WellFormed) (given : ∀ a ∈ accesses, a.WellFormed)
    (played : (start objects host).play accesses = (changes, s)) (hd : s.drafts[id]? = some d)
    (hp : d.property? key = some p) (writable : p.writable = true) (hv : v.WellFormed)
    (hsame : Json.same p.value v = true) :
    (s.set id key v = (some (.ok false), s) ↔ p.Settled) ∧
      (¬ p.Settled → (∃ e, s.set id key v = (some (.error (.schemaViolation d.name key e)), s)) ∨
        ∃ w s', p.take v = .ok w ∧ s.set id key v = (some (.ok true), s') ∧ s'.get id key = some (.ok w)) ∧
      (p.DefaultFree → p.Settled) ∧
      ∃ o p₀, objects[id]? = some o ∧ o.property? key = some p₀ ∧
        (p.DefaultsSettle → p.value ≠ p₀.value → p.Settled) := by
  have hlater := (later_start objects host).play given
  rw [played] at hlater
  obtain ⟨o, p₀, ho, hp₀, hformed, hvalid, hproperty⟩ := hlater.declared built formed hd hp
  have hformed' := hproperty.wellFormed hformed
  obtain ⟨hback, hunsettled⟩ := set_same hd hp writable hformed' (hproperty.valid hformed hvalid) hv hsame
  refine ⟨hback, hunsettled, Property.settled_of_defaultFree hformed', o, p₀, ho, hp₀, fun hsettle => ?_⟩
  exact hproperty.settled hformed fun schema hschema => hsettle schema (hproperty.schema ▸ hschema)

/-- Preferences that have a language. -/
def samplePrefs : Json :=
  .obj [("properties", .obj [("lang", .obj [("default", .str "en")])])]

/-- Settings that are declared without any preferences. -/
def sampleSettings : ObjectInstance where
  name := "settings"
  properties := [{ name := "prefs", value := .obj [], schema := some samplePrefs }]

theorem filled_settings_are_settled :
    ∃ changes s, (start [sampleSettings] {}).play [.set 0 "prefs" (.obj [])] = (changes, s) ∧
      s.get 0 "prefs" = some (.ok (.obj [("lang", .str "en")])) ∧
      s.set 0 "prefs" (.obj [("lang", .str "en")]) = (some (.ok false), s) := by
  have hordered (key : String) (v : Json) : Dict.Ordered [(key, v)] := List.pairwise_singleton ..
  have built : ∀ o ∈ [sampleSettings], ∃ raw : ObjectInstance, raw.build = .ok o := by
    intro o ho
    obtain rfl := List.mem_singleton.mp ho
    exact ⟨sampleSettings, rfl⟩
  have formed : ∀ o ∈ [sampleSettings], ∀ p ∈ o.properties, p.WellFormed := by
    intro o ho p hp
    obtain rfl := List.mem_singleton.mp ho
    obtain rfl := List.mem_singleton.mp hp
    refine ⟨.obj .nil (by simp), fun schema hschema => ?_⟩
    obtain rfl := Option.some.inj hschema
    simp [samplePrefs, hordered]
  have given : ∀ a ∈ [Access.set 0 "prefs" (.obj [])], a.WellFormed := by
    intro a ha
    obtain rfl := List.mem_singleton.mp ha
    exact .obj .nil (by simp)
  have hplayed : ((start [sampleSettings] {}).play [.set 0 "prefs" (.obj [])]).2.drafts[0]?.bind
      (·.property? "prefs") =
        some { name := "prefs", value := .obj [("lang", .str "en")], schema := some samplePrefs } := rfl
  obtain ⟨d, hd, hp⟩ := Option.bind_eq_some_iff.mp hplayed
  have hv : (Json.obj [("lang", .str "en")]).WellFormed := by simp [hordered]
  obtain ⟨hback, -⟩ := write_back_iff {} built formed given rfl hd hp rfl hv rfl
  refine ⟨_, _, rfl, rfl, hback.mpr fun schema hschema => ?_⟩
  obtain rfl := Option.some.inj hschema
  rfl

theorem declared_settings_are_filled :
    sampleSettings.build = .ok sampleSettings ∧
      (start [sampleSettings] {}).get 0 "prefs" = some (.ok (.obj [])) ∧
      Json.same (.obj []) (.obj []) = true ∧
      ∃ s, (start [sampleSettings] {}).set 0 "prefs" (.obj []) = (some (.ok true), s) ∧
        s.get 0 "prefs" = some (.ok (.obj [("lang", .str "en")])) :=
  ⟨rfl, rfl, rfl, _, rfl, rfl⟩

end Drafting

end ScriptAgent
