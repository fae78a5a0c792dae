import Mathlib.Data.List.Forall2
import ScriptAgent.Object.Draft

/-!
# Objects stay as they were declared

A property takes only values that its declaration admits, and only if it is writable.  A draft keeps
to that, its mutations carry only such values, and so an object that takes them over keeps to it too.
-/

namespace ScriptAgent

/-! ### Properties -/

namespace Property

/-- A value that a script may give a property. -/
structure Admits (p : Property) (v : Json) : Prop where
  writable : p.writable = true
  checked : ∀ schema, p.schema = some schema → validate schema v = .ok ()

/-- A declared property later: all but its value is as it was, and the value is the first one or one
that it admits. -/
structure Keeps (p q : Property) : Prop where
  name : q.name = p.name
  writable : q.writable = p.writable
  schema : q.schema = p.schema
  description : q.description = p.description
  value : q.value = p.value ∨ p.Admits q.value

variable {p q : Property}

theorem Keeps.refl (p : Property) : p.Keeps p := ⟨rfl, rfl, rfl, rfl, .inl rfl⟩

theorem Keeps.set (h : p.Keeps q) {v : Json} (hv : p.Admits v) : p.Keeps { q with value := v } :=
  ⟨h.name, h.writable, h.schema, h.description, .inr hv⟩

end Property

/-! ### Lists of properties -/

namespace ObjectInstance

variable {ps qs : List Property}

/-- A declared property is found in the place of its later form. -/
theorem find_of_keeps (h : List.Forall₂ Property.Keeps ps qs) {name : String} {q : Property}
    (hq : qs.find? (·.name == name) = some q) : ∃ p, ps.find? (·.name == name) = some p ∧ p.Keeps q := by
  induction h with
  | nil => cases hq
  | @cons p q' ps qs hpq _ ih =>
    rw [List.find?_cons] at hq ⊢
    rw [hpq.name] at hq
    split at hq
    · cases hq
      exact ⟨p, rfl, hpq⟩
    · exact ih hq

theorem setValue_keeps (h : List.Forall₂ Property.Keeps ps qs) {name : String} {v : Json}
    (hv : ∀ p, ps.find? (·.name == name) = some p → p.Admits v) :
    List.Forall₂ Property.Keeps ps (setValue name v qs) := by
  induction h with
  | nil => exact .nil
  | @cons p q ps qs hpq hrest ih =>
    rw [setValue]
    by_cases hn : (p.name == name) = true
    · rw [if_pos (hpq.name ▸ hn)]
      exact .cons (hpq.set (hv p (by rw [List.find?_cons, hn]))) hrest
    · rw [if_neg (hpq.name ▸ hn)]
      refine .cons hpq (ih fun p' hp' => hv p' ?_)
      rw [List.find?_cons, Bool.eq_false_iff.mpr hn]
      exact hp'

/-! ### Objects -/

/-- A declared object later: its properties keep to their declarations, all else is as it was. -/
structure Keeps (o o' : ObjectInstance) : Prop where
  name : o'.name = o.name
  description : o'.description = o.description
  tools : o'.tools = o.tools
  properties : List.Forall₂ Property.Keeps o.properties o'.properties

theorem Keeps.refl (o : ObjectInstance) : o.Keeps o :=
  ⟨rfl, rfl, rfl, List.forall₂_same.mpr fun p _ => .refl p⟩

end ObjectInstance

/-- A mutation that a declared object may take over, unless it is of another object. -/
def Mutation.Suits (o : ObjectInstance) (m : Mutation) : Prop :=
  m.object = o.name → ∀ p, o.property? m.property = some p → p.Admits m.after

namespace ObjectInstance

variable {o o' : ObjectInstance}

theorem Keeps.apply (h : o.Keeps o') {m : Mutation} (hm : m.Suits o) : o.Keeps (o'.apply m) := by
  unfold ObjectInstance.apply
  split
  · next hn =>
    have hv := hm ((beq_iff_eq.mp hn).trans h.name)
    exact ⟨h.name, h.description, h.tools, setValue_keeps h.properties hv⟩
  · exact h

/-- Suitable mutations leave an object as it was declared. -/
theorem Keeps.reconcile (h : o.Keeps o') {ms : List Mutation} (hms : ∀ m ∈ ms, m.Suits o) :
    o.Keeps (o'.reconcile ms) := by
  unfold ObjectInstance.reconcile
  induction ms generalizing o' with
  | nil => exact h
  | cons m ms ih =>
    exact ih (h.apply (hms m (List.mem_cons_self ..))) fun m' hm' => hms m' (List.mem_cons_of_mem _ hm')

end ObjectInstance

/-! ### Drafts -/

theorem ok_of_bind {ε α β : Type} {x : Except ε α} {f : α → Except ε β} {b : β} (h : x >>= f = .ok b) :
    ∃ a, x = .ok a ∧ f a = .ok b := by
  cases x with
  | error e => cases h
  | ok a => exact ⟨a, rfl, h⟩

theorem validate_of_parseWith {schema v w : Json} (h : parseWith schema v = .ok w) :
    validate schema w = .ok () := by
  obtain ⟨u, hu, hw⟩ := ok_of_bind h
  cases hw
  exact hu

namespace Draft

/-- A draft of a declared object: its properties keep to their declarations, and its mutations carry
values that they admit. -/
structure Of (o : ObjectInstance) (d : Draft) : Prop where
  name : d.name = o.name
  properties : List.Forall₂ Property.Keeps o.properties d.properties
  mutations : ∀ m ∈ d.mutations, m.object = o.name ∧
    ∃ p, o.property? m.property = some p ∧ p.Admits m.after

variable {o o' : ObjectInstance} {d d' : Draft}

theorem of_ofInstance (h : o.Keeps o') : Of o (ofInstance o') :=
  ⟨h.name, h.properties, fun _ hm => nomatch hm⟩

theorem mem_noteChange {m n : Mutation} {ms : List Mutation} (h : n ∈ noteChange m ms) :
    n = m ∨ n ∈ ms ∨ ∃ n' ∈ ms, n'.property = m.property ∧ n = { n' with after := m.after } := by
  induction ms with
  | nil => exact .inl (List.mem_singleton.mp h)
  | cons n' ms ih =>
    rw [noteChange] at h
    split at h
    · next hn =>
      rcases List.mem_cons.mp h with rfl | h
      · exact .inr (.inr ⟨n', List.mem_cons_self .., beq_iff_eq.mp hn, rfl⟩)
      · exact .inr (.inl (List.mem_cons_of_mem _ h))
    · rcases List.mem_cons.mp h with rfl | h
      · exact .inr (.inl (List.mem_cons_self ..))
      · rcases ih h with h | h | ⟨n'', hn'', h⟩
        · exact .inl h
        · exact .inr (.inl (List.mem_cons_of_mem _ h))
        · exact .inr (.inr ⟨n'', List.mem_cons_of_mem _ hn'', h⟩)

/-- A value that is the same as the stored one is not stored. -/
theorem stored_of_written {c : Prop} [Decidable c] {e : Draft} {w : Json} {stored : Option Json}
    (h : (if c then pure (d, none) else pure (e, some w) : Except ObjectError (Draft × Option Json)) =
      .ok (d', stored)) : (d' = d ∧ stored = none) ∨ (d' = e ∧ stored = some w) := by
  split at h
  · cases h
    exact .inl ⟨rfl, rfl⟩
  · cases h
    exact .inr ⟨rfl, rfl⟩

/-- What a write that was not refused has checked and done. -/
theorem set_cases {name : String} {v : Json} {stored : Option Json} (h : d.set name v = .ok (d', stored)) :
    ∃ p w, d.property? name = some p ∧ p.Admits w ∧
      ((d' = d ∧ stored = none) ∨
        (d' = { d with
            properties := ObjectInstance.setValue name w d.properties
            mutations := noteChange ⟨d.name, name, (d.initial.get? name).getD .null, w⟩ d.mutations } ∧
          stored = some w)) := by
  unfold set at h
  cases hp : d.property? name with
  | none => rw [hp] at h; cases h
  | some p =>
    rw [hp] at h
    dsimp only at h
    split at h
    · cases h
    · next hw =>
      have hw : p.writable = true := by simpa using hw
      cases hs : p.schema with
      | none =>
        rw [hs] at h
        refine ⟨p, v, rfl, ⟨hw, fun schema hs' => ?_⟩, stored_of_written h⟩
        rw [hs] at hs'
        cases hs'
      | some schema =>
        rw [hs] at h
        dsimp only at h
        cases hv : parseWith schema v with
        | error e => rw [hv] at h; cases h
        | ok w =>
          rw [hv] at h
          refine ⟨p, w, rfl, ⟨hw, fun schema' hs' => ?_⟩, stored_of_written h⟩
          rw [hs] at hs'
          cases hs'
          exact validate_of_parseWith hv

theorem Of.set (h : Of o d) {name : String} {v : Json} {stored : Option Json}
    (hs : d.set name v = .ok (d', stored)) : Of o d' := by
  obtain ⟨q, w, hq, hw, ⟨rfl, -⟩ | ⟨rfl, -⟩⟩ := set_cases hs
  · exact h
  · obtain ⟨p, hp, hpq⟩ := ObjectInstance.find_of_keeps h.properties hq
    have admits : p.Admits w := ⟨hpq.writable ▸ hw.writable, hpq.schema ▸ hw.checked⟩
    refine ⟨h.name, ObjectInstance.setValue_keeps h.properties fun p' hp' => ?_, fun m hm => ?_⟩
    · rw [hp] at hp'
      cases hp'
      exact admits
    · rcases mem_noteChange hm with rfl | hm | ⟨n, hn, hname, rfl⟩
      · exact ⟨h.name, p, hp, admits⟩
      · exact h.mutations m hm
      · refine ⟨(h.mutations n hn).1, p, ?_, admits⟩
        show o.property? n.property = some p
        rw [hname]
        exact hp

/-- The mutations of a draft suit the object that it was made of. -/
theorem Of.suits (h : Of o d) {m : Mutation} (hm : m ∈ d.mutations) : m.Suits o := by
  intro _ p hp
  obtain ⟨-, p', hp', admits⟩ := h.mutations m hm
  rw [hp'] at hp
  cases hp
  exact admits

end Draft

/-! ### Objects that were built -/

/-- A value that satisfies the schema of its property, if there is one. -/
def Property.Valid (p : Property) : Prop :=
  ∀ schema, p.schema = some schema → validate schema p.value = .ok ()

/-- A property as the host may rely on it: declared as at first, with its first value unless it is
writable, and with a value that satisfies its schema. -/
structure Property.Sealed (p q : Property) : Prop where
  name : q.name = p.name
  writable : q.writable = p.writable
  schema : q.schema = p.schema
  frozen : q.writable = false → q.value = p.value
  valid : q.Valid

/-- An object as the host may rely on it: the same properties in the same order, each sealed. -/
structure ObjectInstance.Sealed (o o' : ObjectInstance) : Prop where
  name : o'.name = o.name
  properties : List.Forall₂ Property.Sealed o.properties o'.properties

theorem Property.Keeps.isSealed {p q : Property} (h : p.Keeps q) (hp : p.Valid) : p.Sealed q := by
  refine ⟨h.name, h.writable, h.schema, fun hw => ?_, fun schema hs => ?_⟩
  · rcases h.value with hv | hv
    · exact hv
    · rw [h.writable, hv.writable] at hw
      cases hw
  · rw [h.schema] at hs
    rcases h.value with hv | hv
    · rw [hv]
      exact hp schema hs
    · exact hv.checked schema hs

namespace ObjectInstance

theorem Keeps.isSealed {o o' : ObjectInstance} (h : o.Keeps o') (ho : ∀ p ∈ o.properties, p.Valid) :
    o.Sealed o' := by
  refine ⟨h.name, ?_⟩
  have both := (List.forall₂_and_left _ _).mpr ⟨ho, h.properties⟩
  exact both.imp fun p q hpq => hpq.2.isSealed hpq.1

theorem valid_of_checkProperties {object : String} {seen seen' : List String} {ps : List Property}
    (h : checkProperties object seen ps = .ok seen') : ∀ p ∈ ps, p.Valid := by
  induction ps generalizing seen with
  | nil => exact fun p hp => nomatch hp
  | cons p ps ih =>
    rw [checkProperties] at h
    split at h
    · cases h
    · dsimp only at h
      split at h
      · cases h
      · cases hs : p.schema with
        | none =>
          rw [hs] at h
          refine List.forall_mem_cons.mpr ⟨fun schema hs' => ?_, ih h⟩
          rw [hs] at hs'
          cases hs'
        | some schema =>
          rw [hs] at h
          dsimp only at h
          cases hv : validate schema p.value with
          | error e => rw [hv] at h; cases h
          | ok u =>
            rw [hv] at h
            refine List.forall_mem_cons.mpr ⟨fun schema' hs' => ?_, ih h⟩
            rw [hs] at hs'
            cases hs'
            exact hv

/-- Only objects whose values satisfy their schemas are built, and they are what they were made of. -/
theorem of_build {o o' : ObjectInstance} (h : o.build = .ok o') : o' = o ∧ ∀ p ∈ o.properties, p.Valid := by
  unfold build at h
  dsimp only at h
  split at h
  · cases h
  · split at h
    · cases h
    · obtain ⟨seen, hseen, h⟩ := ok_of_bind h
      obtain ⟨-, -, h⟩ := ok_of_bind h
      cases h
      exact ⟨rfl, valid_of_checkProperties hseen⟩

end ObjectInstance

end ScriptAgent
