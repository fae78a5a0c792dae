import ScriptAgent.Proofs.Object.WritingBack

/-!
# Writing again

Deep equality looks up the keys of one side only and compares numbers by their nearest doubles, and yet it is an
equivalence: two values are the same just if they mean the same once their numbers are rounded.  As a property takes
the same of the same value each time, it then holds what a second write would store.
-/

namespace ScriptAgent

namespace Json

theorem same_refl {v : Json} (h : v.WellFormed) : same v v = true :=
  (same_iff h h).mpr rfl

/-- Deep equality is an equivalence on the values that the program can hold. -/
theorem same_equivalence : Equivalence fun a b : {v : Json // v.WellFormed} => same a b = true where
  refl v := same_refl v.2
  symm {a b} hab := (same_iff b.2 a.2).mpr ((same_iff a.2 b.2).mp hab).symm
  trans {a b c} hab hbc := (same_iff a.2 c.2).mpr (((same_iff a.2 b.2).mp hab).trans ((same_iff b.2 c.2).mp hbc))

end Json

namespace Draft

variable {d d' : Draft} {p : Property} {key : String} {v w : Json} {stored : Option Json}

theorem property?_stored_self (hp : d.property? key = some p) (w : Json) :
    (d.stored key w).property? key = some { p with value := w } := by
  rw [property?_stored, if_pos rfl, hp]
  rfl

/-- A write that was accepted leaves nothing for the same write to do. -/
theorem set_set (formed : ∀ p, d.property? key = some p → p.WellFormed) (hv : v.WellFormed)
    (h : d.set key v = .ok (d', stored)) : d'.set key v = .ok (d', none) := by
  obtain ⟨p, _, hp, admits, -⟩ := set_cases h
  have hset := set_eq hp admits.writable v
  rw [h] at hset
  cases htake : p.take v with
  | error e =>
    rw [htake] at hset
    cases hset
  | ok w =>
    rw [htake] at hset
    dsimp only at hset
    split at hset
    · -- it was no change already
      cases hset
      exact h
    · cases hset
      have hw : w.WellFormed := (Property.take_spec (formed p hp) hv htake).1
      have htake' : Property.take { p with value := w } v = .ok w := htake
      rw [set_eq (property?_stored_self hp w) admits.writable, htake']
      exact if_pos (Json.same_refl hw)

end Draft

namespace Drafting

variable {s s' : Drafting} {d : Draft} {id : Nat} {key : String} {v : Json} {changed : Bool}

/-- A write that is accepted is a write to a draft. -/
theorem draft_of_set (h : s.set id key v = (some (.ok changed), s')) :
    ∃ d d' stored, s.drafts[id]? = some d ∧ d.set key v = .ok (d', stored) ∧ s'.drafts[id]? = some d' := by
  unfold set at h
  cases hd : s.drafts[id]? with
  | none =>
    rw [hd] at h
    cases h
  | some d =>
    rw [hd] at h
    dsimp only at h
    cases hset : d.set key v with
    | error e =>
      rw [hset] at h
      cases h
    | ok result =>
      rw [hset] at h
      cases h
      obtain ⟨hlt, -⟩ := Array.getElem?_eq_some_iff.mp hd
      refine ⟨d, result.1, result.2, rfl, hset, ?_⟩
      rw [Array.getElem?_setIfInBounds, if_pos rfl, if_pos hlt]

theorem set_of_no_change (hd : s.drafts[id]? = some d) (h : d.set key v = .ok (d, none)) :
    s.set id key v = (some (.ok false), s) := by
  unfold set
  rw [hd]
  dsimp only
  rw [h]
  dsimp only
  rw [setIfInBounds_of_getElem? hd]
  rfl

/-- Deep equality is an equivalence on all values that the program can hold, and so a write that was accepted, whether
it was a change or not, is no change if it is repeated, and then leaves everything as it is. -/
theorem equality_settles_writes :
    (Equivalence fun a b : {v : Json // v.WellFormed} => Json.same a b = true) ∧
      ∀ (s s' : Drafting) (id : Nat) (key : String) (v : Json) (changed : Bool),
        (∀ d ∈ s.drafts, ∀ p ∈ d.properties, p.WellFormed) → v.WellFormed →
          s.set id key v = (some (.ok changed), s') → s'.set id key v = (some (.ok false), s') := by
  refine ⟨Json.same_equivalence, fun s s' id key v changed formed hv accepted => ?_⟩
  obtain ⟨d, d', stored, hd, hset, hd'⟩ := draft_of_set accepted
  have hformed (p : Property) (hp : d.property? key = some p) : p.WellFormed :=
    formed d (Array.mem_of_getElem? hd) p (List.mem_of_find?_eq_some hp)
  have hagain : d'.set key v = .ok (d', none) := Draft.set_set hformed hv hset
  exact set_of_no_change hd' hagain

theorem settings_settle_at_once :
    ∃ s', (start [sampleSettings] {}).set 0 "prefs" (.obj []) = (some (.ok true), s') ∧
      s'.set 0 "prefs" (.obj []) = (some (.ok false), s') := by
  have formed : ∀ d ∈ (start [sampleSettings] {}).drafts, ∀ p ∈ d.properties, p.WellFormed := by
    intro d hd p hp
    obtain rfl : d = Draft.ofInstance sampleSettings := by simpa [start] using hd
    obtain rfl := List.mem_singleton.mp hp
    refine ⟨.obj .nil (by simp), fun schema hschema => ?_⟩
    obtain rfl := Option.some.inj hschema
    have hordered (key : String) (v : Json) : Dict.Ordered [(key, v)] := List.pairwise_singleton ..
    simp [samplePrefs, hordered]
  exact ⟨_, rfl, equality_settles_writes.2 _ _ 0 "prefs" (.obj []) true formed (.obj .nil (by simp)) rfl⟩

end Drafting

end ScriptAgent
