import Mathlib.Data.List.Nodup
import ScriptAgent.Proofs.Dict
import ScriptAgent.Proofs.Object.Sealed

/-!
# What mutations tell of a draft

A draft lists each changed property once, with its first and its last value.  Put over the object that the
draft was made of, its mutations therefore give the draft's own properties.
-/

namespace ScriptAgent

namespace ObjectInstance

variable {ps : List Property}

/-! ### Writes to properties -/

theorem find?_setValue (key name : String) (v : Json) (ps : List Property) :
    (setValue name v ps).find? (·.name == key) =
      if key = name then (ps.find? (·.name == key)).map ({ · with value := v }) else ps.find? (·.name == key) := by
  induction ps with
  | nil => simp [setValue]
  | cons p ps ih =>
    rw [setValue]
    by_cases hp : p.name = name
    · rw [if_pos (beq_iff_eq.mpr hp), List.find?_cons, List.find?_cons]
      by_cases hk : key = name
      · simp [hk, hp]
      · have hne : (p.name == key) = false := by simpa [hp] using Ne.symm hk
        simp [hne, hk]
    · rw [if_neg (by simpa using hp), List.find?_cons, List.find?_cons, ih]
      by_cases hk : key = name
      · have hne : (p.name == key) = false := by simpa [hk] using hp
        simp [hne]
      · simp [hk]

theorem setValue_setValue (name : String) (v w : Json) (ps : List Property) :
    setValue name w (setValue name v ps) = setValue name w ps := by
  induction ps with
  | nil => rfl
  | cons p ps ih => by_cases hp : p.name = name <;> simp [setValue, hp, ih]

theorem setValue_comm {j k : String} (h : j ≠ k) (v w : Json) (ps : List Property) :
    setValue j v (setValue k w ps) = setValue k w (setValue j v ps) := by
  induction ps with
  | nil => rfl
  | cons p ps ih =>
    by_cases hj : p.name = j
    · simp [setValue, hj, h]
    · by_cases hk : p.name = k <;> simp [setValue, hj, hk, Ne.symm h, ih]

/-! ### Mutations put over properties -/

/-- Properties after the writes that mutations stand for. -/
def replay (ms : List Mutation) (ps : List Property) : List Property :=
  ms.foldl (fun ps m => setValue m.property m.after ps) ps

@[simp] theorem replay_nil : replay [] ps = ps := rfl

@[simp] theorem replay_cons (m : Mutation) (ms : List Mutation) :
    replay (m :: ms) ps = replay ms (setValue m.property m.after ps) := rfl

theorem replay_setValue {name : String} {ms : List Mutation} (h : name ∉ ms.map (·.property)) (v : Json) :
    replay ms (setValue name v ps) = setValue name v (replay ms ps) := by
  induction ms generalizing ps with
  | nil => rfl
  | cons m ms ih =>
    obtain ⟨hm, hms⟩ : name ≠ m.property ∧ name ∉ ms.map (·.property) := by simpa using h
    rw [replay_cons, replay_cons, setValue_comm (Ne.symm hm), ih hms]

/-- An object takes over the mutations of its own only. -/
theorem reconcile_eq (o : ObjectInstance) (ms : List Mutation) :
    o.reconcile ms = { o with properties := replay (ms.filter (·.object == o.name)) o.properties } := by
  unfold reconcile
  induction ms generalizing o with
  | nil => rfl
  | cons m ms ih =>
    rw [List.foldl_cons, ih]
    unfold apply
    by_cases hm : (m.object == o.name) = true
    · rw [if_pos hm, List.filter_cons, if_pos hm, replay_cons]
    · rw [if_neg hm, List.filter_cons, if_neg hm]

/-! ### Objects that were built -/

theorem nodup_of_checkProperties {object : String} {seen seen' : List String}
    (h : checkProperties object seen ps = .ok seen') :
    (ps.map (·.name)).Nodup ∧ ∀ name ∈ ps.map (·.name), name ∉ seen := by
  induction ps generalizing seen with
  | nil => exact ⟨.nil, fun _ h => nomatch h⟩
  | cons p ps ih =>
    rw [checkProperties] at h
    split at h
    · cases h
    · dsimp only at h
      split at h
      · cases h
      · next hseen =>
        have hrest : checkProperties object (seen ++ [p.name]) ps = .ok seen' := by
          split at h
          · split at h
            · exact h
            · cases h
          · exact h
        obtain ⟨hnodup, hfresh⟩ := ih hrest
        have hname : p.name ∉ ps.map (·.name) := fun hmem => hfresh _ hmem (by simp)
        refine ⟨List.nodup_cons.mpr ⟨hname, hnodup⟩, fun name hmem => ?_⟩
        rcases List.mem_cons.mp hmem with rfl | hmem
        · simpa using hseen
        · exact fun hs => hfresh name hmem (List.mem_append_left _ hs)

/-- An object that was built declares each property once. -/
theorem nodup_of_build {o o' : ObjectInstance} (h : o.build = .ok o') : (o'.properties.map (·.name)).Nodup := by
  obtain ⟨rfl, -⟩ := of_build h
  unfold build at h
  dsimp only at h
  split at h
  · cases h
  · split at h
    · cases h
    · obtain ⟨seen, hseen, -⟩ := ok_of_bind h
      exact (nodup_of_checkProperties hseen).1

end ObjectInstance

namespace Draft

open ObjectInstance

variable {o : ObjectInstance} {d d' : Draft} {m n : Mutation} {ms : List Mutation} {ps : List Property}
  {changes : List (String × Json)} {key : String} {v w : Json}

/-! ### Lists of mutations -/

theorem properties_noteChange (m : Mutation) (ms : List Mutation) :
    (noteChange m ms).map (·.property) =
      if m.property ∈ ms.map (·.property) then ms.map (·.property) else ms.map (·.property) ++ [m.property] := by
  induction ms with
  | nil => rfl
  | cons n ms ih =>
    rw [noteChange]
    by_cases hn : n.property = m.property
    · simp [hn]
    · rw [if_neg (by simpa using hn), List.map_cons, ih]
      have hcons : m.property ∈ (n :: ms).map (·.property) ↔ m.property ∈ ms.map (·.property) := by
        simp [Ne.symm hn]
      simp only [hcons]
      split <;> rfl

theorem nodup_noteChange (h : (ms.map (·.property)).Nodup) (m : Mutation) :
    ((noteChange m ms).map (·.property)).Nodup := by
  rw [properties_noteChange]
  split
  · exact h
  · next hm => exact List.concat_eq_append ▸ h.concat hm

/-- The mutation of the property that was changed carries its latest value. -/
theorem after_of_mem_noteChange (h : (ms.map (·.property)).Nodup) (hn : n ∈ noteChange m ms)
    (hp : n.property = m.property) : n.after = m.after := by
  induction ms with
  | nil =>
    obtain rfl := List.mem_singleton.mp hn
    rfl
  | cons n' ms ih =>
    obtain ⟨hfresh, hrest⟩ := List.nodup_cons.mp h
    rw [noteChange] at hn
    split at hn
    · next hn' =>
      rcases List.mem_cons.mp hn with rfl | hmem
      · rfl
      · have hsame : n'.property = n.property := (beq_iff_eq.mp hn').trans hp.symm
        exact absurd (List.mem_map.mpr ⟨n, hmem, hsame.symm⟩) hfresh
    · next hn' =>
      rcases List.mem_cons.mp hn with rfl | hmem
      · exact absurd (beq_iff_eq.mpr hp) hn'
      · exact ih hrest hmem

theorem replay_noteChange (h : (ms.map (·.property)).Nodup) (m : Mutation) :
    replay (noteChange m ms) ps = setValue m.property m.after (replay ms ps) := by
  induction ms generalizing ps with
  | nil => rfl
  | cons n ms ih =>
    obtain ⟨hfresh, hrest⟩ := List.nodup_cons.mp h
    rw [noteChange]
    by_cases hn : n.property = m.property
    -- the mutation keeps its place, and no later one is of its property: the new write moves up to it
    · rw [if_pos (beq_iff_eq.mpr hn), replay_cons, replay_cons, ← hn, ← replay_setValue hfresh,
        setValue_setValue]
    · rw [if_neg (by simpa using hn), replay_cons, replay_cons, ih hrest]

/-! ### Drafts and their objects -/

/-- A write that stores nothing leaves the draft as it is. -/
theorem eq_of_set (h : d.set key v = .ok (d', none)) : d' = d := by
  obtain ⟨-, w, -, -, ⟨hd, -⟩ | ⟨-, hsome⟩⟩ := set_cases h
  · exact hd
  · cases hsome

theorem get_eq_ok : d.get key = .ok v ↔ (d.property? key).map (·.value) = some v := by
  unfold get
  cases d.property? key <;> simp

/-- A draft of an object that certain writes have changed: its mutations list the properties that were
written, each once, in the order of their first changes, from the object's value to the draft's; all other
properties have the object's value; and the object gets the draft's properties by taking the mutations over. -/
structure Tracks (o : ObjectInstance) (d : Draft) (changes : List (String × Json)) : Prop where
  draft : Of o d
  single : (d.mutations.map (·.property)).Nodup
  order : d.mutations.map (·.property) = (changes.map (·.1)).eraseDups
  before : ∀ m ∈ d.mutations, o.get? m.property = some m.before
  after : ∀ m ∈ d.mutations, d.get m.property = .ok m.after
  untouched : ∀ key v, key ∉ d.mutations.map (·.property) → o.get? key = some v → d.get key = .ok v
  initial : ∀ key, d.initial.get? key = o.get? key
  properties : d.properties = (o.reconcile d.mutations).properties

theorem get?_values (ps : List Property) (key : String) :
    Dict.get? (ps.map fun p => (p.name, p.value)) key = (ps.find? (·.name == key)).map (·.value) := by
  induction ps with
  | nil => rfl
  | cons p ps ih =>
    rw [List.map_cons, Dict.get?, List.find?_cons]
    cases p.name == key
    · exact ih
    · rfl

/-- A draft that nothing was written to. -/
theorem tracks_ofInstance (h : (o.properties.map (·.name)).Nodup) : Tracks o (ofInstance o) [] where
  draft := of_ofInstance (.refl o)
  single := .nil
  order := rfl
  before := fun _ hm => nomatch hm
  after := fun _ hm => nomatch hm
  untouched := fun _ _ _ hv => get_eq_ok.mpr hv
  initial := fun key => by
    have hkeys : (Dict.keys (o.properties.map fun p => (p.name, p.value))).Nodup := by
      rwa [Dict.keys, List.map_map]
    exact (Dict.get?_ofList hkeys key).trans (get?_values o.properties key)
  properties := rfl

theorem Tracks.own (h : Tracks o d changes) : d.mutations.filter (·.object == o.name) = d.mutations :=
  List.filter_eq_self.mpr fun m hm => beq_iff_eq.mpr (h.draft.mutations m hm).1

theorem Tracks.replays (h : Tracks o d changes) : d.properties = replay d.mutations o.properties := by
  rw [h.properties, reconcile_eq, h.own]

theorem eraseDups_concat (keys : List String) (key : String) :
    (keys ++ [key]).eraseDups = if key ∈ keys then keys.eraseDups else keys.eraseDups ++ [key] := by
  rw [List.eraseDups_append]
  by_cases h : key ∈ keys <;> simp [List.removeAll, h, List.eraseDups_cons]

/-- The draft with a mutation put into it. -/
def noted (d : Draft) (m : Mutation) : Draft :=
  { d with properties := setValue m.property m.after d.properties, mutations := noteChange m d.mutations }

theorem value_noted (hp : (d.property? m.property).isSome) (key : String) :
    ((d.noted m).property? key).map (·.value) =
      if key = m.property then some m.after else (d.property? key).map (·.value) := by
  unfold noted property?
  rw [find?_setValue]
  split
  · next hk =>
    obtain ⟨p, hp⟩ := Option.isSome_iff_exists.mp hp
    unfold property? at hp
    rw [hk, hp]
    rfl
  · rfl

theorem Tracks.noted (h : Tracks o d changes) (hp : (d.property? m.property).isSome)
    (hbefore : o.get? m.property = some m.before) (hdraft : Of o (d.noted m)) :
    Tracks o (d.noted m) (changes ++ [(m.property, m.after)]) where
  draft := hdraft
  single := nodup_noteChange h.single m
  order := by
    rw [List.map_append, List.map_singleton, eraseDups_concat, ← h.order]
    show (noteChange m d.mutations).map _ = _
    rw [properties_noteChange]
    have hmem : m.property ∈ d.mutations.map (·.property) ↔ m.property ∈ changes.map (·.1) := by
      rw [h.order, List.mem_eraseDups]
    simp only [hmem]
  before n hn := by
    rcases mem_noteChange hn with rfl | hn | ⟨n', hn', -, rfl⟩
    · exact hbefore
    · exact h.before n hn
    · exact h.before n' hn'
  after n hn := by
    rw [get_eq_ok, value_noted hp]
    -- the note of the property that was written tells what is stored
    by_cases hk : n.property = m.property
    · rw [if_pos hk, after_of_mem_noteChange h.single hn hk]
    · rw [if_neg hk]
      rcases mem_noteChange hn with rfl | hn | ⟨n', -, hn', rfl⟩
      · exact absurd rfl hk
      · exact get_eq_ok.mp (h.after n hn)
      · exact absurd hn' hk
  untouched key v hk hv := by
    have hk' : key ∉ d.mutations.map (·.property) ∧ key ≠ m.property := by
      have hk : key ∉ (noteChange m d.mutations).map (·.property) := hk
      rw [properties_noteChange] at hk
      split at hk
      · next hm => exact ⟨hk, fun hkm => hk (hkm ▸ hm)⟩
      · simpa using hk
    rw [get_eq_ok, value_noted hp, if_neg hk'.2]
    exact get_eq_ok.mp (h.untouched key v hk'.1 hv)
  initial := h.initial
  properties := by
    have hown : (noteChange m d.mutations).filter (·.object == o.name) = noteChange m d.mutations :=
      List.filter_eq_self.mpr fun n hn => beq_iff_eq.mpr (hdraft.mutations n hn).1
    show setValue m.property m.after d.properties = (o.reconcile (noteChange m d.mutations)).properties
    rw [reconcile_eq, hown, replay_noteChange h.single, h.replays]

/-- A write that stores a value is one more change. -/
theorem Tracks.set (h : Tracks o d changes) (hset : d.set key v = .ok (d', some w)) :
    d'.get key = .ok w ∧ Tracks o d' (changes ++ [(key, w)]) := by
  have hdraft := h.draft.set hset
  obtain ⟨q, w', hq, -, ⟨-, hnone⟩ | ⟨rfl, hw⟩⟩ := set_cases hset
  · cases hnone
  · obtain rfl := Option.some.inj hw
    obtain ⟨p, hp, -⟩ := find_of_keeps h.draft.properties hq
    have hvalue : o.get? key = some p.value := by
      rw [ObjectInstance.get?, ObjectInstance.property?, hp]
      rfl
    have hfound : (d.property? key).isSome := by rw [hq]; rfl
    -- so the missing value that the mutation would otherwise start from is never taken
    have hbefore : (d.initial.get? key).getD .null = p.value := by rw [h.initial, hvalue]; rfl
    rw [hbefore] at hdraft ⊢
    let m : Mutation := ⟨d.name, key, p.value, w⟩
    exact ⟨get_eq_ok.mpr ((value_noted (m := m) hfound key).trans (if_pos rfl)),
      h.noted (m := m) hfound hvalue hdraft⟩

end Draft

end ScriptAgent
