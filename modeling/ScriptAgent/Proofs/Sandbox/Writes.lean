import ScriptAgent.Proofs.Object.Sealed
import ScriptAgent.Proofs.Sandbox.RunConduct
import ScriptAgent.Sandbox.Execution

/-!
# What a run writes to objects

Only writes that were checked change a draft, so every mutation that a run gives back suits the
declared object that it names.
-/

namespace ScriptAgent

/-- Drafts of declared objects. -/
def DraftsOf (declared : List ObjectInstance) (drafts : Array Draft) : Prop :=
  ∀ d ∈ drafts, ∃ o ∈ declared, Draft.Of o d

variable {declared : List ObjectInstance}

/-- A deed leaves the drafts as they are, or it writes one. -/
theorem Deed.drafts_of_makes {env : Env} {deed : Deed} {o o' : Outside} (h : deed.Makes env o o') :
    o'.drafts = o.drafts ∨ ∃ id key v d d' stored, o.drafts[id]? = some d ∧
      Draft.set d key v = .ok (d', stored) ∧ o'.drafts = o.drafts.setIfInBounds id d' := by
  cases deed with
  | write id key v =>
    obtain ⟨d, d', stored, hd, hset, rfl⟩ := h
    exact .inr ⟨id, key, v, d, d', stored, hd, hset, rfl⟩
  | note t =>
    obtain ⟨-, rfl⟩ := h
    exact .inl rfl
  | record id key v =>
    obtain ⟨-, -, -, -, rfl⟩ := h
    exact .inl rfl
  | call t r deadline =>
    obtain ⟨-, -, -, -, -, rfl⟩ := h
    exact .inl rfl
  | _ =>
    obtain rfl := h
    exact .inl rfl

theorem Deed.keeps_drafts {env : Env} {d : Deed} {o o' : Outside} (h : d.Makes env o o')
    (ho : DraftsOf declared o.drafts) : DraftsOf declared o'.drafts := by
  rcases Deed.drafts_of_makes h with hsame | ⟨id, key, v, d, d', stored, hd, hset, hdrafts⟩
  · rwa [hsame]
  · rw [hdrafts]
    intro e he
    rcases Array.mem_or_eq_of_mem_setIfInBounds he with he | rfl
    · exact ho e he
    · obtain ⟨object, hobject, hof⟩ := ho d (Array.mem_of_getElem? hd)
      exact ⟨object, hobject, hof.set hset⟩

namespace Job

theorem draftsOf_machine {j : Job} (h : ∀ o ∈ j.objects, ∃ o₀ ∈ declared, o₀.Keeps o) (host : Host) :
    DraftsOf declared (j.machine host).drafts := by
  intro d hd
  obtain ⟨o, ho, rfl⟩ := List.mem_map.mp (List.mem_toArray.mp hd)
  obtain ⟨o₀, ho₀, hk⟩ := h o ho
  exact ⟨o₀, ho₀, Draft.of_ofInstance hk⟩

/-- A run on objects that keep to their declarations gives back suitable mutations of these. -/
theorem execute_mutations {j : Job} (h : ∀ o ∈ j.objects, ∃ o₀ ∈ declared, o₀.Keeps o) (host : Host) :
    ∀ m ∈ (j.execute host).1.mutations, ∃ o ∈ declared, m.object = o.name ∧ m.Suits o := by
  intro m hm
  obtain ⟨functions, ds, o, hds, ho, -⟩ := j.run_conduct host
  have hdrafts : (j.run host).machine.drafts = o.drafts := congrArg Outside.drafts ho
  obtain ⟨d, hd, hmd⟩ := List.mem_flatMap.mp hm
  have hall : DraftsOf declared o.drafts :=
    hds.invariant (P := fun o => DraftsOf declared o.drafts) (fun _ _ _ _ made ih => Deed.keeps_drafts made ih)
      (draftsOf_machine h host)
  obtain ⟨object, hobject, hof⟩ := hall d (hdrafts ▸ Array.mem_toList_iff.mp hd)
  exact ⟨object, hobject, (hof.mutations m hmd).1, hof.suits hmd⟩

end Job

end ScriptAgent
