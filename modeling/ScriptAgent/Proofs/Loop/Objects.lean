import Mathlib.Data.List.Nodup
import ScriptAgent.Proofs.Loop.Result
import ScriptAgent.Proofs.Sandbox.Writes

/-!
# Objects over many runs

What a host hands to scripts it gets back as it was declared: whatever scripts do, over any number of
turns and runs, an object keeps its properties, and their values keep to what was declared of them.
-/

namespace ScriptAgent

variable {declared : List ObjectInstance}

/-- Objects that are later forms of the declared ones, in their order. -/
abbrev Kept (declared objects : List ObjectInstance) : Prop :=
  List.Forall₂ ObjectInstance.Keeps declared objects

namespace Context

/-! ### Names -/

theorem nodup_of_checkGlobals {seen names seen' : List String} (h : checkGlobals seen names = .ok seen') :
    names.Nodup ∧ ∀ name ∈ names, name ∉ seen := by
  induction names generalizing seen with
  | nil => exact ⟨.nil, fun _ h => nomatch h⟩
  | cons name rest ih =>
    rw [checkGlobals] at h
    split at h
    · cases h
    · split at h
      · cases h
      · split at h
        · cases h
        · next hseen =>
          obtain ⟨hnodup, hfresh⟩ := ih h
          have hname : name ∉ rest := fun hmem => hfresh name hmem (by simp)
          refine ⟨List.nodup_cons.mpr ⟨hname, hnodup⟩, fun n hn => ?_⟩
          rcases List.mem_cons.mp hn with rfl | hn
          · simpa using hseen
          · exact fun hs => hfresh n hn (List.mem_append_left _ hs)

/-- A context that is not refused names each object differently. -/
theorem names_nodup {c : Context} (h : c.validate = .ok ()) : (c.objects.map (·.name)).Nodup := by
  unfold validate at h
  cases hc : c.check with
  | error e => rw [hc] at h; cases h
  | ok u =>
    unfold check at hc
    dsimp only at hc
    split at hc
    · cases hc
    · obtain ⟨globals, hg, -⟩ := ok_of_bind hc
      exact (List.nodup_append.mp (nodup_of_checkGlobals hg).1).2.1

end Context

/-! ### A turn -/

theorem Kept.names {objects : List ObjectInstance} (h : Kept declared objects) :
    objects.map (·.name) = declared.map (·.name) := by
  induction h with
  | nil => rfl
  | cons hk _ ih => rw [List.map_cons, List.map_cons, hk.name, ih]

theorem Kept.declared_of_mem {objects : List ObjectInstance} (h : Kept declared objects) :
    ∀ o ∈ objects, ∃ o₀ ∈ declared, o₀.Keeps o := by
  induction h with
  | nil => exact fun _ h => nomatch h
  | @cons o₀ o declared objects hk _ ih =>
    refine List.forall_mem_cons.mpr ⟨⟨o₀, List.mem_cons_self .., hk⟩, fun o' ho' => ?_⟩
    obtain ⟨o₁, ho₁, hk₁⟩ := ih o' ho'
    exact ⟨o₁, List.mem_cons_of_mem _ ho₁, hk₁⟩

/-- Among objects with different names, mutations of one are taken over by that one only. -/
theorem Kept.reconcile {objects : List ObjectInstance} (h : Kept declared objects)
    (hn : (declared.map (·.name)).Nodup) {ms : List Mutation}
    (hms : ∀ m ∈ ms, ∃ o ∈ declared, m.object = o.name ∧ m.Suits o) :
    Kept declared (objects.map (·.reconcile ms)) := by
  have suits : ∀ o ∈ declared, ∀ m ∈ ms, m.Suits o := by
    intro o ho m hm hmo
    obtain ⟨o', ho', hname, hs⟩ := hms m hm
    obtain rfl := List.inj_on_of_nodup_map hn ho ho' (hmo ▸ hname)
    exact hs hmo
  have both := (List.forall₂_and_left _ _).mpr ⟨suits, h⟩
  exact List.forall₂_map_right_iff.mpr (both.imp fun o o' ho => ho.2.reconcile ho.1)

namespace Agent

theorem Advanced.kept {c c' : Context} {w w' : World} {ending : Option RunEnding} {i : Iteration}
    (h : Advanced c w ending c' w' i) (hk : Kept declared c.objects) (hn : (declared.map (·.name)).Nodup) :
    Kept declared c'.objects := by
  rcases h.objects with ho | ⟨j, host, hj, ho⟩
  · rwa [ho]
  · rw [ho]
    refine hk.reconcile hn (j.execute_mutations ?_ host)
    rw [hj]
    exact hk.declared_of_mem

theorem Passes.kept {turn : Turns} (ht : Advances turn) {c c' : Context} {w w' : World}
    {ending : Option RunEnding} (h : Passes turn c w ending c' w') (hk : Kept declared c.objects)
    (hn : (declared.map (·.name)).Nodup) : Kept declared c'.objects := by
  induction h with
  | start => exact hk
  | @turn c₁ c₂ w₁ w₂ ending before unaborted left turned ih =>
    obtain ⟨i, hi⟩ := ht c₁ w₁
    rw [turned] at hi
    exact hi.kept ih hn

theorem Ends.kept {turn : Turns} (ht : Advances turn) {c : Context} {w : World} {res : RunResult}
    (h : Ends turn c w res) (hk : Kept declared c.objects) (hn : (declared.map (·.name)).Nodup) :
    Kept declared res.context.objects := by
  cases h with
  | aborted passed fired => exact passed.kept ht hk hn
  | exceeded passed unaborted spent => exact passed.kept ht hk hn
  | @turned c₁ w₁ ending passed =>
    have hs : (settle ending c₁).objects = c₁.objects := by cases ending <;> rfl
    rw [show (⟨ending, settle ending c₁, w₁⟩ : RunResult).context.objects = _ from hs]
    exact passed.kept ht hk hn

/-- What a host does with a context. -/
inductive Move where
  | run
  /-- A snapshot is settled with a value, and the run goes on from it. -/
  | resolve (s : Snapshot) (value : Json)
  /-- A snapshot is settled with an error, and the run goes on from it. -/
  | reject (s : Snapshot) (error : String)

/-- What a move gives back. -/
def play (r : Agent) (move : Move) (c : Context) (w : World) : RunResult :=
  match move with
  | .run => r.run c w
  | .resolve s value => r.resolve c s value w
  | .reject s error => r.reject c s error w

/-- What a context becomes by any moves, with any models and settings: the context after an iteration
of a run, or the one that a move gives back. -/
inductive Becomes (c : Context) : Context → Prop
  | start : Becomes c c
  | iteration {r : Agent} {c₁ c₂ c₃ : Context} {w w' : World} {s : Option Snapshot}
      {ending : Option RunEnding} (before : Becomes c c₁) (valid : { c₁ with resume := s }.validate = .ok ())
      (begun : applySnapshot { c₁ with resume := s } = (c₂, none))
      (passed : Passes r.advance c₂ w ending c₃ w') : Becomes c c₃
  | move {c₁ : Context} (before : Becomes c c₁) (r : Agent) (move : Move) (w : World) :
      Becomes c (r.play move c₁ w).context

theorem run_kept {c : Context} (r : Agent) (w : World) (hk : Kept declared c.objects) :
    Kept declared (r.run c w).context.objects := by
  rcases r.run_cases c w with ⟨e, c₁, hr, -, ho, -⟩ | ⟨c₁, hv, hs, hr⟩
  · rw [hr]
    exact ho ▸ hk
  · rw [hr]
    have ht := advance_advanced r
    generalize r.advance = turn at ht ⊢
    obtain ⟨-, -, -, ho⟩ := applySnapshot_keeps hs
    have hn : (declared.map (·.name)).Nodup := hk.names ▸ Context.names_nodup hv
    exact (takeTurns_ends (Advances.counts ht) (Nat.le_refl _)).kept ht (ho ▸ hk) hn

theorem play_kept {c : Context} (r : Agent) (move : Move) (w : World) (hk : Kept declared c.objects) :
    Kept declared (r.play move c w).context.objects := by
  have goOn (s : Except RunError Snapshot) : Kept declared (r.goOn c w s).context.objects := by
    cases s with
    | error e => exact hk
    | ok s => exact run_kept r w hk
  cases move with
  | run => exact run_kept r w hk
  | resolve s value => exact goOn _
  | reject s error => exact goOn _

theorem Becomes.kept {c c' : Context} (h : Becomes c c') : Kept c.objects c'.objects := by
  induction h with
  | start => exact List.forall₂_same.mpr fun o _ => .refl o
  | @iteration r c₁ c₂ c₃ w w' s ending before valid begun passed ih =>
    obtain ⟨-, -, -, ho⟩ := applySnapshot_keeps begun
    have hn : (c.objects.map (·.name)).Nodup := ih.names ▸ Context.names_nodup valid
    exact passed.kept (advance_advanced r) (ho ▸ ih) hn
  | move before r move w ih => exact play_kept r move w ih

/-- Objects that were built stay sealed: whatever runs and resumes follow, with whatever scripts, each
object keeps its properties in their order as they were declared, read-only ones keep their values,
and values satisfy their schemas, after every iteration. -/
theorem objects_stay_sealed {c c' : Context} (built : ∀ o ∈ c.objects, ∃ raw : ObjectInstance, raw.build = .ok o)
    (h : Becomes c c') : List.Forall₂ ObjectInstance.Sealed c.objects c'.objects := by
  have valid : ∀ o ∈ c.objects, ∀ p ∈ o.properties, p.Valid := by
    intro o ho
    obtain ⟨raw, hraw⟩ := built o ho
    obtain ⟨rfl, hvalid⟩ := ObjectInstance.of_build hraw
    exact hvalid
  have both := (List.forall₂_and_left _ _).mpr ⟨valid, h.kept⟩
  exact both.imp fun o o' ho => ho.2.isSealed ho.1

/-- A user whose name may be changed. -/
def sampleUser : ObjectInstance where
  name := "user"
  properties := [{ name := "id", value := .nat 7, writable := false },
    { name := "name", value := .str "Ada", schema := some (.object [("type", .str "string")]) }]

/-- A model that changes the name and then tries to change what is read-only. -/
def sampleAgent : Agent where
  client := ScriptedClient.client [.ok "user.name = \"Bob\"; user.id = 8;"] 8000

theorem user_stays_sealed :
    sampleUser.build = .ok sampleUser ∧
      List.Forall₂ ObjectInstance.Sealed [sampleUser]
        (sampleAgent.play .run { id := "ctx", objects := [sampleUser] } {}).context.objects := by
  have built : ∀ o ∈ [sampleUser], ∃ raw : ObjectInstance, raw.build = .ok o := by
    intro o ho
    obtain rfl := List.mem_singleton.mp ho
    exact ⟨sampleUser, rfl⟩
  exact ⟨rfl, objects_stay_sealed (c := { id := "ctx", objects := [sampleUser] }) built
    (.move .start sampleAgent .run {})⟩

end Agent

end ScriptAgent
