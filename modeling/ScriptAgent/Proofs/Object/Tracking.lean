import ScriptAgent.Proofs.Loop.Objects
import ScriptAgent.Proofs.Object.Replay

/-!
# Accesses to drafts

The drafts of a run may be read and written by whoever holds them, in any order, and all see the same state.
Whatever they do, the drafts' mutations and the host's traces tell what came of it, and the objects get the
drafts' values by taking the mutations over.
-/

namespace ScriptAgent

open Script (Value)

/-- A write that changed a property of a draft, and the value that the property then has. -/
structure Change where
  id : Nat
  key : String
  stored : Json

/-- The changes of one draft. -/
def changesOf (id : Nat) (changes : List Change) : List (String × Json) :=
  (changes.filter (·.id == id)).map fun c => (c.key, c.stored)

theorem changesOf_concat (id : Nat) (changes : List Change) (c : Change) :
    changesOf id (changes ++ [c]) =
      if c.id = id then changesOf id changes ++ [(c.key, c.stored)] else changesOf id changes := by
  unfold changesOf
  by_cases h : c.id = id <;> simp [h]

theorem setIfInBounds_of_getElem? {α : Type} {xs : Array α} {i : Nat} {a : α} (h : xs[i]? = some a) :
    xs.setIfInBounds i a = xs := by
  obtain ⟨hlt, rfl⟩ := Array.getElem?_eq_some_iff.mp h
  rw [Array.setIfInBounds, dif_pos hlt, Array.set_getElem_self]

variable {objects : List ObjectInstance} {changes : List Change} {drafts : Array Draft} {d d' : Draft} {id : Nat}
  {key : String} {v w : Json}

/-! ### Drafts of many objects -/

/-- Drafts of objects after changes, each with its own. -/
structure Tracked (objects : List ObjectInstance) (changes : List Change) (drafts : Array Draft) : Prop where
  size : drafts.size = objects.length
  tracks : ∀ id o (d : Draft), objects[id]? = some o → drafts[id]? = some d → d.Tracks o (changesOf id changes)

namespace Tracked

theorem start (h : ∀ o ∈ objects, (o.properties.map (·.name)).Nodup) :
    Tracked objects [] (objects.map Draft.ofInstance).toArray where
  size := by simp
  tracks id o d ho hd := by
    have hd : objects[id]?.map Draft.ofInstance = some d := by simpa using hd
    rw [ho] at hd
    obtain rfl := Option.some.inj hd
    exact Draft.tracks_ofInstance (h o (List.mem_of_getElem? ho))

theorem object_of_getElem? (h : Tracked objects changes drafts) (hd : drafts[id]? = some d) :
    ∃ o, objects[id]? = some o ∧ d.Tracks o (changesOf id changes) := by
  obtain ⟨hlt, -⟩ := Array.getElem?_eq_some_iff.mp hd
  have ho := List.getElem?_eq_getElem (h.size ▸ hlt)
  exact ⟨_, ho, h.tracks id _ d ho hd⟩

/-- A write that stores a value is one more change of its draft and of no other. -/
theorem write (h : Tracked objects changes drafts) (hd : drafts[id]? = some d)
    (hset : d.set key v = .ok (d', some w)) :
    d'.get key = .ok w ∧ Tracked objects (changes ++ [⟨id, key, w⟩]) (drafts.setIfInBounds id d') := by
  obtain ⟨hlt, -⟩ := Array.getElem?_eq_some_iff.mp hd
  obtain ⟨o, ho, htracks⟩ := h.object_of_getElem? hd
  obtain ⟨hstored, hchanged⟩ := htracks.set hset
  refine ⟨hstored, by simp [h.size], fun j o' e hj he => ?_⟩
  rw [Array.getElem?_setIfInBounds, if_pos hlt] at he
  rw [changesOf_concat]
  split at he
  · next hij =>
    subst hij
    obtain rfl := Option.some.inj he
    obtain rfl := Option.some.inj (ho.symm.trans hj)
    rw [if_pos rfl]
    exact hchanged
  · next hij =>
    rw [if_neg hij]
    exact h.tracks j o' e hj he

end Tracked

/-! ### What the objects take over -/

/-- A draft of an object after some changes. -/
def IsDraft (o : ObjectInstance) (d : Draft) : Prop :=
  ∃ changes, d.Tracks o changes

theorem object_mem_of_mutation {drafts : List Draft} (h : List.Forall₂ IsDraft objects drafts) {m : Mutation}
    (hm : m ∈ drafts.flatMap (·.mutations)) : m.object ∈ objects.map (·.name) := by
  induction h with
  | nil => cases hm
  | @cons o d os ds hod _ ih =>
    obtain ⟨_, htracks⟩ := hod
    rcases List.mem_append.mp (List.flatMap_cons ▸ hm) with hm | hm
    · exact List.mem_cons.mpr (.inl (htracks.draft.mutations m hm).1)
    · exact List.mem_cons_of_mem _ (ih hm)

/-- Among objects with different names, the mutations of all drafts hold for each just those of its own. -/
theorem filter_own {drafts : List Draft} (h : List.Forall₂ IsDraft objects drafts)
    (hn : (objects.map (·.name)).Nodup) :
    List.Forall₂ (fun o d => IsDraft o d ∧
      (drafts.flatMap (·.mutations)).filter (·.object == o.name) = d.mutations) objects drafts := by
  induction h with
  | nil => exact .nil
  | @cons o d os ds hod hrest ih =>
    obtain ⟨hfresh, hnodup⟩ : o.name ∉ os.map (·.name) ∧ (os.map (·.name)).Nodup := List.nodup_cons.mp hn
    have ⟨_, htracks⟩ := hod
    have hothers : (ds.flatMap (·.mutations)).filter (·.object == o.name) = [] := by
      refine List.filter_eq_nil_iff.mpr fun m hm hmo => hfresh ?_
      rw [← beq_iff_eq.mp hmo]
      exact object_mem_of_mutation hrest hm
    have hforeign : ∀ o' ∈ os, d.mutations.filter (·.object == o'.name) = [] := by
      refine fun o' ho' => List.filter_eq_nil_iff.mpr fun m hm hmo => hfresh ?_
      exact List.mem_map.mpr ⟨o', ho', (beq_iff_eq.mp hmo).symm.trans (htracks.draft.mutations m hm).1⟩
    have both := (List.forall₂_and_left _ _).mpr ⟨hforeign, ih hnodup⟩
    refine .cons ⟨hod, ?_⟩ (both.imp fun o' d' ⟨hnone, hd', hown⟩ => ⟨hd', ?_⟩)
    · rw [List.flatMap_cons, List.filter_append, htracks.own, hothers, List.append_nil]
    · rw [List.flatMap_cons, List.filter_append, hnone, hown, List.nil_append]

/-- Objects with different names get the properties of their drafts by taking over all mutations. -/
theorem Tracked.reconcile (h : Tracked objects changes drafts) (hn : (objects.map (·.name)).Nodup) :
    objects.map (fun o => (o.reconcile (drafts.toList.flatMap (·.mutations))).properties) =
      drafts.toList.map (·.properties) := by
  have hdrafts : List.Forall₂ IsDraft objects drafts.toList := by
    rw [List.forall₂_iff_get]
    refine ⟨by simp [h.size], fun i hi hi' => ⟨changesOf i changes, h.tracks i _ _ ?_ ?_⟩⟩
    · exact List.getElem?_eq_getElem hi
    · rw [← Array.getElem?_toList]
      exact List.getElem?_eq_getElem hi'
  rw [← List.forall₂_eq_eq_eq, List.forall₂_map_left_iff, List.forall₂_map_right_iff]
  refine (filter_own hdrafts hn).imp fun o d ⟨⟨_, htracks⟩, hown⟩ => ?_
  rw [ObjectInstance.reconcile_eq, hown, htracks.replays]

/-- The objects of a context that is not refused get the properties of their drafts. -/
theorem Tracked.reconciled {c : Context} (h : Tracked c.objects changes drafts) (valid : c.validate = .ok ()) :
    (c.reconcile (drafts.toList.flatMap (·.mutations))).objects.map (·.properties) =
      drafts.toList.map (·.properties) := by
  rw [Context.reconcile, List.map_map]
  exact h.reconcile (Context.names_nodup valid)

/-! ### Accesses by whoever holds the drafts -/

/-- The drafts of a run, and the host that is told of their changes. -/
structure Drafting where
  drafts : Array Draft
  host : Host

/-- An access to a draft. -/
inductive Access where
  | get (id : Nat) (key : String)
  | set (id : Nat) (key : String) (v : Json)

namespace Drafting

/-- A draft of each object. -/
def start (objects : List ObjectInstance) (host : Host) : Drafting :=
  ⟨(objects.map Draft.ofInstance).toArray, host⟩

/-- Reads a property, if there is such a draft. -/
def get (s : Drafting) (id : Nat) (key : String) : Option (Except ObjectError Json) :=
  s.drafts[id]?.map (·.get key)

/-- Writes a property, if there is such a draft: whether that is a change, of which the host is then told. -/
def set (s : Drafting) (id : Nat) (key : String) (v : Json) : Option (Except ObjectError Bool) × Drafting :=
  match s.drafts[id]? with
  | none => (none, s)
  | some d =>
    match d.set key v with
    | .error e => (some (.error e), s)
    | .ok (d', stored) => (some (.ok stored.isSome), {
        drafts := s.drafts.setIfInBounds id d'
        host := match stored with
          | some w => s.host.trace (.property s.host.millis d.name key w)
          | none => s.host })

/-- What an access leaves. -/
def step (s : Drafting) : Access → Drafting
  | .get .. => s
  | .set id key v => (s.set id key v).2

/-- The change that an access makes; its value is the one that is read afterwards. -/
def change? (s : Drafting) : Access → Option Change
  | .get .. => none
  | .set id key v =>
    match s.set id key v with
    | (some (.ok true), s') => (s'.get id key).bind fun r => r.toOption.map (⟨id, key, ·⟩)
    | _ => none

/-- The changes that accesses make one after the other, and what they leave. -/
def play (s : Drafting) : List Access → List Change × Drafting
  | [] => ([], s)
  | a :: rest => ((s.change? a).toList ++ ((s.step a).play rest).1, ((s.step a).play rest).2)

variable {s : Drafting} {host : Host}

/-- A write either changes nothing at all or one draft, and then the host is told of it. -/
theorem set_cases (s : Drafting) (id : Nat) (key : String) (v : Json) :
    (∃ reply, reply ≠ some (.ok true) ∧ s.set id key v = (reply, s)) ∨
      ∃ d d' w, s.drafts[id]? = some d ∧ d.set key v = .ok (d', some w) ∧
        s.set id key v = (some (.ok true),
          ⟨s.drafts.setIfInBounds id d', s.host.trace (.property s.host.millis d.name key w)⟩) := by
  unfold set
  cases hd : s.drafts[id]? with
  | none => exact .inl ⟨none, by simp, rfl⟩
  | some d =>
    dsimp only
    cases hset : d.set key v with
    | error e => exact .inl ⟨_, by simp, rfl⟩
    | ok result =>
      obtain ⟨d', stored⟩ := result
      cases stored with
      | some w => exact .inr ⟨d, d', w, rfl, hset, rfl⟩
      | none =>
        obtain rfl := Draft.eq_of_set hset
        refine .inl ⟨some (.ok false), by simp, ?_⟩
        dsimp only
        rw [setIfInBounds_of_getElem? hd]
        rfl

/-- A write that is refused, or that is no change, leaves everything as it is. -/
theorem set_of_unchanged (h : (s.set id key v).1 ≠ some (.ok true)) : (s.set id key v).2 = s := by
  rcases set_cases s id key v with ⟨reply, -, hset⟩ | ⟨d, d', w, -, -, hset⟩
  · rw [hset]
  · exact absurd (by rw [hset]) h

/-- The host was told of changes in their order, and of nothing else. -/
def Told (objects : List ObjectInstance) (host : Host) (changes : List Change) (host' : Host) : Prop :=
  ∃ added, host' = { host with traces := host.traces ++ added } ∧
    List.Forall₂ (fun c t => ∃ o, objects[c.id]? = some o ∧ t = .property host.millis o.name c.key c.stored)
      changes added

theorem Told.trace {host' : Host} (h : Told objects host changes host') {o : ObjectInstance}
    (ho : objects[id]? = some o) :
    Told objects host (changes ++ [⟨id, key, w⟩]) (host'.trace (.property host'.millis o.name key w)) := by
  obtain ⟨added, rfl, hadded⟩ := h
  refine ⟨added ++ [.property host.millis o.name key w], ?_, List.rel_append hadded (.cons ⟨o, ho, rfl⟩ .nil)⟩
  rw [Host.trace, List.append_assoc]
  rfl

/-- The drafts tell the changes, and so does the host. -/
def Tells (objects : List ObjectInstance) (host : Host) (changes : List Change) (s : Drafting) : Prop :=
  Tracked objects changes s.drafts ∧ Told objects host changes s.host

/-- What one access preserves. -/
theorem Tells.step (h : Tells objects host changes s) (a : Access) :
    Tells objects host (changes ++ (s.change? a).toList) (s.step a) := by
  obtain ⟨htracked, htold⟩ := h
  cases a with
  | get id key => exact (List.append_nil changes).symm ▸ ⟨htracked, htold⟩
  | set id key v =>
    simp only [change?, Drafting.step]
    rcases set_cases s id key v with ⟨reply, hreply, hset⟩ | ⟨d, d', w, hd, hw, hset⟩
    · rw [hset]
      split
      · next heq => exact absurd (congrArg (·.1) heq) hreply
      · exact (List.append_nil changes).symm ▸ ⟨htracked, htold⟩
    · obtain ⟨o, ho, htracks⟩ := htracked.object_of_getElem? hd
      obtain ⟨hstored, hchanged⟩ := htracked.write hd hw
      obtain ⟨hlt, -⟩ := Array.getElem?_eq_some_iff.mp hd
      have hget : (s.set id key v).2.get id key = some (.ok w) := by
        rw [hset, Drafting.get, Array.getElem?_setIfInBounds, if_pos rfl, if_pos hlt, Option.map_some, hstored]
      rw [hset] at hget ⊢
      dsimp only
      rw [hget, htracks.draft.name]
      exact ⟨hchanged, htold.trace ho⟩

/-- What any number of accesses preserves. -/
theorem Tells.play (h : Tells objects host changes s) (accesses : List Access) :
    Tells objects host (changes ++ (s.play accesses).1) (s.play accesses).2 := by
  -- the changes so far are carried along in front of those that are still to come
  induction accesses generalizing changes s with
  | nil => exact (List.append_nil changes).symm ▸ h
  | cons a rest ih =>
    rw [Drafting.play, ← List.append_assoc]
    exact ih (h.step a)

/-- What any accesses to drafts of built objects come to.  Each draft's mutations tell its changes, and the host
is told of them all in their order; a write that is refused or no change leaves everything as it is; and the
objects of a context that is not refused get their drafts' properties by taking all mutations over. -/
theorem accesses_tracked (built : ∀ o ∈ objects, ∃ raw : ObjectInstance, raw.build = .ok o)
    (host : Host) (accesses : List Access) (played : (start objects host).play accesses = (changes, s)) :
    Tracked objects changes s.drafts ∧ Told objects host changes s.host ∧
      (∀ id key v, (s.set id key v).1 ≠ some (.ok true) → (s.set id key v).2 = s) ∧
      ∀ c : Context, c.objects = objects → c.validate = .ok () →
        (c.reconcile (s.drafts.toList.flatMap (·.mutations))).objects.map (·.properties) =
          s.drafts.toList.map (·.properties) := by
  have hnodup : ∀ o ∈ objects, (o.properties.map (·.name)).Nodup := fun o ho => by
    obtain ⟨raw, hraw⟩ := built o ho
    exact ObjectInstance.nodup_of_build hraw
  have hstart : Tells objects host [] (start objects host) := ⟨.start hnodup, [], by simp [start], .nil⟩
  obtain ⟨htracked, htold⟩ := hstart.play accesses
  rw [played, List.nil_append] at htracked htold
  exact ⟨htracked, htold, fun _ _ _ => set_of_unchanged, fun c hc valid => (hc ▸ htracked).reconciled valid⟩

/-- Two objects that have a property of the same name. -/
def sampleContext : Context where
  id := "ctx"
  objects := [Agent.sampleUser, { name := "team", properties := [{ name := "name", value := .str "Red" }] }]

/-- Both names are changed, the first one back again, and a property that is read-only is not. -/
def sampleAccesses : List Access :=
  [.set 0 "name" (.str "Bob"), .set 1 "name" (.str "Blue"), .set 0 "id" (.nat 8), .set 0 "name" (.str "Ada"),
    .get 0 "name"]

theorem sample_tracked :
    (∀ o ∈ sampleContext.objects, ∃ raw : ObjectInstance, raw.build = .ok o) ∧
      ∃ changes s, (start sampleContext.objects {}).play sampleAccesses = (changes, s) ∧
        changes.map (fun c => (c.id, c.stored)) = [(0, .str "Bob"), (1, .str "Blue"), (0, .str "Ada")] ∧
        (s.drafts.toList.flatMap (·.mutations)).map (fun m => (m.object, m.before, m.after)) =
          [("user", .str "Ada", .str "Ada"), ("team", .str "Red", .str "Blue")] ∧
        Tracked sampleContext.objects changes s.drafts ∧
        (sampleContext.reconcile (s.drafts.toList.flatMap (·.mutations))).objects.map (·.properties) =
          s.drafts.toList.map (·.properties) := by
  have built : ∀ o ∈ sampleContext.objects, ∃ raw : ObjectInstance, raw.build = .ok o := by
    intro o ho
    refine ⟨o, ?_⟩
    rcases List.mem_pair.mp ho with rfl | rfl <;> rfl
  obtain ⟨htracked, -, -, hreconcile⟩ := accesses_tracked built {} sampleAccesses rfl
  exact ⟨built, _, _, rfl, rfl, rfl, htracked, hreconcile sampleContext rfl (by decide +kernel)⟩

end Drafting

/-! ### Scripts that access drafts -/

/-- The drafts of a machine, and its host. -/
def Machine.drafting (m : Machine) : Drafting :=
  ⟨m.drafts, m.host⟩

namespace Exec

open Stateful (bind_apply get_apply)

/-- A script reads a property of an object as anyone does who holds the draft. -/
theorem hostedGet_object (env : Env) (id : Nat) (key : String) (m : Machine) :
    hostedGet env (.object id) (.str key) m =
      match m.drafting.get id key with
      | some (.ok v) => (.ok (env.backend.toScript v), m)
      | some (.error e) => failText e.message m
      | none => (.ok .unit, m) := by
  unfold hostedGet Drafting.get Machine.drafting
  rw [bind_apply, get_apply]
  dsimp only
  cases m.drafts[id]? with
  | none => rfl
  | some d =>
    dsimp only [Option.map_some]
    cases d.get key <;> rfl

/-- A script writes a property of an object as anyone does who holds the draft. -/
theorem hostedSet_object (env : Env) (id : Nat) (key : String) (v : Value) (m : Machine) :
    hostedSet env (.object id) (.str key) v m =
      match m.drafting.set id key (m.toJson env.backend v) with
      | (some (.error e), _) => refuseWrite e m
      | (_, s) => (.ok (), { m with drafts := s.drafts, host := s.host }) := by
  unfold hostedSet Drafting.set Machine.drafting
  rw [bind_apply, get_apply]
  dsimp only
  cases m.drafts[id]? with
  | none => rfl
  | some d =>
    dsimp only [Option.map_some]
    cases d.set key (m.toJson env.backend v) with
    | error e => rfl
    | ok result =>
      obtain ⟨d', stored⟩ := result
      cases stored <;> rfl

end Exec

theorem Deed.keeps_tracked {env : Env} {deed : Deed} {o o' : Outside} (made : deed.Makes env o o')
    (h : ∃ changes, Tracked objects changes o.drafts) : ∃ changes, Tracked objects changes o'.drafts := by
  obtain ⟨changes, htracked⟩ := h
  rcases Deed.drafts_of_makes made with hsame | ⟨id, key, v, d, d', stored, hd, hset, hdrafts⟩
  · exact ⟨changes, hsame ▸ htracked⟩
  · rw [hdrafts]
    cases stored with
    | some w => exact ⟨_, (htracked.write hd hset).2⟩
    | none =>
      obtain rfl := Draft.eq_of_set hset
      exact ⟨changes, (setIfInBounds_of_getElem? hd).symm ▸ htracked⟩

/-- Whatever script is run on built objects, its drafts tell the changes that it made to them. -/
theorem Job.run_tracked (j : Job) (built : ∀ o ∈ j.objects, ∃ raw : ObjectInstance, raw.build = .ok o) (host : Host) :
    ∃ changes, Tracked j.objects changes (j.run host).machine.drafts := by
  obtain ⟨functions, ds, o, hds, ho, -⟩ := j.run_conduct host
  have hdrafts : (j.run host).machine.drafts = o.drafts := congrArg Outside.drafts ho
  rw [hdrafts]
  refine hds.invariant (P := fun o => ∃ changes, Tracked j.objects changes o.drafts)
    (fun _ _ _ _ made => Deed.keeps_tracked made) ⟨[], .start fun o ho => ?_⟩
  obtain ⟨raw, hraw⟩ := built o ho
  exact ObjectInstance.nodup_of_build hraw

/-- What a script has left in its drafts is what the objects of its context get. -/
theorem Job.execute_reconciled (j : Job) {c : Context} (objects : j.objects = c.objects) (valid : c.validate = .ok ())
    (built : ∀ o ∈ c.objects, ∃ raw : ObjectInstance, raw.build = .ok o) (host : Host) :
    (c.reconcile (j.execute host).1.mutations).objects.map (·.properties) =
      (j.run host).machine.drafts.toList.map (·.properties) := by
  obtain ⟨changes, htracked⟩ := j.run_tracked (objects ▸ built) host
  exact (objects ▸ htracked).reconciled valid

end ScriptAgent
