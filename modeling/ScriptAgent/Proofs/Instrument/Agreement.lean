import Mathlib.Data.List.Forall2
import ScriptAgent.Proofs.Instrument.Twins

/-!
# Computations that agree

Two computations agree if they take twins to twins and end alike.  Sequencing keeps that, and so does
catching, as long as the handlers let limits and signals pass.
-/

namespace ScriptAgent

open Script (Value Fault Pos)
open Stateful (bind_apply tryCatch_apply get_apply)

/-- The outcomes of two computations, alike up to a relation of their values; a limit agrees with
everything. -/
inductive Agree {σ α β : Type} (mute : Bool) (twin parted : σ → σ → Prop) (R : α → β → Prop) :
    Except Stop α × σ → Except Stop β × σ → Prop
  | left {s : Stop} (h : s.isLimit = true) (m : σ) (y : Except Stop β × σ) :
    Agree mute twin parted R (.error s, m) y
  | right {s : Stop} (h : s.isLimit = true) (x : Except Stop α × σ) (m : σ) :
    Agree mute twin parted R x (.error s, m)
  | ok {a : α} {b : β} {m m' : σ} (h : R a b) (hm : twin m m') : Agree mute twin parted R (.ok a, m) (.ok b, m')
  | stop {s s' : Stop} {m m' : σ} (h : s.Twin mute s') (hm : twin m m') :
    Agree mute twin parted R (.error s, m) (.error s', m')
  | signal {m m' : σ} (p p' : Pos) (hm : parted m m') :
    Agree mute twin parted R (.error (.halted .suspended p), m) (.error (.halted .suspended p'), m')

theorem Agree.mono {σ α β : Type} {mute : Bool} {twin parted : σ → σ → Prop} {R S : α → β → Prop}
    {x : Except Stop α × σ} {y : Except Stop β × σ} (h : Agree mute twin parted R x y)
    (hr : ∀ a b, R a b → S a b) : Agree mute twin parted S x y := by
  cases h with
  | left h => exact .left h _ _
  | right h => exact .right h _ _
  | ok h hm => exact .ok (hr _ _ h) hm
  | stop h hm => exact .stop h hm
  | signal p p' hm => exact .signal p p' hm

namespace Exec

variable {mute : Bool} {α β γ δ : Type} {R : α → β → Prop} {S : γ → δ → Prop}

/-- Two computations agree on two machines. -/
def AgreeOn (mute : Bool) (R : α → β → Prop) (m m' : Machine) (x : Exec α) (y : Exec β) : Prop :=
  Agree mute Machine.Twin Machine.Parted R (x m) (y m')

/-- Two computations agree on all twins. -/
def Agrees (mute : Bool) (R : α → β → Prop) (x : Exec α) (y : Exec β) : Prop :=
  ∀ m m', m.Twin m' → AgreeOn mute R m m' x y

/-! ### Sequences -/

theorem AgreeOn.bind {m m' : Machine} {x : Exec α} {y : Exec β} {f : α → Exec γ} {g : β → Exec δ}
    (h : AgreeOn mute R m m' x y) (hf : ∀ a b, R a b → Agrees mute S (f a) (g b)) :
    AgreeOn mute S m m' (x >>= f) (y >>= g) := by
  unfold AgreeOn at *
  rw [bind_apply, bind_apply]
  generalize x m = r at h ⊢
  generalize y m' = r' at h ⊢
  cases h with
  | left h => exact .left h _ _
  | right h => exact .right h _ _
  | ok h hm => exact hf _ _ h _ _ hm
  | stop h hm => exact .stop h hm
  | signal p p' hm => exact .signal p p' hm

theorem AgreeOn.get_bind {m m' : Machine} {f : Machine → Exec α} {g : Machine → Exec β}
    (h : AgreeOn mute R m m' (f m) (g m')) : AgreeOn mute R m m' (get >>= f) (get >>= g) := by
  unfold AgreeOn at *
  simpa [bind_apply] using h

theorem AgreeOn.get_right {m m' : Machine} {x : Exec α} {g : Machine → Exec β}
    (h : AgreeOn mute R m m' x (g m')) : AgreeOn mute R m m' x (get >>= g) := by
  unfold AgreeOn at *
  simpa [bind_apply] using h

/-- A limit under a condition of the second computation. -/
theorem AgreeOn.unless_right {c : Prop} [Decidable c] {s : Stop} (hs : s.isLimit = true) {m m' : Machine}
    {x : Exec α} {g : PUnit → Exec β} (h : AgreeOn mute R m m' x (g ⟨⟩)) :
    AgreeOn mute R m m' x (if c then throw s >>= g else g ⟨⟩) := by
  split
  · exact .right hs _ _
  · exact h

/-- A limit under a condition of both computations. -/
theorem AgreeOn.unless {c c' : Prop} [Decidable c] [Decidable c'] (hc : c' ↔ c) {s s' : Stop}
    (hs : s.isLimit = true) {m m' : Machine} {f : PUnit → Exec α} {g : PUnit → Exec β}
    (h : AgreeOn mute R m m' (f ⟨⟩) (g ⟨⟩)) :
    AgreeOn mute R m m' (if c then throw s >>= f else f ⟨⟩) (if c' then throw s' >>= g else g ⟨⟩) := by
  simp only [hc]
  split
  · exact .left hs _ _
  · exact h

theorem AgreeOn.set_bind {m m' n n' : Machine} {f : PUnit → Exec α} {g : PUnit → Exec β}
    (h : AgreeOn mute R n n' (f ⟨⟩) (g ⟨⟩)) : AgreeOn mute R m m' (set n >>= f) (set n' >>= g) := by
  unfold AgreeOn at *
  simpa [bind_apply] using h

theorem Agrees.mono {R' : α → β → Prop} {x : Exec α} {y : Exec β} (h : Agrees mute R x y)
    (hr : ∀ a b, R a b → R' a b) : Agrees mute R' x y :=
  fun m m' hm => (h m m' hm).mono hr

theorem Agrees.bind {x : Exec α} {y : Exec β} {f : α → Exec γ} {g : β → Exec δ} (h : Agrees mute R x y)
    (hf : ∀ a b, R a b → Agrees mute S (f a) (g b)) : Agrees mute S (x >>= f) (y >>= g) :=
  fun m m' hm => (h m m' hm).bind hf

/-- The same value goes on to both. -/
theorem Agrees.bind_eq {x y : Exec α} {f : α → Exec γ} {g : α → Exec δ} (h : Agrees mute Eq x y)
    (hf : ∀ a, Agrees mute S (f a) (g a)) : Agrees mute S (x >>= f) (y >>= g) :=
  h.bind fun a _ hab => hab ▸ hf a

theorem Agrees.get_bind {f : Machine → Exec α} {g : Machine → Exec β}
    (h : ∀ m m', m.Twin m' → Agrees mute R (f m) (g m')) : Agrees mute R (get >>= f) (get >>= g) :=
  fun m m' hm => .get_bind (h m m' hm m m' hm)

theorem agrees_pure {a : α} {b : β} (h : R a b) : Agrees mute R (pure a) (pure b) :=
  fun _ _ hm => .ok h hm

theorem agrees_throw {s s' : Stop} (h : s.Twin mute s') : Agrees mute R (throw s) (throw s') :=
  fun _ _ hm => .stop h hm

theorem agrees_fault {f f' : Fault} (h : f'.unplaced = f.unplaced) (p p' : Pos) :
    Agrees mute R (fault f p) (fault f' p') :=
  agrees_throw (.fault h p p')

theorem agrees_left {s : Stop} (h : s.isLimit = true) (y : Exec β) : Agrees mute R (throw s) y :=
  fun m m' _ => .left h m (y m')

theorem agrees_right {s : Stop} (h : s.isLimit = true) (x : Exec α) : Agrees mute R x (throw s) :=
  fun m m' _ => .right h (x m) m'

theorem agrees_ofExcept (r : Except Fault α) (p p' : Pos) : Agrees mute Eq (ofExcept r p) (ofExcept r p') := by
  cases r with
  | ok v => exact agrees_pure rfl
  | error f => exact agrees_fault rfl p p'

theorem agrees_modify {f g : Machine → Machine} (h : ∀ m m', m.Twin m' → (f m).Twin (g m')) :
    Agrees mute Eq (modify f : Exec Unit) (modify g) :=
  fun m m' hm => .ok rfl (h m m' hm)

theorem agrees_set {m m' : Machine} (h : m.Twin m') : Agrees mute Eq (set m : Exec PUnit) (set m') :=
  fun _ _ _ => .ok rfl h

theorem Agrees.ite {c : Prop} [Decidable c] {x x' : Exec α} {y y' : Exec β} (h : Agrees mute R x y)
    (h' : Agrees mute R x' y') : Agrees mute R (if c then x else x') (if c then y else y') := by
  split
  · exact h
  · exact h'

/-- A guard before the rest of two computations. -/
theorem Agrees.guard {c : Prop} [Decidable c] {x y : Exec PUnit} {f : PUnit → Exec α} {g : PUnit → Exec β}
    (h : Agrees mute Eq x y) (hf : Agrees mute R (f ⟨⟩) (g ⟨⟩)) :
    Agrees mute R (if c then x >>= f else f ⟨⟩) (if c then y >>= g else g ⟨⟩) :=
  .ite (h.bind fun _ _ _ => hf) hf

theorem agrees_mapM {ι κ : Type} {T : ι → κ → Prop} {f : ι → Exec α} {g : κ → Exec β} {as : List ι} {bs : List κ}
    (h : List.Forall₂ T as bs) (hf : ∀ a b, T a b → Agrees mute R (f a) (g b)) :
    Agrees mute (List.Forall₂ R) (as.mapM f) (bs.mapM g) := by
  induction h with
  | nil => exact agrees_pure .nil
  | cons h _ ih =>
    rw [List.mapM_cons, List.mapM_cons]
    exact (hf _ _ h).bind fun a b hab => ih.bind fun as bs habs => agrees_pure (.cons hab habs)

/-! ### Handlers -/

/-- Handlers that pass limits on, that agree on what the script may catch, and on signals. -/
theorem Agrees.catching {x : Exec α} {y : Exec β} {h : Stop → Exec α} {h' : Stop → Exec β}
    (hxy : Agrees mute R x y)
    (hl : ∀ s m, s.isLimit = true → ∃ s₁ m₁, h s m = (.error s₁, m₁) ∧ s₁.isLimit = true)
    (hr : ∀ s m, s.isLimit = true → ∃ s₁ m₁, h' s m = (.error s₁, m₁) ∧ s₁.isLimit = true)
    (hs : ∀ s s', s.Twin mute s' → Agrees mute R (h s) (h' s'))
    (hp : ∀ p p' m m', m.Parted m' → AgreeOn mute R m m' (h (.halted .suspended p)) (h' (.halted .suspended p'))) :
    Agrees mute R (tryCatch x h) (tryCatch y h') := by
  intro m m' hm
  have hxm := hxy m m' hm
  unfold AgreeOn at *
  rw [tryCatch_apply, tryCatch_apply]
  generalize x m = r at hxm ⊢
  generalize y m' = r' at hxm ⊢
  cases hxm with
  | left hlim m₁ =>
    obtain ⟨s₁, m₂, he, h₁⟩ := hl _ m₁ hlim
    simp only [he]
    exact .left h₁ _ _
  | right hlim _ m₁ =>
    obtain ⟨s₁, m₂, he, h₁⟩ := hr _ m₁ hlim
    simp only [he]
    exact .right h₁ _ _
  | ok h hm => exact .ok h hm
  | stop h hm => exact hs _ _ h _ _ hm
  | signal p p' hm => exact hp p p' _ _ hm

/-- Handlers that throw again what a script cannot catch. -/
theorem Agrees.handling {x : Exec α} {y : Exec β} {h : Stop → Exec α} {h' : Stop → Exec β}
    (hxy : Agrees mute R x y) (ht : ∀ s, s.isForeign = true → h s = throw s)
    (ht' : ∀ s, s.isForeign = true → h' s = throw s)
    (hs : ∀ s s', s.Twin mute s' → Agrees mute R (h s) (h' s')) :
    Agrees mute R (tryCatch x h) (tryCatch y h') := by
  refine hxy.catching (fun s m hl => ?_) (fun s m hl => ?_) hs fun p p' m m' hm => ?_
  · exact ⟨s, m, by rw [ht s (Stop.isForeign_of_isLimit hl)]; rfl, hl⟩
  · exact ⟨s, m, by rw [ht' s (Stop.isForeign_of_isLimit hl)]; rfl, hl⟩
  · unfold AgreeOn
    rw [ht _ rfl, ht' _ rfl]
    exact .signal p p' hm

/-- Handlers that know faults only. -/
theorem Agrees.faults {x : Exec α} {y : Exec β} {h : Stop → Exec α} {h' : Stop → Exec β}
    (hxy : Agrees mute R x y) (ht : ∀ s, (∀ cause pos, s ≠ .fault cause pos) → h s = throw s)
    (ht' : ∀ s, (∀ cause pos, s ≠ .fault cause pos) → h' s = throw s)
    (hf : ∀ f f' p p', f'.unplaced = f.unplaced → Agrees mute R (h (.fault f p)) (h' (.fault f' p'))) :
    Agrees mute R (tryCatch x h) (tryCatch y h') := by
  refine hxy.handling (fun s hs => ht s ?_) (fun s hs => ht' s ?_) fun s s' hs => ?_
  · rintro cause pos rfl
    cases hs
  · rintro cause pos rfl
    cases hs
  · cases hs with
    | fault h p p' => exact hf _ _ p p' h
    | returned v =>
      rw [ht _ (by simp), ht' _ (by simp)]
      exact agrees_throw (.returned v)
    | broken h =>
      rw [ht _ (by simp), ht' _ (by simp)]
      exact agrees_throw (.broken h)
    | continued =>
      rw [ht _ (by simp), ht' _ (by simp)]
      exact agrees_throw .continued

/-- Handlers that tidy up and fail again. -/
theorem Agrees.tidy {x : Exec α} {y : Exec β} {f f' : Machine → Machine} (hxy : Agrees mute R x y)
    (ha : ∀ m m', m.Alike m' → (f m).Alike (f' m')) (hr : ∀ m, (f m).raised = m.raised)
    (hr' : ∀ m, (f' m).raised = m.raised) :
    Agrees mute R (tryCatch x fun s => do modify f; throw s) (tryCatch y fun s => do modify f'; throw s) := by
  refine hxy.catching (fun s m hl => ⟨s, f m, rfl, hl⟩) (fun s m hl => ⟨s, f' m, rfl, hl⟩)
    (fun s s' hs => ?_) fun p p' m m' hm => .signal p p' (hm.move (ha m m' hm.toAlike) (hr m) (hr' m'))
  exact (agrees_modify fun m m' hm => hm.move (ha m m' hm.toAlike) (hr m) (hr' m')).bind fun _ _ _ =>
    agrees_throw hs

theorem Agrees.at_ {x : Exec α} {y : Exec β} (hxy : Agrees mute R x y) (p p' : Pos) :
    Agrees mute R (Exec.at_ p x) (Exec.at_ p' y) := by
  refine hxy.catching (fun s m hl => ⟨s.fillPos p, m, rfl, by simpa using hl⟩)
    (fun s m hl => ⟨s.fillPos p', m, rfl, by simpa using hl⟩) (fun s s' hs => agrees_throw (hs.fillPos p p'))
    fun q q' m m' hm => .signal _ _ hm

end Exec

end ScriptAgent
