import ScriptAgent.Proofs.Instrument.MachineTwins

/-!
# Computations in place that agree

Computations in place agree if from the same value they take twins to twins, end alike, and leave the
same value in the place.
-/

namespace ScriptAgent

open Script (Value Fault Pos)

namespace Place

variable {mute : Bool} {env env' : Env} {α β γ δ : Type} {R : α → β → Prop} {S : γ → δ → Prop}

/-- The outcome of a computation in place, the value it leaves put to the machine. -/
def outcome (x : Place α) (v : Value) (m : Machine) : Except Stop α × Value × Machine :=
  ((x v m).1.1, (x v m).1.2, (x v m).2)

theorem outcome_bind (x : Place α) (f : α → Place β) (v : Value) (m : Machine) :
    outcome (x >>= f) v m = match outcome x v m with
      | (.ok a, v₁, m₁) => outcome (f a) v₁ m₁
      | (.error s, v₁, m₁) => (.error s, v₁, m₁) := by
  unfold outcome
  rw [bind_apply]
  rcases x v m with ⟨⟨_ | _, _⟩, _⟩ <;> rfl

theorem outcome_tryCatch (x : Place α) (h : Stop → Place α) (v : Value) (m : Machine) :
    outcome (tryCatch x h) v m = match outcome x v m with
      | (.ok a, v₁, m₁) => (.ok a, v₁, m₁)
      | (.error s, v₁, m₁) => outcome (h s) v₁ m₁ := by
  unfold outcome
  rw [tryCatch_apply]
  rcases x v m with ⟨⟨_ | _, _⟩, _⟩ <;> rfl

/-- Two computations in place agree on two machines. -/
def AgreeOn (mute : Bool) (R : α → β → Prop) (v : Value) (m m' : Machine) (x : Place α) (y : Place β) : Prop :=
  Agree mute (fun s s' => s'.1 = s.1 ∧ s.2.Twin s'.2) (fun s s' => s'.1 = s.1 ∧ s.2.Parted s'.2) R
    (outcome x v m) (outcome y v m')

/-- Two computations in place agree on all twins, whatever the place holds. -/
def Agrees (mute : Bool) (R : α → β → Prop) (x : Place α) (y : Place β) : Prop :=
  ∀ v m m', m.Twin m' → AgreeOn mute R v m m' x y

theorem Agrees.bind {x : Place α} {y : Place β} {f : α → Place γ} {g : β → Place δ} (h : Agrees mute R x y)
    (hf : ∀ a b, R a b → Agrees mute S (f a) (g b)) : Agrees mute S (x >>= f) (y >>= g) := by
  intro v m m' hm
  have hxm := h v m m' hm
  unfold AgreeOn at *
  rw [outcome_bind, outcome_bind]
  generalize outcome x v m = r at hxm ⊢
  generalize outcome y v m' = r' at hxm ⊢
  cases hxm with
  | left h => exact .left h _ _
  | right h => exact .right h _ _
  | @ok a b s s' h hs =>
    obtain ⟨v₁, m₁⟩ := s
    obtain ⟨v₂, m₂⟩ := s'
    obtain ⟨rfl, hm₁⟩ : v₂ = v₁ ∧ m₁.Twin m₂ := hs
    exact hf a b h _ _ _ hm₁
  | stop h hm => exact .stop h hm
  | signal p p' hm => exact .signal p p' hm

/-- The same value goes on to both. -/
theorem Agrees.bind_eq {x y : Place α} {f : α → Place γ} {g : α → Place δ} (h : Agrees mute Eq x y)
    (hf : ∀ a, Agrees mute S (f a) (g a)) : Agrees mute S (x >>= f) (y >>= g) :=
  h.bind fun a _ hab => hab ▸ hf a

theorem Agrees.get_bind {f : Value → Place α} {g : Value → Place β} (h : ∀ v, Agrees mute R (f v) (g v)) :
    Agrees mute R (get >>= f) (get >>= g) := by
  intro v m m' hm
  have hv := h v v m m' hm
  unfold AgreeOn at *
  rw [outcome_bind, outcome_bind]
  exact hv

theorem Agrees.machine_bind {f : Machine → Place α} {g : Machine → Place β}
    (h : ∀ m m', m.Twin m' → Agrees mute R (f m) (g m')) :
    Agrees mute R ((liftM (get : StateM Machine Machine) : Place Machine) >>= f)
      ((liftM (get : StateM Machine Machine) : Place Machine) >>= g) := by
  intro v m m' hm
  have hv := h m m' hm v m m' hm
  unfold AgreeOn at *
  rw [outcome_bind, outcome_bind]
  exact hv

theorem agrees_pure {a : α} {b : β} (h : R a b) : Agrees mute R (pure a) (pure b) :=
  fun _ _ _ hm => .ok h ⟨rfl, hm⟩

theorem agrees_throw {s s' : Stop} (h : s.Twin mute s') : Agrees mute R (throw s) (throw s') :=
  fun _ _ _ hm => .stop h ⟨rfl, hm⟩

theorem agrees_fault {f f' : Fault} (h : f'.unplaced = f.unplaced) (p p' : Pos) :
    Agrees mute R (fault f p) (fault f' p') :=
  agrees_throw (.fault h p p')

theorem agrees_set (v : Value) : Agrees mute Eq (set v : Place PUnit) (set v) :=
  fun _ _ _ hm => .ok rfl ⟨rfl, hm⟩

theorem Agrees.ite {c : Prop} [Decidable c] {x x' : Place α} {y y' : Place β} (h : Agrees mute R x y)
    (h' : Agrees mute R x' y') : Agrees mute R (if c then x else x') (if c then y else y') := by
  split
  · exact h
  · exact h'

/-- A guard before the rest of two computations. -/
theorem Agrees.guard {c : Prop} [Decidable c] {x y : Place PUnit} {f : PUnit → Place α} {g : PUnit → Place β}
    (h : Agrees mute Eq x y) (hf : Agrees mute R (f ⟨⟩) (g ⟨⟩)) :
    Agrees mute R (if c then x >>= f else f ⟨⟩) (if c then y >>= g else g ⟨⟩) :=
  .ite (h.bind fun _ _ _ => hf) hf

theorem Agrees.lift {x : Exec α} {y : Exec β} (h : Exec.Agrees mute R x y) :
    Agrees mute R (Place.lift x) (Place.lift y) := by
  intro v m m' hm
  have hxm := h m m' hm
  unfold Exec.AgreeOn at hxm
  unfold AgreeOn outcome
  simp only [lift_apply]
  generalize x m = r at hxm ⊢
  generalize y m' = r' at hxm ⊢
  cases hxm with
  | left h => exact .left h _ _
  | right h => exact .right h _ _
  | ok h hm => exact .ok h ⟨rfl, hm⟩
  | stop h hm => exact .stop h ⟨rfl, hm⟩
  | signal p p' hm => exact .signal p p' ⟨rfl, hm⟩

/-! ### Handlers -/

/-- Handlers that throw again what a script cannot catch. -/
theorem Agrees.handling {x : Place α} {y : Place β} {h : Stop → Place α} {h' : Stop → Place β}
    (hxy : Agrees mute R x y) (ht : ∀ s, s.isForeign = true → h s = throw s)
    (ht' : ∀ s, s.isForeign = true → h' s = throw s)
    (hs : ∀ s s', s.Twin mute s' → Agrees mute R (h s) (h' s')) :
    Agrees mute R (tryCatch x h) (tryCatch y h') := by
  intro v m m' hm
  have hxm := hxy v m m' hm
  unfold AgreeOn at *
  rw [outcome_tryCatch, outcome_tryCatch]
  generalize outcome x v m = r at hxm ⊢
  generalize outcome y v m' = r' at hxm ⊢
  cases hxm with
  | @left s hl t _ =>
    simp only [ht s (Stop.isForeign_of_isLimit hl)]
    exact .left hl _ _
  | @right s hl _ t =>
    simp only [ht' s (Stop.isForeign_of_isLimit hl)]
    exact .right hl _ _
  | ok h hm => exact .ok h hm
  | @stop s s' t t' h hm =>
    obtain ⟨v₁, m₁⟩ := t
    obtain ⟨v₂, m₂⟩ := t'
    obtain ⟨rfl, hm₁⟩ : v₂ = v₁ ∧ m₁.Twin m₂ := hm
    exact hs s s' h _ _ _ hm₁
  | signal p p' hm =>
    simp only [ht (.halted .suspended p) rfl, ht' (.halted .suspended p') rfl]
    exact .signal p p' hm

/-- Handlers that read the place back from the machine and fail again. -/
theorem Agrees.tidy {x : Place α} {y : Place β} {f f' : Place PUnit} {w w' : Machine → Value}
    (hxy : Agrees mute R x y) (hf : ∀ v m, f v m = ((.ok ⟨⟩, w m), m)) (hf' : ∀ v m, f' v m = ((.ok ⟨⟩, w' m), m))
    (hw : ∀ m m', m.Alike m' → w' m' = w m) :
    Agrees mute R (tryCatch x fun s => do f; throw s) (tryCatch y fun s => do f'; throw s) := by
  intro v m m' hm
  have hxm := hxy v m m' hm
  unfold AgreeOn at *
  have again (s : Stop) (v : Value) (m : Machine) :
      outcome (do f; throw s : Place α) v m = (.error s, w m, m) := by
    simp [outcome, bind_apply, hf]
  have again' (s : Stop) (v : Value) (m : Machine) :
      outcome (do f'; throw s : Place β) v m = (.error s, w' m, m) := by
    simp [outcome, bind_apply, hf']
  rw [outcome_tryCatch, outcome_tryCatch]
  generalize outcome x v m = r at hxm ⊢
  generalize outcome y v m' = r' at hxm ⊢
  cases hxm with
  | left hl => simpa only [again] using .left hl _ _
  | right hl => simpa only [again'] using .right hl _ _
  | ok h hm => exact .ok h hm
  | stop h hm => simpa only [again, again'] using .stop h ⟨hw _ _ hm.2.toAlike, hm.2⟩
  | signal p p' hm => simpa only [again, again'] using .signal p p' ⟨hw _ _ hm.2.toAlike, hm.2⟩

/-! ### Places -/

theorem Agrees.inside {x : Place α} {y : Place β} (h : Agrees mute R x y) (part : Value)
    (put : Value → Value → Value) : Agrees mute R (Place.inside part put x) (Place.inside part put y) := by
  intro v m m' hm
  have hxm := h part m m' hm
  unfold AgreeOn outcome Place.inside at *
  generalize x part m = r at hxm ⊢
  generalize y part m' = r' at hxm ⊢
  obtain ⟨⟨r, v₁⟩, m₁⟩ := r
  obtain ⟨⟨r', v₂⟩, m₂⟩ := r'
  dsimp only at hxm ⊢
  cases hxm with
  | left hl => exact .left hl _ _
  | right hl => exact .right hl _ _
  | ok h hm => exact .ok h ⟨congrArg (put v) hm.1, hm.2⟩
  | stop h hm => exact .stop h ⟨congrArg (put v) hm.1, hm.2⟩
  | signal p p' hm => exact .signal p p' ⟨congrArg (put v) hm.1, hm.2⟩

theorem Agrees.onValue {x y : Place α} (h : Agrees mute Eq x y) (v : Value) :
    Exec.Agrees mute Eq (Place.onValue v x) (Place.onValue v y) := by
  intro m m' hm
  have hxm := h v m m' hm
  unfold AgreeOn outcome at hxm
  unfold Exec.AgreeOn Place.onValue
  generalize x v m = r at hxm ⊢
  generalize y v m' = r' at hxm ⊢
  obtain ⟨⟨r, v₁⟩, m₁⟩ := r
  obtain ⟨⟨r', v₂⟩, m₂⟩ := r'
  dsimp only at hxm ⊢
  cases hxm with
  | left hl => exact .left hl _ _
  | right hl => exact .right hl _ _
  | ok h hm => exact .ok (congrArg₂ Prod.mk h hm.1.symm) hm.2
  | stop h hm => exact .stop h hm.2
  | signal p p' hm => exact .signal p p' hm.2

/-- What two computations in place leave is put back into both machines. -/
theorem AgreeOn.back {x : Place α} {y : Place β} {v : Value} {m m' : Machine} {b c : Value → Machine → Machine}
    (h : AgreeOn mute R v m m' x y) (ha : ∀ v m m', m.Alike m' → (b v m).Alike (c v m'))
    (hr : ∀ v m, (b v m).raised = m.raised) (hr' : ∀ v m, (c v m).raised = m.raised) :
    Exec.AgreeOn mute R m m' (fun m => ((x v m).1.1, b (x v m).1.2 (x v m).2))
      (fun m => ((y v m).1.1, c (y v m).1.2 (y v m).2)) := by
  unfold AgreeOn outcome at h
  show Agree mute _ _ R ((x v m).1.1, b (x v m).1.2 (x v m).2) ((y v m').1.1, c (y v m').1.2 (y v m').2)
  generalize x v m = r at h ⊢
  generalize y v m' = r' at h ⊢
  obtain ⟨⟨r, v₁⟩, m₁⟩ := r
  obtain ⟨⟨r', v₂⟩, m₂⟩ := r'
  dsimp only at h ⊢
  cases h with
  | left hl => exact .left hl _ _
  | right hl => exact .right hl _ _
  | ok h hm =>
    obtain ⟨rfl, hm⟩ := hm
    exact .ok h (hm.move (ha _ _ _ hm.toAlike) (hr _ _) (hr' _ _))
  | stop h hm =>
    obtain ⟨rfl, hm⟩ := hm
    exact .stop h (hm.move (ha _ _ _ hm.toAlike) (hr _ _) (hr' _ _))
  | signal p p' hm =>
    obtain ⟨rfl, hm⟩ := hm
    exact .signal p p' (hm.move (ha _ _ _ hm.toAlike) (hr _ _) (hr' _ _))

theorem Agrees.onCell {x : Place α} {y : Place β} (h : Agrees mute R x y) (id : Nat) :
    Exec.Agrees mute R (Place.onCell id x) (Place.onCell id y) := by
  intro m m' hm
  have hxm := (h (m.cells[id]?.getD .unit) m m' hm).back
    (b := fun v m => { m with cells := m.cells.setIfInBounds id v })
    (c := fun v m => { m with cells := m.cells.setIfInBounds id v })
    (fun v n n' hn => { hn with cells := congrArg (·.setIfInBounds id v) hn.cells }) (fun _ _ => rfl) fun _ _ => rfl
  unfold Exec.AgreeOn Place.onCell at *
  rw [hm.cells]
  exact hxm

theorem Agrees.onVariable {x : Bool → Place α} {y : Bool → Place β} (he : env.Twin mute env')
    (h : ∀ constant, Agrees mute R (x constant) (y constant)) (name : String) (p p' : Pos) :
    Exec.Agrees mute R (Place.onVariable env name p x) (Place.onVariable env' name p' y) := by
  refine (Exec.agrees_noteRead he p p').bind fun _ _ _ => .get_bind fun m m' hm => ?_
  rw [hm.find?, hm.scope]
  split
  · exact Exec.agrees_fault rfl _ _
  · next i _ =>
    generalize m.scope[i]! = slot
    dsimp only
    split
    · exact (h _).onCell _
    · intro n n' hn
      exact (h _ _ n n' hn).back (b := fun v m => { m with scope := m.scope.set i { slot with value := v } })
        (c := fun v m => { m with scope := m.scope.set i { slot with value := v } })
        (fun v _ _ hn => { hn with scope := congrArg (List.set · i _) hn.scope }) (fun _ _ => rfl) fun _ _ => rfl

end Place

end ScriptAgent
