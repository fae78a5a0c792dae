import ScriptAgent.Sandbox.Machine

/-!
# Computations as functions

A computation that may fail is a function of its state, and one in place also of the value in the
place.  The equations here say what sequencing, catching and the primitive computations are as such
functions; no other module looks behind them.
-/

namespace ScriptAgent

open Script (Value Pos)

namespace Stateful

variable {ε σ α β : Type}

theorem bind_apply (x : ExceptT ε (StateM σ) α) (f : α → ExceptT ε (StateM σ) β) (m : σ) :
    (x >>= f) m = match x m with
      | (.ok a, m₁) => f a m₁
      | (.error s, m₁) => (.error s, m₁) := by
  show ExceptT.bindCont f (x m).1 (x m).2 = _
  rcases x m with ⟨_ | _, _⟩ <;> rfl

theorem tryCatch_apply (x : ExceptT ε (StateM σ) α) (h : ε → ExceptT ε (StateM σ) α) (m : σ) :
    (tryCatch x h) m = match x m with
      | (.ok a, m₁) => (.ok a, m₁)
      | (.error s, m₁) => h s m₁ := by
  show (ExceptT.tryCatch x h) m = _
  unfold ExceptT.tryCatch ExceptT.mk
  show (StateT.bind x _) m = _
  unfold StateT.bind
  rcases x m with ⟨_ | _, _⟩ <;> rfl

@[simp] theorem pure_apply (a : α) (m : σ) : (pure a : ExceptT ε (StateM σ) α) m = (.ok a, m) := rfl

@[simp] theorem throw_apply (s : ε) (m : σ) :
    (throw s : ExceptT ε (StateM σ) α) m = (.error s, m) := rfl

@[simp] theorem get_apply (m : σ) : (get : ExceptT ε (StateM σ) σ) m = (.ok m, m) := rfl

@[simp] theorem set_apply (m' m : σ) : (set m' : ExceptT ε (StateM σ) PUnit) m = (.ok (), m') := rfl

@[simp] theorem modify_apply (f : σ → σ) (m : σ) :
    (modify f : ExceptT ε (StateM σ) Unit) m = (.ok (), f m) := rfl

end Stateful

namespace Place

variable {α β : Type}

theorem bind_apply (x : Place α) (f : α → Place β) (v : Value) (m : Machine) :
    (x >>= f) v m = match x v m with
      | ((.ok a, v₁), m₁) => f a v₁ m₁
      | ((.error s, v₁), m₁) => ((.error s, v₁), m₁) := by
  show ExceptT.bindCont f (x v m).1.1 (x v m).1.2 (x v m).2 = _
  rcases x v m with ⟨⟨_ | _, _⟩, _⟩ <;> rfl

theorem tryCatch_apply (x : Place α) (h : Stop → Place α) (v : Value) (m : Machine) :
    (tryCatch x h) v m = match x v m with
      | ((.ok a, v₁), m₁) => ((.ok a, v₁), m₁)
      | ((.error s, v₁), m₁) => h s v₁ m₁ := by
  show (ExceptT.tryCatch x h) v m = _
  unfold ExceptT.tryCatch ExceptT.mk
  show (StateT.bind x _) v m = _
  unfold StateT.bind
  show (StateT.bind (x v) _) m = _
  unfold StateT.bind
  rcases x v m with ⟨⟨_ | _, _⟩, _⟩ <;> rfl

@[simp] theorem pure_apply (a : α) (v : Value) (m : Machine) :
    (pure a : Place α) v m = ((.ok a, v), m) := rfl

@[simp] theorem throw_apply (s : Stop) (v : Value) (m : Machine) :
    (throw s : Place α) v m = ((.error s, v), m) := rfl

@[simp] theorem get_apply (v : Value) (m : Machine) : (get : Place Value) v m = ((.ok v, v), m) := rfl

@[simp] theorem set_apply (v' v : Value) (m : Machine) :
    (set v' : Place PUnit) v m = ((.ok (), v'), m) := rfl

@[simp] theorem machine_apply (v : Value) (m : Machine) :
    (liftM (get : StateM Machine Machine) : Place Machine) v m = ((.ok m, v), m) := rfl

@[simp] theorem lift_apply (x : Exec α) (v : Value) (m : Machine) :
    lift x v m = (((x m).1, v), (x m).2) := rfl

end Place

/-! ### Stops from outside -/

namespace Stop

/-- Whether a run was ended by a limit or from outside. -/
def isLimit : Stop → Bool
  | .halted .suspended _ => false
  | .halted .. | .tooLarge .. | .tooDeep _ => true
  | _ => false

@[simp] theorem isLimit_fillPos (pos : Pos) (s : Stop) : (s.fillPos pos).isLimit = s.isLimit := by
  cases s with
  | halted why p => cases why <;> rfl
  | _ => rfl

/-- Whether a stop comes from outside, so that no script catches it. -/
def isForeign : Stop → Bool
  | .halted .. | .tooLarge .. | .tooDeep _ => true
  | _ => false

theorem isForeign_of_isLimit {s : Stop} (h : s.isLimit = true) : s.isForeign = true := by
  cases s with
  | halted | tooLarge | tooDeep => rfl
  | _ => cases h

end Stop

/-- Whether the statements of a script were ended neither by a limit nor by the host. -/
def unhindered {α : Type} : Except Stop α → Bool
  | .error s => !s.isLimit
  | .ok _ => true

end ScriptAgent
