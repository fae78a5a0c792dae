import ScriptAgent.Proofs.Sandbox.Stillness

/-!
# Scripts that spare a variable

A script that nowhere declares or assigns a variable, shares it with a function, follows a chain from it or hands it
over as the first argument of a call, may still read it.  Such a script leaves the variable in scope with the value
that it had, and nothing of that name above it, however it ends.
-/

namespace ScriptAgent

open Script (Value Fault Pos Expr Link Stmt Case Pattern)
open Stateful (get_apply)

variable {name : String}

/-! ### What is spared in a scope -/

/-- Only the values of other variables have changed. -/
inductive Rewritten (name : String) : List Slot → List Slot → Prop
  | nil : Rewritten name [] []
  | cons {slot slot' : Slot} {s s' : List Slot} (named : slot'.name = slot.name)
    (same : slot.name = name → slot' = slot) (rest : Rewritten name s s') : Rewritten name (slot :: s) (slot' :: s')

namespace Rewritten

variable {s s₁ s₂ : List Slot}

theorem refl (s : List Slot) : Rewritten name s s := by
  induction s with
  | nil => exact .nil
  | cons slot s ih => exact .cons rfl (fun _ => rfl) ih

theorem trans (h : Rewritten name s s₁) (h' : Rewritten name s₁ s₂) : Rewritten name s s₂ := by
  induction h generalizing s₂ with
  | nil => exact h'
  | cons named same _ ih =>
    cases h' with
    | cons named' same' rest' =>
      refine .cons (named'.trans named) (fun hname => ?_) (ih rest')
      rw [same' (named.trans hname), same hname]

theorem names (h : Rewritten name s s₁) : s₁.map (·.name) = s.map (·.name) := by
  induction h with
  | nil => rfl
  | cons named _ _ ih => rw [List.map_cons, List.map_cons, ih, named]

theorem find? (h : Rewritten name s s₁) : s₁.find? (·.name == name) = s.find? (·.name == name) := by
  induction h with
  | nil => rfl
  | cons named same _ ih =>
    rw [List.find?_cons, List.find?_cons, ih, named]
    split
    · next hname => rw [same (eq_of_beq hname)]
    · rfl

/-- Another variable may have another value. -/
theorem set {i : Nat} {slot : Slot} (hslot : s[i]? = some slot) (hname : slot.name ≠ name) (v : Value) :
    Rewritten name s (s.set i { slot with value := v }) := by
  induction s generalizing i with
  | nil => exact .nil
  | cons slot₀ s ih =>
    cases i with
    | zero =>
      obtain rfl := Option.some.inj hslot
      exact .cons rfl (fun h => absurd h hname) (refl s)
    | succ i => exact .cons rfl (fun _ => rfl) (ih hslot)

theorem of_append {added : List Slot} (h : Rewritten name (added ++ s) s₁) :
    ∃ added' s', s₁ = added' ++ s' ∧ added'.map (·.name) = added.map (·.name) ∧ Rewritten name s s' := by
  induction added generalizing s₁ with
  | nil => exact ⟨[], s₁, rfl, rfl, h⟩
  | cons slot added ih =>
    cases h with
    | @cons _ slot' _ _ named _ rest =>
      obtain ⟨added', s', rfl, hnames, hrest⟩ := ih rest
      exact ⟨slot' :: added', s', rfl, by rw [List.map_cons, List.map_cons, named, hnames], hrest⟩

end Rewritten

/-- Only other variables were declared or have changed. -/
def Spared (name : String) (s s' : List Slot) : Prop :=
  ∃ added old, s' = added ++ old ∧ name ∉ added.map (·.name) ∧ Rewritten name s old

namespace Spared

variable {s s₁ s₂ : List Slot}

theorem of_rewritten (h : Rewritten name s s₁) : Spared name s s₁ :=
  ⟨[], s₁, rfl, nofun, h⟩

theorem refl (s : List Slot) : Spared name s s :=
  .of_rewritten (.refl s)

theorem trans (h : Spared name s s₁) (h' : Spared name s₁ s₂) : Spared name s s₂ := by
  obtain ⟨added, old, rfl, hadded, hold⟩ := h
  obtain ⟨added', old', rfl, hadded', hold'⟩ := h'
  obtain ⟨added₁, old₁, rfl, hnames, hold₁⟩ := hold'.of_append
  refine ⟨added' ++ added₁, old₁, by rw [List.append_assoc], ?_, hold.trans hold₁⟩
  rw [List.map_append, hnames, List.mem_append, not_or]
  exact ⟨hadded', hadded⟩

theorem cons {slot : Slot} (h : slot.name ≠ name) (s : List Slot) : Spared name s (slot :: s) :=
  ⟨[slot], s, rfl, by simpa using h.symm, .refl s⟩

theorem find? (h : Spared name s s₁) : s₁.find? (·.name == name) = s.find? (·.name == name) := by
  obtain ⟨added, old, rfl, hadded, hold⟩ := h
  have hnone : added.find? (·.name == name) = none :=
    List.find?_eq_none.mpr fun slot hslot hname => hadded (eq_of_beq hname ▸ List.mem_map_of_mem hslot)
  rw [List.find?_append, hnone, Option.none_or, hold.find?]

/-- Where what was declared goes out of scope, only values of other variables have changed. -/
theorem rewound (h : Spared name s s₁) : Rewritten name s (s₁.drop (s₁.length - s.length)) := by
  obtain ⟨added, old, rfl, -, hold⟩ := h
  have hlength : s.length = old.length := by simpa using (congrArg List.length hold.names).symm
  have hadded : (added ++ old).length - s.length = added.length := by
    rw [List.length_append, hlength, Nat.add_sub_cancel]
  rw [hadded, List.drop_left]
  exact hold

end Spared

/-! ### Scripts -/

namespace Script

/-- The variable that a statement declares, with the place of its name. -/
def Stmt.declaration? : Stmt → Option (String × Pos)
  | .declare n _ _ pos => some (n, pos)
  | _ => none

/-- Whether an expression is a variable of this name. -/
def Expr.isVar (name : String) : Expr → Bool
  | .var n _ => n == name
  | _ => false

mutual

/-- Whether an expression spares a variable. -/
def Expr.spares (name : String) : Expr → Bool
  | .lit _ _ | .var _ _ | .this _ => true
  | .template parts _ | .array parts _ => Expr.allSpare name parts
  | .map entries _ => Expr.entriesSpare name entries
  | .call _ args _ => !args.head?.any (Expr.isVar name) && Expr.allSpare name args
  | .unary _ e _ => e.spares name
  | .binary op l r _ => !(["in", "!in"].contains op && r.isVar name) && l.spares name && r.spares name
  | .and l r _ | .or l r _ | .coalesce l r _ => l.spares name && r.spares name
  | .chain root links => !root.isVar name && root.spares name && Link.allSpare name links
  | .closure _ captured _ => !captured.any (·.1 == name)
  | .stmt body _ => body.spares name

/-- Whether all expressions spare a variable. -/
def Expr.allSpare (name : String) : List Expr → Bool
  | [] => true
  | e :: es => e.spares name && Expr.allSpare name es

/-- Whether all entries spare a variable. -/
def Expr.entriesSpare (name : String) : List (String × Expr) → Bool
  | [] => true
  | (_, e) :: es => e.spares name && Expr.entriesSpare name es

/-- Whether an expression spares a variable, if there is one. -/
def Expr.optionSpares (name : String) : Option Expr → Bool
  | none => true
  | some e => e.spares name

/-- Whether a step of a chain spares a variable. -/
def Link.spares (name : String) : Link → Bool
  | .property .. => true
  | .method _ args _ _ _ => Expr.allSpare name args
  | .index e _ _ => e.spares name

/-- Whether all steps of a chain spare a variable. -/
def Link.allSpare (name : String) : List Link → Bool
  | [] => true
  | l :: ls => l.spares name && Link.allSpare name ls

/-- Whether a statement spares a variable. -/
def Stmt.spares (name : String) : Stmt → Bool
  | .noop | .continueLoop _ => true
  | .expr e | .importModule e _ => e.spares name
  | .declare n _ value _ => n != name && Expr.optionSpares name value
  | .assign _ target value _ => !target.isVar name && target.spares name && value.spares name
  | .block body _ => Stmt.allSpare name body
  | .ifElse e yes no _ => e.spares name && Stmt.allSpare name yes && Stmt.allSpare name no
  | .whileLoop e body _ => Expr.optionSpares name e && Stmt.allSpare name body
  | .doLoop body e _ _ => Stmt.allSpare name body && e.spares name
  | .forLoop n counter subject body _ =>
    n != name && counter != some name && subject.spares name && Stmt.allSpare name body
  | .switch subject cases default _ => subject.spares name && Case.allSpare name cases && Stmt.optionSpares name default
  | .tryCatch body n handler _ => n != some name && Stmt.allSpare name body && Stmt.allSpare name handler
  | .leave _ value _ | .breakLoop value _ => Expr.optionSpares name value

/-- Whether all statements spare a variable. -/
def Stmt.allSpare (name : String) : List Stmt → Bool
  | [] => true
  | s :: ss => s.spares name && Stmt.allSpare name ss

/-- Whether a statement spares a variable, if there is one. -/
def Stmt.optionSpares (name : String) : Option Stmt → Bool
  | none => true
  | some s => s.spares name

/-- Whether a case spares a variable. -/
def Case.spares (name : String) : Case → Bool
  | .mk patterns e action => Pattern.allSpare name patterns && Expr.optionSpares name e && action.spares name

/-- Whether all cases spare a variable. -/
def Case.allSpare (name : String) : List Case → Bool
  | [] => true
  | c :: cs => c.spares name && Case.allSpare name cs

/-- Whether a pattern spares a variable. -/
def Pattern.spares (name : String) : Pattern → Bool
  | .value e => e.spares name
  | .range .. => true

/-- Whether all patterns spare a variable. -/
def Pattern.allSpare (name : String) : List Pattern → Bool
  | [] => true
  | p :: ps => p.spares name && Pattern.allSpare name ps

end

theorem Expr.allSpare_iff {es : List Expr} : Expr.allSpare name es = true ↔ ∀ e ∈ es, e.spares name = true := by
  induction es with
  | nil => simp [Expr.allSpare]
  | cons e es ih => simp [Expr.allSpare, ih]

theorem Link.allSpare_iff {ls : List Link} : Link.allSpare name ls = true ↔ ∀ l ∈ ls, l.spares name = true := by
  induction ls with
  | nil => simp [Link.allSpare]
  | cons l ls ih => simp [Link.allSpare, ih]

theorem Case.allSpare_iff {cs : List Case} : Case.allSpare name cs = true ↔ ∀ c ∈ cs, c.spares name = true := by
  induction cs with
  | nil => simp [Case.allSpare]
  | cons c cs ih => simp [Case.allSpare, ih]

end Script

/-! ### Computations -/

namespace Exec

variable {α β : Type} {env : Env} {run : Runner} {P : List Slot → Prop}

/-- A computation that spares a variable on a machine. -/
def SparesOn (name : String) (m : Machine) (x : Exec α) : Prop :=
  Spared name m.scope (x m).2.scope

/-- A computation that spares a variable. -/
def Spares (name : String) (x : Exec α) : Prop :=
  ∀ m, SparesOn name m x

/-- A computation that leaves nothing new in scope and spares a variable, on scopes of some kind. -/
def Rewrites (P : List Slot → Prop) (name : String) (x : Exec α) : Prop :=
  ∀ m, P m.scope → Rewritten name m.scope (x m).2.scope

/-- A computation that leaves nothing new in scope and spares a variable on a machine. -/
def KeepsOn (name : String) (m : Machine) (x : Exec α) : Prop :=
  Rewritten name m.scope (x m).2.scope

/-- A computation that leaves nothing new in scope and spares a variable. -/
def Keeps (name : String) (x : Exec α) : Prop :=
  ∀ m, KeepsOn name m x

theorem Still.keeps {x : Exec α} (hx : Still x) : Keeps name x := by
  intro m
  unfold KeepsOn
  rw [hx m]
  exact .refl _

theorem Keeps.spares {x : Exec α} (hx : Keeps name x) : Spares name x :=
  fun m => .of_rewritten (hx m)

theorem Keeps.rewrites {x : Exec α} (hx : Keeps name x) : Rewrites P name x :=
  fun m _ => hx m

theorem Still.spares {x : Exec α} (hx : Still x) : Spares name x :=
  hx.keeps.spares

theorem Still.rewrites {x : Exec α} (hx : Still x) : Rewrites P name x :=
  hx.keeps.rewrites

theorem Spares.bind {x : Exec α} {f : α → Exec β} (hx : Spares name x) (hf : ∀ a, Spares name (f a)) :
    Spares name (x >>= f) := by
  intro m
  have hm := hx m
  unfold SparesOn at hm ⊢
  rw [Stateful.bind_apply]
  rcases hrun : x m with ⟨_ | a, m₁⟩
  · rw [hrun] at hm
    exact hm
  · rw [hrun] at hm
    exact hm.trans (hf a m₁)

theorem Rewrites.bind (hP : ∀ s s', P s → Rewritten name s s' → P s') {x : Exec α} {f : α → Exec β}
    (hx : Rewrites P name x) (hf : ∀ a, Rewrites P name (f a)) : Rewrites P name (x >>= f) := by
  intro m hm
  have hkept := hx m hm
  rw [Stateful.bind_apply]
  rcases hrun : x m with ⟨_ | a, m₁⟩
  · rw [hrun] at hkept
    exact hkept
  · rw [hrun] at hkept
    exact hkept.trans (hf a m₁ (hP _ _ hm hkept))

theorem Rewrites.catching (hP : ∀ s s', P s → Rewritten name s s' → P s') {x : Exec α} {h : Stop → Exec α}
    (hx : Rewrites P name x) (hh : ∀ s, Rewrites P name (h s)) : Rewrites P name (tryCatch x h) := by
  intro m hm
  have hkept := hx m hm
  rw [Stateful.tryCatch_apply]
  rcases hrun : x m with ⟨s | _, m₁⟩
  · rw [hrun] at hkept
    exact hkept.trans (hh s m₁ (hP _ _ hm hkept))
  · rw [hrun] at hkept
    exact hkept

theorem Rewrites.keeps {x : Exec α} (hx : Rewrites (fun _ => True) name x) : Keeps name x :=
  fun m => hx m trivial

theorem Keeps.bind {x : Exec α} {f : α → Exec β} (hx : Keeps name x) (hf : ∀ a, Keeps name (f a)) :
    Keeps name (x >>= f) :=
  (hx.rewrites.bind (fun _ _ _ _ => trivial) fun a => (hf a).rewrites).keeps

theorem Keeps.catching {x : Exec α} {h : Stop → Exec α} (hx : Keeps name x) (hh : ∀ s, Keeps name (h s)) :
    Keeps name (tryCatch x h) :=
  (hx.rewrites.catching (fun _ _ _ _ => trivial) fun s => (hh s).rewrites).keeps

/-- What goes on with the machine as it is. -/
theorem Keeps.of_get {f : Machine → Exec β} (hf : ∀ m, KeepsOn name m (f m)) : Keeps name (get >>= f) :=
  hf

theorem Keeps.get_bind {f : Machine → Exec β} (hf : ∀ m, Keeps name (f m)) : Keeps name (get >>= f) :=
  .of_get fun m => hf m m

theorem Keeps.ite {c : Prop} [Decidable c] {x y : Exec α} (hx : Keeps name x) (hy : Keeps name y) :
    Keeps name (if c then x else y) := by
  split
  · exact hx
  · exact hy

/-- What was declared inside is gone afterwards, however the computation ends. -/
theorem Spares.scoped {x : Exec α} (hx : Spares name x) : Keeps name (scoped_ x) := by
  intro m
  have hm := hx m
  unfold KeepsOn scoped_
  rw [Stateful.bind_apply, get_apply]
  dsimp only
  rw [Stateful.bind_apply, Stateful.tryCatch_apply]
  rcases hrun : x m with ⟨s | a, m₁⟩
  · rw [SparesOn, hrun] at hm
    exact hm.rewound
  · rw [SparesOn, hrun] at hm
    exact hm.rewound

theorem keeps_mapM {f : α → Exec β} {as : List α} (hf : ∀ a ∈ as, Keeps name (f a)) : Keeps name (as.mapM f) := by
  induction as with
  | nil => exact (still_pure _).keeps
  | cons a as ih =>
    rw [List.mapM_cons]
    have hrest := ih fun a ha => hf a (List.mem_cons_of_mem _ ha)
    exact (hf a List.mem_cons_self).bind fun _ => hrest.bind fun _ => (still_pure _).keeps

/-- A declaration of another variable, and what is done with it in scope. -/
theorem SparesOn.declare_bind {m : Machine} {n : String} (hn : n ≠ name) {constant : Bool} {v : Value}
    {f : Unit → Exec β} (hf : SparesOn name { m with scope := ⟨n, constant, v⟩ :: m.scope } (f ())) :
    SparesOn name m (declare n constant v >>= f) :=
  (Spared.cons hn m.scope).trans hf

/-! ### Variables -/

/-- Where a variable is found, a slot of its name is. -/
theorem slot_of_find? {m : Machine} {n : String} {i : Nat} (h : m.find? n = some i) :
    m.scope[i]? = some m.scope[i]! ∧ m.scope[i]!.name = n := by
  obtain ⟨hi, hname, -⟩ := List.findIdx?_eq_some_iff_getElem.mp h
  rw [getElem!_pos m.scope i hi]
  exact ⟨List.getElem?_eq_getElem hi, eq_of_beq hname⟩

theorem keeps_onVariable {n : String} (hn : n ≠ name) (pos : Pos) {x : Bool → Place α}
    (hx : ∀ constant, (x constant).Still) : Keeps name (Place.onVariable env n pos x) := by
  refine (still_noteRead pos).keeps.bind fun _ => .of_get fun m => ?_
  split
  · exact (still_fault _ _).keeps m
  · next i hi =>
    obtain ⟨hslot, hname⟩ := slot_of_find? hi
    dsimp only
    split
    · exact ((hx _).onCell _).keeps m
    · have hsame := hx m.scope[i]!.constant m.scope[i]!.value m
      unfold KeepsOn
      rcases hrun : x m.scope[i]!.constant m.scope[i]!.value m with ⟨⟨r, v⟩, m₁⟩
      rw [hrun] at hsame
      dsimp only at hsame ⊢
      rw [hrun]
      dsimp only
      rw [hsame]
      exact .set hslot (hname ▸ hn) _

theorem keeps_share {n : String} (hn : n ≠ name) (pos : Pos) : Keeps name (share env n pos) := by
  refine .of_get fun m => ?_
  split
  · exact (still_fault _ _).keeps m
  · next i hi =>
    obtain ⟨hslot, hname⟩ := slot_of_find? hi
    have hstill : Still (noteRead env pos) := still_noteRead pos
    have hsame := hstill m
    unfold KeepsOn
    rw [Stateful.bind_apply]
    rcases hrun : noteRead env pos m with ⟨_ | _, m₁⟩
    · rw [hrun] at hsame
      dsimp only at hsame ⊢
      rw [hsame]
      exact .refl _
    · rw [hrun] at hsame
      have hset (id : Nat) : Rewritten name m.scope (m₁.scope.set i { m.scope[i]! with value := .cell id }) := by
        rw [show m₁.scope = m.scope from hsame]
        exact .set hslot (hname ▸ hn) _
      dsimp only at hsame ⊢
      cases m.scope[i]!.value with
      | cell id => exact hsame.symm ▸ .refl _
      | _ => exact hset _

end Exec

end ScriptAgent
