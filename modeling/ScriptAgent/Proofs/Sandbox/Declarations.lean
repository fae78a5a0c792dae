import ScriptAgent.Proofs.Sandbox.Fresh
import ScriptAgent.Proofs.Sandbox.Keeping

/-!
# What a script declares

Only declarations bring variables into scope, and what is declared in a block, a function or an expression goes out of
scope with it.  What is in scope when a script is over was there when it started, or one of its outermost statements
declares it.
-/

namespace ScriptAgent

open Script (Value Pos Stmt)

variable {name : String} {m : Machine}

/-- The names of the variables in scope, the latest first. -/
def Machine.inScope (m : Machine) : List String :=
  m.scope.map (·.name)

namespace Exec

variable {α : Type} {env : Env}

/-- What leaves nothing new in scope leaves the names as they are. -/
theorem KeepsOn.inScope {x : Exec α} (h : KeepsOn name m x) : (x m).2.inScope = m.inScope :=
  Rewritten.names h

/-- A statement leaves the names in scope as they are, or it adds the one that it declares. -/
theorem inScope_stmt (env : Env) (fuel : Nat) (s : Stmt) (m : Machine) :
    (evaluate env fuel (.stmt s) m).2.inScope = m.inScope ∨
      ∃ n pos, s.declaration? = some (n, pos) ∧ (evaluate env fuel (.stmt s) m).2.inScope = n :: m.inScope := by
  -- Any variable will do that the statement spares.
  obtain ⟨z, hz⟩ := (Stmt.mostly_spares s).exists_name
  cases fuel with
  | zero => exact .inl rfl
  | succ fuel =>
    have hrun := spares_evaluate env z fuel
    cases hs : s.declaration? with
    | none => exact .inl (keeps_stmt hrun hz hs m).inScope
    | some d =>
      cases s with
      | declare n constant value pos =>
        simp only [Stmt.spares, Bool.and_eq_true] at hz
        have hinitial : (initial env (evaluate env fuel) value pos m).2.inScope = m.inScope :=
          (keeps_initial hrun hz.2 pos m).inScope
        have hstep : evaluate env (fuel + 1) (.stmt (.declare n constant value pos)) m =
            (initial env (evaluate env fuel) value pos >>= fun v => do declare n constant v; return .unit) m :=
          congrFun (declare_eq env n constant value pos) m
        rw [hstep, Stateful.bind_apply]
        rcases hrun : initial env (evaluate env fuel) value pos m with ⟨_ | v, m₁⟩
        · rw [hrun] at hinitial
          exact .inl hinitial
        · rw [hrun] at hinitial
          exact .inr ⟨n, pos, hs.symm, congrArg (n :: ·) hinitial⟩
      | _ => cases hs

/-- Statements, however they end, only add names that one of them declares. -/
theorem inScope_runAll (env : Env) (fuel : Nat) (body : List Stmt) (m : Machine)
    (h : name ∈ (runAll (evaluate env fuel) body m).2.inScope) :
    name ∈ m.inScope ∨ ∃ s ∈ body, ∃ pos, s.declaration? = some (name, pos) := by
  induction body generalizing m with
  | nil => exact .inl h
  | cons s rest ih =>
    have first {m₁ : Machine} (hs : (evaluate env fuel (.stmt s) m).2 = m₁) (hname : name ∈ m₁.inScope) :
        name ∈ m.inScope ∨ ∃ s' ∈ s :: rest, ∃ pos, s'.declaration? = some (name, pos) := by
      subst hs
      rcases inScope_stmt env fuel s m with hsame | ⟨n, pos, hn, hmore⟩
      · exact .inl (hsame ▸ hname)
      · rw [hmore] at hname
        rcases List.mem_cons.mp hname with rfl | hname
        · exact .inr ⟨s, List.mem_cons_self, pos, hn⟩
        · exact .inl hname
    cases rest with
    | nil => exact first rfl h
    | cons s' rest =>
      unfold runAll at h
      rw [Stateful.bind_apply] at h
      rcases hs : evaluate env fuel (.stmt s) m with ⟨_ | v, m₁⟩
      · rw [hs] at h
        exact first (congrArg Prod.snd hs) h
      · rw [hs] at h
        rcases ih m₁ h with hbefore | ⟨s₁, hs₁, declared⟩
        · exact first (congrArg Prod.snd hs) hbefore
        · exact .inr ⟨s₁, List.mem_cons_of_mem _ hs₁, declared⟩

end Exec

namespace Job

variable {j : Job} {host : Host}

/-- The variables that the script of a job declares by its outermost statements, with the places of their names. -/
def declarations (j : Job) : List (String × Pos) :=
  match j.parse j.compiled.code with
  | .ok p => p.body.filterMap Stmt.declaration?
  | .error _ => []

/-- The variables that are read off after a run, however it ends, were handed to the script or are declared by it. -/
theorem mem_keys_variables_run (h : name ∈ (j.run host).variables.keys) :
    name ∈ j.variables.keys ∨ ∃ pos, (name, pos) ∈ j.declarations := by
  obtain ⟨p, parsed, visible, slot, hslot, rfl⟩ := slot_of_mem_keys_variables h
  have hscope := Exec.inScope_runAll (j.env host p.functions) nestingFuel p.body (j.machine host)
    (List.mem_map.mpr ⟨slot, hslot, rfl⟩)
  rcases hscope with hbefore | ⟨s, hs, pos, declared⟩
  · obtain ⟨slot', hslot', hname⟩ := List.mem_map.mp hbefore
    exact .inl (hname ▸ (name_of_mem_scope_machine hslot').resolve_right (hname ▸ visible))
  · refine .inr ⟨pos, ?_⟩
    unfold declarations
    rw [parsed]
    exact List.mem_filterMap.mpr ⟨s, hs, declared⟩

/-- An execution reports what was read off, or nothing if it was stopped elsewhere. -/
theorem mem_keys_variables_execute (h : name ∈ (j.execute host).1.variables.keys) :
    name ∈ j.variables.keys ∨ ∃ pos, (name, pos) ∈ j.declarations := by
  have hreported : (j.execute host).1.variables = [] ∨ (j.execute host).1.variables = (j.run host).variables := by
    unfold execute
    dsimp only
    exact ite_eq_or_eq _ _ _
  rcases hreported with hnone | hread
  · rw [hnone] at h
    cases h
  · rw [hread] at h
    exact mem_keys_variables_run h

end Job

end ScriptAgent
