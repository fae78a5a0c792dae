import ScriptAgent.Proofs.Instrument.ChainTwins
import ScriptAgent.Sandbox.Step

/-!
# Evaluating expressions agrees

Each construct gives the same value on woven parts.  Variables are read from scopes that are the
same, so the two runs differ in the places of their faults only.
-/

namespace ScriptAgent

open Script (Value Fault Pos Callee Expr Stmt)

section Parts

variable {mute : Bool} {env env' : Env} {run run' : Runner}

namespace Exec

theorem agrees_condition (hrun : run.Twin mute run') {e e' : Expr} (h : e.Woven mute e') :
    Agrees mute Eq (condition run e) (condition run' e') := by
  refine (hrun.expr h).bind_eq fun v => ?_
  split
  · exact agrees_pure rfl
  · exact agrees_fault rfl _ _

theorem agrees_arguments (hrun : run.Twin mute run') {es es' : List Expr}
    (h : List.Forall₂ (Expr.Woven mute) es es') : Agrees mute Eq (arguments run es) (arguments run' es') := by
  induction h with
  | nil => exact agrees_pure rfl
  | cons he _ ih => exact (hrun.expr he).bind_eq fun _ => ih.bind_eq fun _ => agrees_pure rfl

theorem agrees_items (he : env.Twin mute env') (hrun : run.Twin mute run') (done : List Value) {es es' : List Expr}
    (h : List.Forall₂ (Expr.Woven mute) es es') : Agrees mute Eq (items env run done es) (items env' run' done es') := by
  induction h generalizing done with
  | nil => exact agrees_pure rfl
  | cons hw _ ih => exact (hrun.expr hw).bind_eq fun _ => (agrees_checkSize he _ _ _).bind fun _ _ _ => ih _

theorem agrees_entries (he : env.Twin mute env') (hrun : run.Twin mute run') (done : Dict Value)
    {es es' : List (String × Expr)} (h : Script.Entries.Woven mute es es') :
    Agrees mute Eq (entries env run done es) (entries env' run' done es') := by
  induction es generalizing done es' with
  | nil =>
    cases h
    exact agrees_pure rfl
  | cons e es ih =>
    cases h with
    | cons key hw hs =>
      exact (hrun.expr hw).bind_eq fun _ => (agrees_checkSize he _ _ _).bind fun _ _ _ => ih _ hs

theorem agrees_template (he : env.Twin mute env') (hrun : run.Twin mute run') (done : String) {es es' : List Expr}
    (h : List.Forall₂ (Expr.Woven mute) es es') :
    Agrees mute Eq (template env run done es) (template env' run' done es') := by
  induction h generalizing done with
  | nil => exact agrees_pure rfl
  | cons hw _ ih =>
    refine (hrun.expr hw).bind_eq fun v => .get_bind fun m m' hm => ?_
    rw [he.backend, hm.text]
    exact (agrees_checkSize he _ _ _).bind fun _ _ _ => ih _

theorem agrees_applyNamed (he : env.Twin mute env') (hrun : run.Twin mute run') (name : String)
    {args args' : List Expr} (h : List.Forall₂ (Expr.Woven mute) args args') (p p' : Pos) :
    Agrees mute Eq (applyNamed env run name args p) (applyNamed env' run' name args' p') := by
  have plainly : Agrees mute Eq (do callByName env run name (← arguments run args) none p)
      (do callByName env' run' name (← arguments run' args') none p') :=
    (agrees_arguments hrun h).bind_eq fun _ => agrees_callByName he hrun _ _ _ _ _
  cases h with
  | nil => exact plainly
  | @cons a a' rest rest' ha hrest =>
    cases ha with
    | var first q q' =>
      refine (agrees_arguments hrun hrest).bind_eq fun values => .get_bind fun m m' hm => ?_
      have hlength : rest'.length = rest.length := hrest.length_eq.symm
      have found := scriptFunction_woven he name (rest.length + 1)
      rw [hm.scope]
      simp only [List.length_cons, hlength]
      generalize scriptFunction? env name (rest.length + 1) = f at found ⊢
      generalize scriptFunction? env' name (rest.length + 1) = f' at found ⊢
      have hnone : f'.isNone = f.isNone := by cases found <;> rfl
      rw [hnone]
      refine .ite ?_ ?_
      · exact (Place.Agrees.onVariable he (fun _ => Place.agrees_native he hrun _ _ _ _ _ _) _ _ _).bind_eq
          fun _ => agrees_pure rfl
      · exact (agrees_readVariable he _ _ _).bind_eq fun _ => agrees_callByName he hrun _ _ _ _ _
    | _ => exact plainly

theorem agrees_functionNamed (v : Value) (p p' : Pos) : Agrees mute Eq (functionNamed v p) (functionNamed v p') := by
  unfold functionNamed
  split
  · exact .ite (agrees_pure rfl) (agrees_fault rfl _ _)
  · exact agrees_fault rfl _ _

theorem agrees_call (he : env.Twin mute env') (hrun : run.Twin mute run') (name : String)
    {args args' : List Expr} (h : List.Forall₂ (Expr.Woven mute) args args') (p p' : Pos) :
    Agrees mute Eq (call env run name args p) (call env' run' name args' p') := by
  have plainly := agrees_applyNamed he hrun name h p p'
  unfold call
  split
  · obtain _ | ⟨h, _ | _⟩ := h
    exact (hrun.expr h).bind_eq fun v => agrees_functionNamed _ _ _
  · obtain _ | ⟨h, hs⟩ := h
    refine (hrun.expr h).bind_eq fun v => ?_
    split
    · exact (agrees_arguments hrun hs).bind_eq fun _ => hrun.apply _ _ _ _ _
    · exact agrees_fault rfl _ _
  · obtain _ | ⟨h, hs⟩ := h
    cases hs with
    | cons h₂ hs =>
      refine (hrun.expr h).bind_eq fun v => ?_
      split
      · exact (agrees_arguments hrun (.cons h₂ hs)).bind_eq fun _ => agrees_pure rfl
      · exact agrees_fault rfl _ _
  · obtain _ | ⟨h, _ | _⟩ := h
    cases h with
    | var name q q' =>
      refine (agrees_noteRead he _ _).bind fun _ _ _ => .get_bind fun m m' hm => ?_
      rw [hm.scope]
      split
      · exact agrees_pure rfl
      · exact agrees_pure rfl
      · exact agrees_fault rfl _ _
  · next hvar =>
    obtain _ | ⟨h, _ | _⟩ := h
    have hr := hrun.expr h
    cases h with
    | var name q q' => exact (hvar name q rfl).elim
    | _ => exact hr.bind_eq fun _ => agrees_pure rfl
  · obtain _ | ⟨h, _ | _⟩ := h
    refine (hrun.expr h).bind_eq fun v => ?_
    split
    · refine .get_bind fun m m' hm => ?_
      rw [hm.find?]
      exact agrees_pure rfl
    · exact agrees_fault rfl _ _
  · obtain _ | ⟨h, _ | ⟨h₂, _ | _⟩⟩ := h
    refine (hrun.expr h).bind_eq fun v => (hrun.expr h₂).bind_eq fun w => ?_
    split
    · next name n =>
      have found := scriptFunction_woven he name n.toNat
      generalize scriptFunction? env name n.toNat = f at found ⊢
      generalize scriptFunction? env' name n.toNat = f' at found ⊢
      cases found <;> exact agrees_pure rfl
    · exact agrees_fault rfl _ _
    · exact agrees_fault rfl _ _
  · next hfn hcall hcurry hvar hshared hdefVar hdefFn =>
    -- a name and arguments that mean no special call on one side mean none on the other
    split
    · obtain _ | ⟨_, _ | _⟩ := h
      exact (hfn _ rfl rfl).elim
    · obtain _ | _ := h
      exact (hcall _ _ rfl rfl).elim
    · obtain _ | ⟨_, _ | _⟩ := h
      exact (hcurry _ _ _ rfl rfl).elim
    · obtain _ | ⟨_, _ | _⟩ := h
      exact (hshared _ rfl rfl).elim
    · obtain _ | ⟨_, _ | _⟩ := h
      exact (hshared _ rfl rfl).elim
    · obtain _ | ⟨_, _ | _⟩ := h
      exact (hdefVar _ rfl rfl).elim
    · obtain _ | ⟨_, _ | ⟨_, _ | _⟩⟩ := h
      exact (hdefFn _ _ rfl rfl).elim
    · exact plainly

theorem agrees_chain (he : env.Twin mute env') (hrun : run.Twin mute run') {root root' : Expr}
    (hroot : root.Woven mute root') {links links' : List Script.Link}
    (h : List.Forall₂ (Script.Link.Woven mute) links links') {write write' : Option (String × Value × Pos)}
    (hw : Option.Rel (fun w w' => w'.1 = w.1 ∧ w'.2.1 = w.2.1) write write') :
    Agrees mute Eq (chain env run root links write) (chain env' run' root' links' write') := by
  refine (agrees_mapM h fun _ _ => Move.agrees_ofLink hrun).bind fun moves moves' hmoves => ?_
  have hwrite (name : String) (q q' : Pos) : Option.Rel Write.Alike
      (write.map fun w => (⟨w.1, w.2.1, w.2.2, name, q⟩ : Write))
      (write'.map fun w => (⟨w.1, w.2.1, w.2.2, name, q'⟩ : Write)) := by
    cases hw with
    | none => exact .none
    | some hw => exact .some ⟨hw.1, hw.2, rfl⟩
  have hvalue := hrun.expr hroot
  dsimp only
  cases hroot with
  | var name q q' =>
    refine (agrees_tick _ _).bind fun _ _ _ => Agrees.bind_eq (Agrees.at_ ?_ _ _) fun _ => agrees_pure rfl
    exact Place.Agrees.onVariable he (fun _ => Place.agrees_walk he hrun hmoves _ _ (hwrite _ _ _)) _ _ _
  | this q q' =>
    refine .get_bind fun m m' hm => ?_
    rw [hm.this]
    split
    · exact (Agrees.at_ ((Place.agrees_walk he hrun hmoves _ _ (hwrite _ _ _)).onCell _) _ _).bind_eq
        fun _ => agrees_pure rfl
    · exact agrees_fault rfl _ _
  | _ =>
    refine hvalue.bind_eq fun v => ?_
    exact (Agrees.at_ ((Place.agrees_walk he hrun hmoves _ _ .none).onValue _) _ _).bind_eq fun _ => agrees_pure rfl

theorem agrees_captured (he : env.Twin mute env') {vars vars' : List (String × Pos)}
    (h : vars.map (·.1) = vars'.map (·.1)) :
    Agrees mute Eq (vars.mapM fun (name, pos) => share env name pos)
      (vars'.mapM fun (name, pos) => share env' name pos) := by
  have hvars : List.Forall₂ (fun v v' => v.1 = v'.1) vars vars' :=
    List.forall₂_map_left_iff.mp (List.forall₂_map_right_iff.mp (List.forall₂_eq_eq_eq ▸ h))
  refine (agrees_mapM (R := Eq) hvars ?_).mono fun _ _ hs => List.forall₂_eq_eq_eq ▸ hs
  rintro ⟨name, q⟩ ⟨_, q'⟩ rfl
  exact agrees_share he name q q'

theorem agrees_binary (he : env.Twin mute env') (hrun : run.Twin mute run') (op : String) {l l' r r' : Expr}
    (hl : l.Woven mute l') (hr : r.Woven mute r') (p p' : Pos) :
    Agrees mute Eq (expr env run (.binary op l r p)) (expr env' run' (.binary op l' r' p')) := by
  have contains := agrees_applyNamed he hrun "contains" (.cons hr (.cons hl .nil)) p p'
  have plainly (h : op ≠ "in") (h' : op ≠ "!in") (l r : Expr) (p : Pos) (env : Env) (run : Runner) :
      expr env run (.binary op l r p) = (do
        let a ← run (.expr l)
        let b ← run (.expr r)
        let m ← get
        let v ← ofExcept (Script.Operator.binary (m.text env.backend) op a b) p
        sized env v p) := by
    unfold expr
    split <;> simp_all
  by_cases h : op = "in"
  · subst h
    exact contains
  by_cases h' : op = "!in"
  · subst h'
    exact contains.bind_eq fun _ => agrees_ofExcept _ _ _
  rw [plainly h h', plainly h h']
  refine (hrun.expr hl).bind_eq fun a => (hrun.expr hr).bind_eq fun b => .get_bind fun m m' hm => ?_
  rw [hm.text, he.backend]
  exact (agrees_ofExcept _ _ _).bind_eq fun v => agrees_sized he _ _ _

theorem agrees_expr (he : env.Twin mute env') (hrun : run.Twin mute run') {e e' : Expr} (h : e.Woven mute e') :
    Agrees mute Eq (expr env run e) (expr env' run' e') := by
  cases h with
  | lit v p q => exact agrees_pure rfl
  | template h p q => exact (agrees_template he hrun _ h).bind_eq fun _ => agrees_pure rfl
  | array h p q => exact (agrees_items he hrun _ h).bind_eq fun _ => agrees_pure rfl
  | map h p q => exact (agrees_entries he hrun _ h).bind_eq fun _ => agrees_pure rfl
  | var name p q => exact agrees_readVariable he _ _ _
  | this p q =>
    refine .get_bind fun m m' hm => ?_
    rw [hm.this]
    split
    · exact agrees_pure (hm.contents _).symm
    · exact agrees_fault rfl _ _
  | call name h p q => exact agrees_call he hrun _ h _ _
  | unary op h p q => exact (hrun.expr h).bind_eq fun _ => agrees_ofExcept _ _ _
  | binary op hl hr p q => exact agrees_binary he hrun op hl hr p q
  | and hl hr p q =>
    exact (agrees_condition hrun hl).bind_eq fun _ =>
      .ite ((agrees_condition hrun hr).bind_eq fun _ => agrees_pure rfl) (agrees_pure rfl)
  | or hl hr p q =>
    exact (agrees_condition hrun hl).bind_eq fun _ =>
      .ite (agrees_pure rfl) ((agrees_condition hrun hr).bind_eq fun _ => agrees_pure rfl)
  | coalesce hl hr p q =>
    exact (hrun.expr hl).bind_eq fun _ => .ite (hrun.expr hr) (agrees_pure rfl)
  | chain h hl => exact agrees_chain he hrun h hl .none
  | closure index h p q =>
    refine (agrees_captured he h).bind_eq fun cells => agrees_pure ?_
    rw [h]
  | stmt h p q => exact (hrun.stmt h).scoped.mono fun _ _ hv => (hv.1 rfl).symm

end Exec

end Parts

end ScriptAgent
