import ScriptAgent.Proofs.Instrument.HostTwins
import ScriptAgent.Proofs.Instrument.PlaceTwins
import ScriptAgent.Proofs.Sandbox.Parts

/-!
# Applying functions agrees

What evaluates the parts of a task is taken to agree on woven parts, and to pass over hooks.  Then
the statements of a body agree, whatever hooks stand between them, and so does a call of a function.
-/

namespace ScriptAgent

open Script (Value Fault Pos Callee)
open Stateful (bind_apply tryCatch_apply get_apply)

/-- Values given by a statement and by the statement with hooks put into it: the same if somebody
looks at them, and the empty one if the statement is silent. -/
def Yields (valued silent : Bool) (a b : Value) : Prop :=
  (valued = true → b = a) ∧ (silent = true → a = .unit)

/-- What evaluates the parts of a script and of the script with hooks put into it. -/
structure Runner.Twin (mute : Bool) (run run' : Runner) : Prop where
  expr : ∀ {e e' : Script.Expr}, e.Woven mute e' → Exec.Agrees mute Eq (run (.expr e)) (run' (.expr e'))
  stmt : ∀ {valued : Bool} {s s' : Script.Stmt}, s.Woven mute valued s' →
    Exec.Agrees mute (Yields valued (s.isSilent mute)) (run (.stmt s)) (run' (.stmt s'))
  apply : ∀ (callee : Callee) (args : List Value) (this : Option Nat) (p p' : Pos),
    Exec.Agrees mute Eq (run (.apply callee args this p)) (run' (.apply callee args this p'))
  hook : ∀ {h : Script.Stmt}, h.Hook → Exec.Agrees mute (fun _ v => v = .unit) (pure ()) (run' (.stmt h))

section Parts

variable {mute : Bool} {env env' : Env} {run run' : Runner}

namespace Exec

variable {α β : Type} {R : α → β → Prop}

/-- What only the second run does before it goes on. -/
theorem Agrees.after {γ : Type} {x : Exec α} {y : Exec β} {z : Exec γ}
    (h : Agrees mute (fun (_ : Unit) _ => True) (pure ()) z) (hxy : Agrees mute R x y) :
    Agrees mute R x (z >>= fun _ => y) := by
  have hx : (pure () >>= fun _ => x) = x := pure_bind _ _
  exact hx ▸ h.bind fun _ _ _ => hxy

theorem agrees_runAll (hrun : run.Twin mute run') {valued : Bool} {ss ss' : List Script.Stmt}
    (h : Script.Stmts.Woven mute valued ss ss') :
    Agrees mute (Yields valued (Script.Stmt.endsSilent mute ss)) (runAll run ss) (runAll run' ss') := by
  induction ss' generalizing ss with
  | nil =>
    cases h
    exact agrees_pure ⟨fun _ => rfl, fun _ => rfl⟩
  | cons s' ss' ih =>
    cases h with
    | hook hh hs =>
      cases ss' with
      | nil =>
        cases hs
        have hx : (pure () >>= fun _ => pure Value.unit) = runAll run [] := pure_bind _ _
        have hy : (run' (.stmt s') >>= pure) = runAll run' [s'] := bind_pure _
        rw [← hx, ← hy]
        exact (hrun.hook hh).bind fun _ v hv => agrees_pure ⟨fun _ => hv, fun _ => rfl⟩
      | cons t ss' => exact .after ((hrun.hook hh).mono fun _ _ _ => trivial) (ih hs)
    | last h => exact hrun.stmt h
    | @hooked _ s _ h hs hv h₁ hh h₂ =>
      have hx : (run (.stmt s) >>= pure) = runAll run [s] := bind_pure _
      rw [← hx]
      refine (hrun.stmt h₁).bind fun a _ ha => ?_
      have hy : (runAll run' (h :: hs) >>= pure) = runAll run' (h :: hs) := bind_pure _
      have hz : (runAll run [] >>= fun _ => pure a) = pure a := pure_bind _ _
      rw [← hy, ← hz]
      refine (ih (.hook hh h₂)).bind fun u b hb => agrees_pure ⟨fun hvalued => ?_, ha.2⟩
      rw [hb.1 hvalued, hb.2 rfl, ha.2 (hv hvalued)]
    | @cons _ s _ t ss _ h hs =>
      cases ss' with
      | nil => cases hs
      | cons t' ss' => exact (hrun.stmt h).bind fun _ _ _ => ih hs

/-- A body as it is run in a function: its value is looked at. -/
theorem agrees_body (hrun : run.Twin mute run') {ss ss' : List Script.Stmt}
    (h : Script.Stmts.Woven mute true ss ss') : Agrees mute Eq (runAll run ss) (runAll run' ss') :=
  (agrees_runAll hrun h).mono fun _ _ hv => (hv.1 rfl).symm

theorem agrees_leaveFunction {s s' : Stop} (h : s.Twin mute s') (name : String) (closure : Bool) (p p' : Pos) :
    Agrees mute Eq (leaveFunction name closure p s) (leaveFunction name closure p' s') := by
  cases h with
  | fault h _ _ => exact agrees_fault (by simp only [Script.Fault.unplaced, h]) _ _
  | returned v => exact agrees_pure rfl
  | broken h => exact agrees_throw (.broken h)
  | continued => exact agrees_throw .continued

/-- A function leaves a limit as it is. -/
theorem leaveFunction_limit {s : Stop} (h : s.isLimit = true) (name : String) (closure : Bool) (p : Pos)
    (m : Machine) : ∃ s', leaveFunction name closure p s m = (.error s', m) ∧ s'.isLimit = true := by
  cases s with
  | halted why q => exact ⟨.halted why p, rfl, by cases why <;> first | rfl | cases h⟩
  | tooLarge what q => exact ⟨.tooLarge what p, rfl, rfl⟩
  | tooDeep q => exact ⟨.tooDeep p, rfl, rfl⟩
  | _ => cases h

/-- Bodies that agree do so in a frame of their own, which is left again however they end. -/
theorem agreeOn_frame {x y : Exec Value} (h : Agrees mute Eq x y) {m m' : Machine} (hm : m.Twin m')
    (vars : List Slot) (this : Option Nat) (name : String) (closure : Bool) (p p' : Pos) :
    AgreeOn mute Eq m m'
      (do
        set { m with scope := vars, this := this, level := m.level + 1 }
        let leave : Exec Unit :=
          modify fun n => { n with scope := m.scope, this := m.this, level := m.level }
        let v ← tryCatch x fun s => do
          leave
          leaveFunction name closure p s
        leave
        return v)
      (do
        set { m' with scope := vars, this := this, level := m'.level + 1 }
        let leave : Exec Unit :=
          modify fun n => { n with scope := m'.scope, this := m'.this, level := m'.level }
        let v ← tryCatch y fun s => do
          leave
          leaveFunction name closure p' s
        leave
        return v) := by
  have left_ (n n' : Machine) (hn : n.Alike n') :
      Machine.Alike { n with scope := m.scope, this := m.this, level := m.level }
        { n' with scope := m'.scope, this := m'.this, level := m'.level } :=
    { hn with scope := hm.scope, this := hm.this, level := hm.level }
  have inner : Machine.Twin { m with scope := vars, this := this, level := m.level + 1 }
      { m' with scope := vars, this := this, level := m'.level + 1 } :=
    hm.move { hm with scope := rfl, this := rfl, level := congrArg (· + 1) hm.level } rfl rfl
  refine .set_bind ?_
  dsimp only
  refine Agrees.bind_eq ?_ (fun v => ?_) _ _ inner
  · refine h.catching (fun s n hl => ?_) (fun s n hl => ?_) (fun s s' hs => ?_) fun q q' n n' hn => ?_
    · obtain ⟨s', he, hs'⟩ := leaveFunction_limit hl name closure p _
      exact ⟨s', _, he, hs'⟩
    · obtain ⟨s', he, hs'⟩ := leaveFunction_limit hl name closure p' _
      exact ⟨s', _, he, hs'⟩
    · exact (agrees_modify fun n n' hn => hn.move (left_ n n' hn.toAlike) rfl rfl).bind fun _ _ _ =>
        agrees_leaveFunction hs name closure p p'
    · exact .signal _ _ (hn.move (left_ n n' hn.toAlike) rfl rfl)
  · exact (agrees_modify fun n n' hn => hn.move (left_ n n' hn.toAlike) rfl rfl).bind fun _ _ _ => agrees_pure rfl

theorem agrees_invoke (he : env.Twin mute env') (hrun : run.Twin mute run') {f f' : Script.Function}
    (hf : f.Woven mute f') (name : String) (args : List Value) (this : Option Nat) (p p' : Pos) :
    Agrees mute Eq (invoke env run f name args this p) (invoke env' run' f' name args this p') := by
  obtain ⟨fname, params, body⟩ := f
  obtain ⟨_, _, body'⟩ := f'
  obtain ⟨rfl, rfl, hbody⟩ := hf
  unfold invoke
  dsimp only
  rcases body with _ | ⟨s, ss⟩
  · rcases body' with _ | ⟨s', ss'⟩
    · exact agrees_pure rfl
    · refine .after (agrees_tickAlone p') fun m m' hm => .get_right (.unless_right rfl ?_)
      exact agreeOn_frame (agrees_body hrun hbody) hm _ _ _ _ p p'
  · rcases body' with _ | ⟨s', ss'⟩
    · cases hbody
    · refine (agrees_tick p p').bind fun _ _ _ m m' hm => .get_bind (.unless ?_ rfl ?_)
      · rw [he.sizes, hm.level]
      · exact agreeOn_frame (agrees_body hrun hbody) hm _ _ _ _ p p'

theorem agrees_noFunction {α : Type} {R : α → α → Prop} (name : String) (args : List Value) (p p' : Pos) :
    Agrees mute R (noFunction name args p) (noFunction name args p') :=
  agrees_fault rfl _ _

/-- A name reaches woven functions of the two scripts, or none of either. -/
theorem scriptFunction_woven (he : env.Twin mute env') (name : String) (arity : Nat) :
    Option.Rel (Script.Function.Woven mute) (scriptFunction? env name arity) (scriptFunction? env' name arity) := by
  unfold scriptFunction?
  rw [← Array.find?_toList, ← Array.find?_toList]
  have h := he.functions
  generalize env.functions.toList = fs at h ⊢
  generalize env'.functions.toList = fs' at h ⊢
  induction h with
  | nil => exact .none
  | @cons f f' fs fs' hf hs ih =>
    rw [List.find?_cons, List.find?_cons, hf.name, hf.params]
    split
    · exact .some hf
    · exact ih

/-- An index reaches woven functions of the two scripts, or none of either. -/
theorem function_woven (he : env.Twin mute env') (index : Nat) :
    Option.Rel (Script.Function.Woven mute) env.functions[index]? env'.functions[index]? := by
  rw [← Array.getElem?_toList, ← Array.getElem?_toList]
  have h := he.functions
  generalize env.functions.toList = fs at h ⊢
  generalize env'.functions.toList = fs' at h ⊢
  induction h generalizing index with
  | nil => exact .none
  | cons hf hs ih =>
    cases index with
    | zero => exact .some hf
    | succ index => exact ih index

theorem arity_woven (he : env.Twin mute env') (callee : Callee) (given : Nat) (candidates : List Nat) :
    arity? env' callee given candidates = arity? env callee given candidates := by
  cases callee with
  | closure index captured =>
    have h := function_woven he index
    unfold arity?
    dsimp only
    generalize env.functions[index]? = f at h ⊢
    generalize env'.functions[index]? = f' at h ⊢
    cases h with
    | none => rfl
    | some h => simp only [Option.map_some, h.params]
  | named name =>
    have h (n : Nat) : (scriptFunction? env' name n).isSome = (scriptFunction? env name n).isSome := by
      have h := scriptFunction_woven he name n
      generalize scriptFunction? env name n = f at h ⊢
      generalize scriptFunction? env' name n = f' at h ⊢
      cases h <;> rfl
    unfold arity?
    simp only [h]

/-- A fault inside a function that was handed to the host. -/
theorem agrees_inside {α β : Type} {R : α → β → Prop} {f f' : Fault} (h : f'.unplaced = f.unplaced) (caller : String)
    (q q' p p' : Pos) : Agrees mute R (fault (.inside caller false f q) p) (fault (.inside caller false f' q') p') :=
  agrees_fault (by simp only [Script.Fault.unplaced, h]) p p'

theorem agrees_onItem (he : env.Twin mute env') (hrun : run.Twin mute run') (caller : String) (f item : Value)
    (extras : List Value) (p p' : Pos) :
    Agrees mute Eq (onItem env run caller f item extras p) (onItem env' run' caller f item extras p') := by
  unfold onItem
  split
  · refine Agrees.faults ?_ (fun s hs => ?_) (fun s hs => ?_) fun f f' q q' hf => agrees_inside hf _ _ _ _ _
    · rw [arity_woven he]
      split
      · refine (agrees_newCell _).bind_eq fun id => (hrun.apply _ _ _ _ _).bind_eq fun v => ?_
        exact .get_bind fun m m' hm => agrees_pure (by rw [hm.contents])
      · exact (hrun.apply _ _ _ _ _).bind fun _ _ h => agrees_pure (by rw [h])
      · exact (hrun.apply _ _ _ _ _).bind fun _ _ h => agrees_pure (by rw [h])
      · exact (hrun.apply _ _ _ _ _).bind fun _ _ h => agrees_pure (by rw [h])
    · cases s with
      | fault cause p => exact absurd rfl (hs cause p)
      | _ => rfl
    · cases s with
      | fault cause p => exact absurd rfl (hs cause p)
      | _ => rfl
  · exact agrees_fault rfl _ _

theorem agrees_onArgs (he : env.Twin mute env') (hrun : run.Twin mute run') (caller : String) (f : Value)
    (args extras : List Value) (p p' : Pos) :
    Agrees mute Eq (onArgs env run caller f args extras p) (onArgs env' run' caller f args extras p') := by
  unfold onArgs
  split
  · simp only [arity_woven he]
    refine Agrees.faults (hrun.apply _ _ _ _ _) (fun s hs => ?_) (fun s hs => ?_)
      fun f f' q q' hf => agrees_inside hf _ _ _ _ _
    · cases s with
      | fault cause p => exact absurd rfl (hs cause p)
      | _ => rfl
    · cases s with
      | fault cause p => exact absurd rfl (hs cause p)
      | _ => rfl
  · exact agrees_fault rfl _ _

end Exec

/-! ### Functions that take functions -/

namespace Callback

open Exec

theorem agrees_each {f g : Nat → Value → Exec (Value × Value)} (h : ∀ i v, Agrees mute Eq (f i v) (g i v)) (i : Nat)
    (vs : List Value) : Agrees mute Eq (each f i vs) (each g i vs) := by
  induction vs generalizing i with
  | nil => exact agrees_pure rfl
  | cons v rest ih => exact (h i v).bind_eq fun r => (ih _).bind_eq fun rs => agrees_pure rfl

theorem agrees_first {f g : Nat → Value → Exec (Value × Value)} (h : ∀ i v, Agrees mute Eq (f i v) (g i v))
    (accept : Value → Bool) (i : Nat) (vs : List Value) :
    Agrees mute Eq (first f accept i vs) (first g accept i vs) := by
  induction vs generalizing i with
  | nil => exact agrees_pure rfl
  | cons v rest ih =>
    refine (h i v).bind_eq fun r => ?_
    dsimp only
    split
    · exact agrees_pure rfl
    · exact ih _

theorem agrees_insertBy {f g : Value → Value → Exec Bool} (h : ∀ v w, Agrees mute Eq (f v w) (g v w)) (v : Value)
    (vs : List Value) : Agrees mute Eq (insertBy f v vs) (insertBy g v vs) := by
  induction vs with
  | nil => exact agrees_pure rfl
  | cons w rest ih =>
    refine (h w v).bind_eq fun b => ?_
    split
    · exact agrees_pure rfl
    · exact ih.bind_eq fun _ => agrees_pure rfl

theorem agrees_sortBy {f g : Value → Value → Exec Bool} (h : ∀ v w, Agrees mute Eq (f v w) (g v w))
    (done vs : List Value) : Agrees mute Eq (sortBy f done vs) (sortBy g done vs) := by
  induction vs generalizing done with
  | nil => exact agrees_pure rfl
  | cons v rest ih => exact (agrees_insertBy h v done).bind_eq fun _ => ih _

theorem agrees_fold {f g : Nat → Value → Value → Exec Value} (h : ∀ i a v, Agrees mute Eq (f i a v) (g i a v))
    (i : Nat) (acc : Value) (vs : List Value) : Agrees mute Eq (fold f i acc vs) (fold g i acc vs) := by
  induction vs generalizing i acc with
  | nil => exact agrees_pure rfl
  | cons v rest ih => exact (h i acc v).bind_eq fun _ => ih _ _

theorem agrees_after (he : env.Twin mute env') (hrun : run.Twin mute run') (name : String) (p p' : Pos)
    (f a b : Value) : Agrees mute Eq (ofArray?.after env run name p f a b) (ofArray?.after env' run' name p' f a b) := by
  refine Agrees.bind_eq ?_ fun order => ?_
  · refine Agrees.faults (agrees_onArgs he hrun _ _ _ _ _ _) (fun s hs => ?_) (fun s hs => ?_)
      fun _ _ _ _ _ => agrees_pure rfl
    · cases s with
      | fault cause p => exact absurd rfl (hs cause p)
      | _ => rfl
    · cases s with
      | fault cause p => exact absurd rfl (hs cause p)
      | _ => rfl
  · split <;> exact agrees_pure rfl

theorem agrees_keep (he : env.Twin mute env') (hrun : run.Twin mute run') (name : String) (p p' : Pos) (f : Value)
    (es : Dict Value) : Agrees mute Eq (ofMap?.keep env run name p f es) (ofMap?.keep env' run' name p' f es) := by
  induction es with
  | nil => exact agrees_pure rfl
  | cons e rest ih =>
    exact (agrees_onArgs he hrun _ _ _ _ _ _).bind_eq fun r => ih.bind_eq fun others => agrees_pure rfl

/-- Functions that take a function and agree. -/
structure Applied.Alike (mute : Bool) (a a' : Applied) : Prop where
  access : a'.access = a.access
  run : Agrees mute Eq a.run a'.run

theorem tables_ofArray (he : env.Twin mute env') (hrun : run.Twin mute run') (name : String)
    (items rest : List Value) (p p' : Pos) :
    Option.Rel (Applied.Alike mute) (ofArray? env run name items rest p) (ofArray? env' run' name items rest p') := by
  have item (f : Value) (i : Nat) (v : Value) :
      Agrees mute Eq (onItem env run name f v [.int i] p) (onItem env' run' name f v [.int i] p') :=
    agrees_onItem he hrun _ _ _ _ _ _
  have folds (f : Value) (i : Nat) (acc v : Value) :
      Agrees mute Eq (ofArray?.reducing env run name p f i acc v) (ofArray?.reducing env' run' name p' f i acc v) :=
    agrees_onArgs he hrun _ _ _ _ _ _
  have sorts (f v w : Value) := agrees_after he hrun name p p' f v w
  unfold ofArray?
  dsimp only
  split
  case h_16 => exact .none
  case h_1 => exact .some ⟨rfl, (agrees_each (item _) _ _).bind_eq fun _ => agrees_pure rfl⟩
  case h_2 =>
    exact .some ⟨rfl, Agrees.bind_eq ((agrees_each (item _) _ _).bind_eq fun _ => agrees_pure rfl) fun _ => agrees_pure rfl⟩
  case h_3 => exact .some ⟨rfl, (agrees_each (item _) _ _).bind_eq fun _ => agrees_pure rfl⟩
  case h_4 => exact .some ⟨rfl, (agrees_each (item _) _ _).bind_eq fun _ => agrees_pure rfl⟩
  case h_5 => exact .some ⟨rfl, (agrees_each (item _) _ _).bind_eq fun _ => agrees_pure rfl⟩
  case h_11 => exact .some ⟨rfl, (agrees_fold (folds _) _ _ _).bind_eq fun _ => agrees_pure rfl⟩
  case h_12 => exact .some ⟨rfl, (agrees_fold (folds _) _ _ _).bind_eq fun _ => agrees_pure rfl⟩
  case h_13 => exact .some ⟨rfl, (agrees_fold (folds _) _ _ _).bind_eq fun _ => agrees_pure rfl⟩
  case h_14 => exact .some ⟨rfl, (agrees_fold (folds _) _ _ _).bind_eq fun _ => agrees_pure rfl⟩
  case h_15 => exact .some ⟨rfl, (agrees_sortBy (sorts _) _ _).bind_eq fun _ => agrees_pure rfl⟩
  all_goals
    exact .some ⟨rfl, Agrees.bind_eq ((agrees_first (item _) _ _ _).bind_eq fun _ => agrees_pure rfl) fun _ => agrees_pure rfl⟩

theorem tables_ofMap (he : env.Twin mute env') (hrun : run.Twin mute run') (name : String) (entries : Dict Value)
    (rest : List Value) (p p' : Pos) :
    Option.Rel (Applied.Alike mute) (ofMap? env run name entries rest p) (ofMap? env' run' name entries rest p') := by
  unfold ofMap?
  split
  case h_4 => exact .none
  all_goals exact .some ⟨rfl, (agrees_keep he hrun _ _ _ _ _).bind_eq fun _ => agrees_pure rfl⟩

theorem tables_find (he : env.Twin mute env') (hrun : run.Twin mute run') (name : String) (target : Value)
    (rest : List Value) (p p' : Pos) :
    Option.Rel (Applied.Alike mute) (find? env run name target rest p) (find? env' run' name target rest p') := by
  unfold find?
  split
  · exact tables_ofArray he hrun _ _ _ _ _
  · exact tables_ofMap he hrun _ _ _ _ _
  · exact .none

end Callback

/-! ### Functions by name -/

namespace Place

theorem agrees_show (he : env.Twin mute env') (name : String) (target : Value) :
    Exec.Agrees mute Eq (show_ name target env) (show_ name target env') := by
  refine .get_bind fun m m' hm => ?_
  rw [he.backend, hm.text]
  exact Exec.Agrees.bind_eq (Exec.agrees_trace fun _ => rfl) fun _ => Exec.agrees_pure rfl

theorem agrees_checkSize (he : env.Twin mute env') (v : Value) (p p' : Pos) :
    Agrees mute Eq (lift (Exec.checkSize env v p)) (lift (Exec.checkSize env' v p')) :=
  Agrees.lift (Exec.agrees_checkSize he v p p')

variable (mute) in
/-- A function that changes its target is refused one that is constant. -/
theorem agrees_refusal (name : String) (changes constant : Bool) (p p' : Pos) : Agrees mute Eq
    (if changes && constant then fault (.constantTarget name) p else pure () : Place Unit)
    (if changes && constant then fault (.constantTarget name) p' else pure ()) :=
  .ite (agrees_fault rfl _ _) (agrees_pure rfl)

/-- What a function returns is measured, and so is its target in its place. -/
theorem agrees_measure (he : env.Twin mute env') (v : Value) (method inPlace : Bool) (p p' : Pos) : Agrees mute Eq
    (do
      lift (Exec.checkSize env v p)
      if inPlace then lift (Exec.checkSize env (← get) p)
      return (v, method))
    (do
      lift (Exec.checkSize env' v p')
      if inPlace then lift (Exec.checkSize env' (← get) p')
      return (v, method)) := by
  refine (agrees_checkSize he v p p').bind fun _ _ _ => ?_
  dsimp only
  split
  · exact .get_bind fun v => (agrees_checkSize he v p p').bind fun _ _ _ => agrees_pure rfl
  · exact agrees_pure rfl

theorem agrees_native (he : env.Twin mute env') (hrun : run.Twin mute run') (name : String) (rest : List Value)
    (constant inPlace : Bool) (p p' : Pos) :
    Agrees mute Eq (native env run name rest constant inPlace p) (native env' run' name rest constant inPlace p') := by
  refine .get_bind fun target => .machine_bind fun m m' hm => ?_
  have guarded (changes : Bool) := agrees_refusal mute name changes constant p p'
  have finished (v : Value) (method : Bool) := agrees_measure he v method inPlace p p'
  have hosted {changes : Bool} {x y : Exec Value} (h : Exec.Agrees mute Eq x y) :=
    (guarded changes).bind fun _ _ _ => Agrees.bind_eq (Agrees.lift (h.at_ p p')) fun v => finished v changes
  have builtin (b : Script.Builtin) := (guarded (b.access == .changes)).bind fun _ _ _ =>
    (Agrees.lift (Exec.agrees_ofExcept b.outcome p p')).bind_eq fun r =>
      Agrees.guard (c := (b.access != .takes) = true) (f := fun _ => _) (g := fun _ => _) (agrees_set r.2)
        (finished r.1 (b.access != .takes))
  have hfind := Callback.tables_find he hrun name target rest p p'
  have hhosted := HostCall.tables_hosted he m.drafts name (target :: rest)
  have htool := HostCall.tables_tool he name (target :: rest)
  rw [hm.drafts, hm.text, he.backend]
  dsimp only
  -- whether a function is found decides where the call goes, on both sides alike
  generalize Callback.find? env run name target rest p = found at hfind ⊢
  generalize Callback.find? env' run' name target rest p' = found' at hfind ⊢
  generalize HostCall.hosted? env m.drafts name (target :: rest) = host at hhosted ⊢
  generalize HostCall.hosted? env' m.drafts name (target :: rest) = host' at hhosted ⊢
  generalize HostCall.tool? env name (target :: rest) = tool at htool ⊢
  generalize HostCall.tool? env' name (target :: rest) = tool' at htool ⊢
  cases hfind with
  | @some a a' ha =>
    simp only [ha.access]
    refine (guarded _).bind fun _ _ _ => (Agrees.lift ha.run).bind_eq fun r => ?_
    exact (agrees_set _).bind fun _ _ _ => finished _ _
  | none =>
    cases hhosted with
    | some h =>
      simp only [h.inPlace]
      exact hosted h.run
    | none =>
      dsimp only
      split
      · exact builtin _
      · cases htool with
        | some h =>
          simp only [h.inPlace]
          exact hosted h.run
        | none =>
          dsimp only
          split
          · exact (Agrees.lift (agrees_show he _ _)).bind_eq fun _ => agrees_pure rfl
          · split
            · exact builtin _
            · exact Agrees.lift (Exec.agrees_noFunction _ _ _ _)

end Place

namespace Exec

theorem agrees_nativeNone (he : env.Twin mute env') (name : String) (p p' : Pos) :
    Agrees mute Eq (nativeNone env name p) (nativeNone env' name p') := by
  have h := rel_or (HostCall.tables_hosted he #[] name []) (HostCall.tables_tool he name [])
  unfold nativeNone
  generalize (HostCall.hosted? env #[] name []).or (HostCall.tool? env name []) = found at h ⊢
  generalize (HostCall.hosted? env' #[] name []).or (HostCall.tool? env' name []) = found' at h ⊢
  cases h with
  | some h => exact (h.run.at_ p p').bind_eq fun v => agrees_sized he v p p'
  | none =>
    dsimp only
    split
    · exact Agrees.bind_eq (agrees_trace fun _ => rfl) fun _ => agrees_pure rfl
    · exact agrees_noFunction _ _ _ _

theorem agrees_callByName (he : env.Twin mute env') (hrun : run.Twin mute run') (name : String)
    (args : List Value) (this : Option Nat) (p p' : Pos) :
    Agrees mute Eq (callByName env run name args this p) (callByName env' run' name args this p') := by
  have h := scriptFunction_woven he name args.length
  unfold callByName
  generalize scriptFunction? env name args.length = f at h ⊢
  generalize scriptFunction? env' name args.length = f' at h ⊢
  cases h with
  | some h => exact agrees_invoke he hrun h _ _ _ _ _
  | none =>
    dsimp only
    split
    · split
      · exact ((Place.agrees_native he hrun _ _ _ _ p p').onCell _).bind_eq fun _ => agrees_pure rfl
      · exact agrees_nativeNone he _ _ _
    · exact ((Place.agrees_native he hrun _ _ _ _ p p').onValue _).bind_eq fun _ => agrees_pure rfl

theorem agrees_callFn (he : env.Twin mute env') (hrun : run.Twin mute run') (callee : Callee) (args : List Value)
    (this : Option Nat) (p p' : Pos) :
    Agrees mute Eq (callFn env run callee args this p) (callFn env' run' callee args this p') := by
  unfold callFn
  split
  · exact agrees_callByName he hrun _ _ _ _ _
  · next index captured =>
    have h := function_woven he index
    generalize env.functions[index]? = f at h ⊢
    generalize env'.functions[index]? = f' at h ⊢
    cases h with
    | none => exact agrees_noFunction _ _ _ _
    | @some f f' h =>
      have hw : Script.Function.Woven mute { f with params := captured ++ f.params }
          { f' with params := captured ++ f.params } := ⟨h.name, rfl, h.body⟩
      dsimp only
      rw [h.params]
      exact .ite (agrees_invoke he hrun hw _ _ _ _ _) (agrees_noFunction _ _ _ _)

end Exec

namespace Place

theorem agrees_callBound (hrun : run.Twin mute run') (target : Value) (callee : Callee) (args : List Value)
    (p p' : Pos) : Agrees mute Eq (callBound run target callee args p) (callBound run' target callee args p') := by
  refine (Agrees.lift (Exec.agrees_newCell target)).bind_eq fun id => ?_
  refine Agrees.bind_eq ?_ fun v => Agrees.bind_eq ?_ fun _ => agrees_pure rfl
  · exact (Agrees.lift (hrun.apply _ _ _ p p')).tidy (fun _ _ => rfl) (fun _ _ => rfl) fun m m' hm => hm.contents _
  · refine .machine_bind fun m m' hm => ?_
    rw [hm.contents]
    exact agrees_set _

theorem agrees_callMethod (he : env.Twin mute env') (hrun : run.Twin mute run') (name : String)
    (args : List Value) (q q' : Pos) (constant inPlace : Bool) (p p' : Pos) :
    Agrees mute Eq (callMethod env run name args q constant inPlace p)
      (callMethod env' run' name args q' constant inPlace p') := by
  refine .get_bind fun target => ?_
  have bound (callee : Callee) (args : List Value) := agrees_callBound hrun target callee args p p'
  have found := Exec.scriptFunction_woven he name args.length
  dsimp only
  refine .ite ?_ (.ite ?_ (.ite (agrees_pure rfl) ?_))
  · split
    · exact (Agrees.lift (hrun.apply _ _ _ p p')).bind_eq fun _ => agrees_pure rfl
    · exact bound _ _
    · exact agrees_fault rfl _ _
    · exact agrees_fault rfl _ _
  · split
    · exact agrees_pure rfl
    · exact agrees_fault rfl _ _
  · generalize Exec.scriptFunction? env name args.length = f at found ⊢
    generalize Exec.scriptFunction? env' name args.length = f' at found ⊢
    split
    · exact bound _ _
    · cases found with
      | some => exact bound _ _
      | none => exact agrees_native he hrun _ _ _ _ _ _

end Place

end Parts

end ScriptAgent
