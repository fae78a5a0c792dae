import ScriptAgent.Proofs.Sandbox.HostConduct
import ScriptAgent.Proofs.Sandbox.Parts

/-!
# Evaluation acts by deeds

Whatever a script does on its way, it does to the outside by the functions of the host.  The parts
of a task are taken to obey; then each construct of the language obeys, and so does one step.  The
evaluator follows by induction on its fuel.
-/

namespace ScriptAgent

open Script (Value Fault Pos Callee Expr Stmt Case Pattern)
open Stateful (bind_apply tryCatch_apply get_apply)

/-! ### Texts -/

/-- A binary operator looks only at the texts of its operands. -/
theorem Script.Operator.binary_congr {t t' : Value → String} {a b : Value} (ha : t a = t' a) (hb : t b = t' b)
    (op : String) : binary t op a b = binary t' op a b := by
  unfold binary
  split
  case h_14 => rw [hb]
  case h_15 => rw [ha]
  all_goals rfl

theorem Script.Operator.assigned_congr {t t' : Value → String} {a b : Value} (ha : t a = t' a) (hb : t b = t' b)
    (op : String) : assigned t op a b = assigned t' op a b := by
  unfold assigned
  rw [binary_congr ha hb]

/-- The functions for values of every type look only at the text of the value that they are applied to. -/
theorem Script.Library.anyType_congr {t t' : Value → String} {target : Value} (h : t target = t' target)
    (name : String) (rest : List Value) : anyType? t name target rest = anyType? t' name target rest := by
  unfold anyType?
  rw [h]

/-- What a handler is given for a fault never ends the script as only the host does. -/
def Env.Describes (env : Env) : Prop :=
  ∀ cause pos s, env.describe cause pos = .error s → imposed s.halt? = false

section Parts

variable {env : Env} {z : SizeLimits} {run run' : Runner}

/-! ### Functions -/

namespace Exec

variable {α β : Type}

theorem obeys_mapM {f g : α → Exec β} (hf : ∀ a, Obeys env (f a) (g a)) (as : List α) :
    Obeys env (as.mapM f) (as.mapM g) := by
  induction as with
  | nil => exact obeys_pure _
  | cons a as ih =>
    rw [List.mapM_cons, List.mapM_cons]
    exact (hf a).bind fun _ => ih.bind fun _ => obeys_pure _

theorem obeys_runAll (hrun : ∀ t, Obeys env (run t) (run' t)) (body : List Stmt) :
    Obeys env (runAll run body) (runAll run' body) := by
  induction body with
  | nil => exact obeys_pure _
  | cons s rest ih =>
    cases rest with
    | nil => exact hrun _
    | cons s' rest => exact (hrun _).bind fun _ => ih

/-- Handlers that throw again the stops that they do not know. -/
theorem Obeys.faults {x y : Exec α} {h h' : Stop → Exec α} (hx : Obeys env x y)
    (hf : ∀ cause pos, Obeys env (h (.fault cause pos)) (h' (.fault cause pos)))
    (ht : ∀ s, (∀ cause pos, s ≠ .fault cause pos) → h s = throw s)
    (ht' : ∀ s, (∀ cause pos, s ≠ .fault cause pos) → h' s = throw s) : Obeys env (tryCatch x h) (tryCatch y h') := by
  have foreign {s : Stop} (hs : s.isForeign = true) (cause : Fault) (pos : Pos) : s ≠ .fault cause pos := by
    rintro rfl
    cases hs
  refine hx.catching (passOn_throw (fun s hs => ht s (foreign hs)) fun s hs => ht' s (foreign hs)) fun s hs => ?_
  cases s with
  | fault cause pos => exact hf cause pos
  | _ =>
    rw [ht _ (by simp), ht' _ (by simp)]
    exact obeys_throw _ (imposed_of_unforeign hs)

theorem obeys_leaveFunction (name : String) (closure : Bool) (pos : Pos) (s : Stop) (hs : s.isForeign = false) :
    Obeys env (leaveFunction name closure pos s) (leaveFunction name closure pos s) := by
  cases s with
  | returned v => exact obeys_pure v
  | fault cause p => exact obeys_fault _ _
  | _ => exact obeys_throw _ (imposed_of_unforeign hs)

theorem obeys_invoke (hrun : ∀ t, Obeys env (run t) (run' t)) (f : Script.Function) (name : String) (args : List Value)
    (this : Option Nat) (pos : Pos) :
        Obeys env (invoke env run f name args this pos) (invoke (env.isolated z) run' f name args this pos) := by
  unfold invoke
  split
  · exact obeys_pure _
  · refine (obeys_tick pos).bind fun _ m hm => .get_bind (.unless rfl rfl rfl hm (.set_bind hm rfl ?_))
    dsimp only
    refine Obeys.bind ?_ (fun v => ?_) _ hm
    case refine_2 => exact Obeys.bind (obeys_modify fun _ => rfl) fun _ => obeys_pure v
    refine (obeys_runAll hrun f.body).catching (fun s n hs => ?_) fun s hs => ?_
    · cases s with
      | halted why p => exact ⟨.halted why pos, _, rfl, rfl, rfl, rfl, by cases why <;> rfl⟩
      | tooLarge what p => exact ⟨.tooLarge what pos, _, rfl, rfl, rfl, rfl, rfl⟩
      | tooDeep p => exact ⟨.tooDeep pos, _, rfl, rfl, rfl, rfl, rfl⟩
      | _ => cases hs
    · exact Obeys.bind (obeys_modify fun _ => rfl) fun _ => obeys_leaveFunction _ _ _ _ hs

theorem arity_isolated (callee : Callee) (given : Nat) (candidates : List Nat) :
    arity? (env.isolated z) callee given candidates = arity? env callee given candidates := rfl

theorem obeys_onItem (hrun : ∀ t, Obeys env (run t) (run' t)) (caller : String) (f item : Value) (extras : List Value)
    (pos : Pos) :
        Obeys env (onItem env run caller f item extras pos)
          (onItem (env.isolated z) run' caller f item extras pos) := by
  unfold onItem
  split
  · refine Obeys.faults ?_ (fun _ _ => obeys_fault _ _) (fun s hs => ?_) fun s hs => ?_
    · rw [arity_isolated]
      split
      · refine (obeys_newCell _).bind fun id => (hrun _).bind fun v => .get_bind fun m => obeys_pure _
      · exact (hrun _).bind fun _ => obeys_pure _
      · exact (hrun _).bind fun _ => obeys_pure _
      · exact (hrun _).bind fun _ => obeys_pure _
    all_goals
      cases s with
      | fault cause p => exact absurd rfl (hs cause p)
      | _ => rfl
  · exact obeys_fault _ _

theorem obeys_onArgs (hrun : ∀ t, Obeys env (run t) (run' t)) (caller : String) (f : Value) (args extras : List Value)
    (pos : Pos) :
        Obeys env (onArgs env run caller f args extras pos)
          (onArgs (env.isolated z) run' caller f args extras pos) := by
  unfold onArgs
  split
  · simp only [arity_isolated]
    refine Obeys.faults (hrun _) (fun _ _ => obeys_fault _ _) (fun s hs => ?_) fun s hs => ?_
    all_goals
      cases s with
      | fault cause p => exact absurd rfl (hs cause p)
      | _ => rfl
  · exact obeys_fault _ _

end Exec

namespace Callback

open Exec

theorem obeys_each {f g : Nat → Value → Exec (Value × Value)} (hf : ∀ i v, Obeys env (f i v) (g i v)) (i : Nat)
    (vs : List Value) : Obeys env (each f i vs) (each g i vs) := by
  induction vs generalizing i with
  | nil => exact obeys_pure _
  | cons v rest ih => exact (hf i v).bind fun _ => (ih _).bind fun _ => obeys_pure _

theorem obeys_first {f g : Nat → Value → Exec (Value × Value)} (hf : ∀ i v, Obeys env (f i v) (g i v))
    (accept : Value → Bool) (i : Nat) (vs : List Value) : Obeys env (first f accept i vs) (first g accept i vs) := by
  induction vs generalizing i with
  | nil => exact obeys_pure _
  | cons v rest ih =>
    refine (hf i v).bind fun r => ?_
    dsimp only
    split
    · exact obeys_pure _
    · exact ih _

theorem obeys_insertBy {f g : Value → Value → Exec Bool} (hf : ∀ v w, Obeys env (f v w) (g v w)) (v : Value)
    (vs : List Value) : Obeys env (insertBy f v vs) (insertBy g v vs) := by
  induction vs with
  | nil => exact obeys_pure _
  | cons w rest ih =>
    refine (hf w v).bind fun b => ?_
    split
    · exact obeys_pure _
    · exact ih.bind fun _ => obeys_pure _

theorem obeys_sortBy {f g : Value → Value → Exec Bool} (hf : ∀ v w, Obeys env (f v w) (g v w))
    (done vs : List Value) : Obeys env (sortBy f done vs) (sortBy g done vs) := by
  induction vs generalizing done with
  | nil => exact obeys_pure _
  | cons v rest ih => exact (obeys_insertBy hf v done).bind fun _ => ih _

theorem obeys_fold {f g : Nat → Value → Value → Exec Value} (hf : ∀ i a v, Obeys env (f i a v) (g i a v)) (i : Nat)
    (acc : Value) (vs : List Value) : Obeys env (fold f i acc vs) (fold g i acc vs) := by
  induction vs generalizing i acc with
  | nil => exact obeys_pure _
  | cons v rest ih => exact (hf i acc v).bind fun _ => ih _ _

theorem obeys_after (hrun : ∀ t, Obeys env (run t) (run' t)) (name : String) (pos : Pos) (f a b : Value) :
    Obeys env (ofArray?.after env run name pos f a b) (ofArray?.after (env.isolated z) run' name pos f a b) := by
  refine Obeys.bind ?_ fun order => ?_
  · refine Obeys.faults (obeys_onArgs hrun _ _ _ _ _) (fun _ _ => obeys_pure _) (fun s hs => ?_) fun s hs => ?_
    all_goals
      cases s with
      | fault cause p => exact absurd rfl (hs cause p)
      | _ => rfl
  · split <;> exact obeys_pure _

theorem obeys_keep (hrun : ∀ t, Obeys env (run t) (run' t)) (name : String) (pos : Pos) (f : Value) (es : Dict Value) :
    Obeys env (ofMap?.keep env run name pos f es) (ofMap?.keep (env.isolated z) run' name pos f es) := by
  induction es with
  | nil => exact obeys_pure _
  | cons e rest ih =>
    refine (obeys_onArgs hrun _ _ _ _ _).bind fun r => ih.bind fun others => ?_
    split <;> exact obeys_pure _

/-- A function that takes a function obeys, and so does the one beside it. -/
structure Applied.Obeys (env : Env) (a a' : Applied) : Prop where
  access : a'.access = a.access
  run : Exec.Obeys env a.run a'.run

/-- Both tables have a function, or neither has. -/
abbrev Obey (env : Env) : Option Applied → Option Applied → Prop :=
  Option.Rel (Applied.Obeys env)

theorem obey_ofArray (hrun : ∀ t, Exec.Obeys env (run t)
  (run' t)) (name : String) (items rest : List Value) (pos : Pos) :
    Obey env (ofArray? env run name items rest pos) (ofArray? (env.isolated z) run' name items rest pos) := by
  have item (f : Value) (i : Nat) (v : Value) : Exec.Obeys env (onItem env run name f v [.int i] pos)
      (onItem (env.isolated z) run' name f v [.int i] pos) := obeys_onItem hrun _ _ _ _ _
  have folds (f : Value) (i : Nat) (acc v : Value) : Exec.Obeys env (ofArray?.reducing env run name pos f i acc v)
      (ofArray?.reducing (env.isolated z) run' name pos f i acc v) := obeys_onArgs hrun _ _ _ _ _
  have sorts (f v w : Value) : Exec.Obeys env (ofArray?.after env run name pos f v w)
      (ofArray?.after (env.isolated z) run' name pos f v w) := obeys_after hrun _ _ _ _ _
  unfold ofArray?
  dsimp only
  split
  case h_16 => exact .none
  case h_1 => exact .some ⟨rfl, (obeys_each (item _) _ _).bind fun _ => obeys_pure _⟩
  case h_2 => exact .some ⟨rfl, ((obeys_each (item _) _ _).bind fun _ => obeys_pure _).bind fun _ => obeys_pure _⟩
  case h_3 => exact .some ⟨rfl, (obeys_each (item _) _ _).bind fun _ => obeys_pure _⟩
  case h_4 => exact .some ⟨rfl, (obeys_each (item _) _ _).bind fun _ => obeys_pure _⟩
  case h_5 => exact .some ⟨rfl, (obeys_each (item _) _ _).bind fun _ => obeys_pure _⟩
  case h_11 => exact .some ⟨rfl, (obeys_fold (folds _) _ _ _).bind fun _ => obeys_pure _⟩
  case h_12 => exact .some ⟨rfl, (obeys_fold (folds _) _ _ _).bind fun _ => obeys_pure _⟩
  case h_13 => exact .some ⟨rfl, (obeys_fold (folds _) _ _ _).bind fun _ => obeys_pure _⟩
  case h_14 => exact .some ⟨rfl, (obeys_fold (folds _) _ _ _).bind fun _ => obeys_pure _⟩
  case h_15 => exact .some ⟨rfl, (obeys_sortBy (sorts _) _ _).bind fun _ => obeys_pure _⟩
  all_goals
    exact .some ⟨rfl, ((obeys_first (item _) _ _ _).bind fun _ => obeys_pure _).bind fun _ => obeys_pure _⟩

theorem obey_ofMap (hrun : ∀ t, Exec.Obeys env (run t) (run' t)) (name : String) (entries : Dict Value)
    (rest : List Value) (pos : Pos) :
    Obey env (ofMap? env run name entries rest pos) (ofMap? (env.isolated z) run' name entries rest pos) := by
  unfold ofMap?
  split
  case h_4 => exact .none
  all_goals exact .some ⟨rfl, (obeys_keep hrun _ _ _ _).bind fun _ => obeys_pure _⟩

theorem obey_find (hrun : ∀ t, Exec.Obeys env (run t) (run' t)) (name : String) (target : Value) (rest : List Value)
    (pos : Pos) : Obey env (find? env run name target rest pos) (find? (env.isolated z) run' name target rest pos) := by
  unfold find?
  split
  · exact obey_ofArray hrun _ _ _ _
  · exact obey_ofMap hrun _ _ _ _
  · exact .none

end Callback

namespace Place

theorem obeys_show (name : String) (target : Value) :
    (show_ name target env).Obeys env (show_ name target (env.isolated z)) := by
  intro m hm
  refine .get_bind ?_
  have shows (text : String) : Exec.Obeys env (do Exec.trace (.log · text []); return Value.unit : Exec Value) _ :=
    (Exec.obeys_note fun _ => rfl).bind fun _ => Exec.obeys_pure _
  refine Accord.texts (shows _ m hm) [target] fun same => ?_
  rw [Env.isolated_backend, same target (.head _)]

theorem obeys_checkSize (v : Value) (pos : Pos) :
    Obeys env (lift (Exec.checkSize env v pos)) (lift (Exec.checkSize (env.isolated z) v pos)) :=
  Obeys.lift (Exec.obeys_checkSize v pos)

variable (env) in
/-- A function that changes its target is refused one that is constant. -/
theorem obeys_refusal (name : String) (changes constant : Bool) (pos : Pos) :
    Obeys env (if changes && constant then fault (.constantTarget name) pos else pure () : Place Unit)
      (if changes && constant then fault (.constantTarget name) pos else pure ()) := by
  split
  · exact obeys_fault _ _
  · exact obeys_pure _

variable (env) (z) in
/-- What a function returns is measured, and so is its target in its place. -/
theorem obeys_measure (v : Value) (method inPlace : Bool) (pos : Pos) : Obeys env
    (do
      lift (Exec.checkSize env v pos)
      if inPlace then lift (Exec.checkSize env (← get) pos)
      return (v, method))
    (do
      lift (Exec.checkSize (env.isolated z) v pos)
      if inPlace then lift (Exec.checkSize (env.isolated z) (← get) pos)
      return (v, method)) := by
  refine (obeys_checkSize v pos).bind fun _ => ?_
  dsimp only
  split
  · exact .get_bind fun v => (obeys_checkSize v pos).bind fun _ => obeys_pure _
  · exact obeys_pure _

theorem obeys_native (hrun : ∀ t, (run t).Obeys env (run' t)) (name : String) (rest : List Value)
    (constant inPlace : Bool) (pos : Pos) : Obeys env (native env run name rest constant inPlace pos)
      (native (env.isolated z) run' name rest constant inPlace pos) := by
  refine .get_bind fun target => .machine_bind fun v m hm => ?_
  have guarded (changes : Bool) := obeys_refusal env name changes constant pos
  have finished (v : Value) (method : Bool) := obeys_measure env z v method inPlace pos
  have hosted {changes : Bool} {x y : Exec Value} (h : x.Obeys env y) :=
    (guarded changes).bind fun _ => Obeys.bind (Obeys.lift (h.at_ pos)) fun v => finished v changes
  have builtin (b : Script.Builtin) := (guarded (b.access == .changes)).bind fun _ =>
    (Obeys.lift (Exec.obeys_ofExcept b.outcome pos)).bind fun r =>
      Obeys.guard (c := (b.access != .takes) = true) (f := fun _ => _) (g := fun _ => _) (obeys_set r.2)
        (finished r.1 (b.access != .takes))
  have hfind : Callback.Obey env (Callback.find? env run name target rest pos)
      (Callback.find? (env.isolated z) run' name target rest pos) := Callback.obey_find hrun name target rest pos
  have hhosted : HostCall.Obey env (HostCall.hosted? env m.drafts name (target :: rest))
      (HostCall.hosted? (env.isolated z) m.drafts name (target :: rest)) := HostCall.obey_hosted _ _ _
  have htool : HostCall.Obey env (HostCall.tool? env name (target :: rest))
      (HostCall.tool? (env.isolated z) name (target :: rest)) := HostCall.obey_tool _ _
  dsimp only
  generalize Callback.find? env run name target rest pos = found at hfind ⊢
  generalize Callback.find? (env.isolated z) run' name target rest pos = found' at hfind ⊢
  generalize HostCall.hosted? env m.drafts name (target :: rest) = host at hhosted ⊢
  generalize HostCall.hosted? (env.isolated z) m.drafts name (target :: rest) = host' at hhosted ⊢
  generalize HostCall.tool? env name (target :: rest) = tool at htool ⊢
  generalize HostCall.tool? (env.isolated z) name (target :: rest) = tool' at htool ⊢
  cases hfind with
  | @some a a' ha =>
    simp only [ha.access]
    refine Obeys.bind (guarded _) (fun _ => (Obeys.lift ha.run).bind fun r => ?_) v m hm
    exact (obeys_set _).bind fun _ => finished _ _
  | none =>
    cases hhosted with
    | some h =>
      simp only [h.inPlace]
      exact hosted h.run v m hm
    | none =>
      dsimp only
      cases Script.Library.find? name target rest with
      | some b => exact builtin b v m hm
      | none =>
        cases htool with
        | some h =>
          simp only [h.inPlace]
          exact hosted h.run v m hm
        | none =>
          dsimp only
          by_cases hshow : ((name == "print" || name == "debug") && rest.isEmpty) = true
          · rw [if_pos hshow, if_pos hshow]
            exact Obeys.bind (Obeys.lift (obeys_show _ _)) (fun _ => obeys_pure _) v m hm
          · rw [if_neg hshow, if_neg hshow]
            refine Accord.texts (q := ?_) ?_ [target] fun same => ?_
            rotate_left 2
            -- a function for all types may read the text of its target, which is the same for both backends
            · rw [Env.isolated_backend, Script.Library.anyType_congr (same target (.head _))]
            cases Script.Library.anyType? (m.text env.backend) name target rest with
            | some b => exact builtin b v m hm
            | none => exact Obeys.lift (Exec.obeys_fault _ _) v m hm

end Place

namespace Exec

theorem obeys_nativeNone (name : String) (pos : Pos) :
    Obeys env (nativeNone env name pos) (nativeNone (env.isolated z) name pos) := by
  have h : HostCall.Obey env ((HostCall.hosted? env #[] name []).or (HostCall.tool? env name []))
      ((HostCall.hosted? (env.isolated z) #[] name []).or (HostCall.tool? (env.isolated z) name [])) :=
    rel_or (HostCall.obey_hosted _ _ _) (HostCall.obey_tool _ _)
  unfold nativeNone
  generalize (HostCall.hosted? env #[] name []).or (HostCall.tool? env name []) = found at h ⊢
  generalize (HostCall.hosted? (env.isolated z) #[] name []).or
    (HostCall.tool? (env.isolated z) name []) = found' at h ⊢
  cases h with
  | some h => exact (h.run.at_ pos).bind fun v => obeys_sized v pos
  | none =>
    dsimp only
    split
    · exact Obeys.bind (obeys_note fun _ => rfl) fun _ => obeys_pure _
    · exact obeys_fault _ _

theorem scriptFunction_isolated (name : String) (arity : Nat) :
    scriptFunction? (env.isolated z) name arity = scriptFunction? env name arity := rfl

theorem obeys_callByName (hrun : ∀ t, Obeys env (run t) (run' t)) (name : String) (args : List Value)
    (this : Option Nat) (pos : Pos) :
    Obeys env (callByName env run name args this pos) (callByName (env.isolated z) run' name args this pos) := by
  unfold callByName
  rw [scriptFunction_isolated]
  split
  · exact obeys_invoke hrun _ _ _ _ _
  · split
    · split
      · exact ((Place.obeys_native hrun _ _ _ _ _).onCell _).bind fun _ => obeys_pure _
      · exact obeys_nativeNone _ _
    · exact ((Place.obeys_native hrun _ _ _ _ _).onValue _).bind fun _ => obeys_pure _

theorem obeys_callFn (hrun : ∀ t, Obeys env (run t) (run' t)) (callee : Callee) (args : List Value)
    (this : Option Nat) (pos : Pos) :
    Obeys env (callFn env run callee args this pos) (callFn (env.isolated z) run' callee args this pos) := by
  have functions : (env.isolated z).functions = env.functions := rfl
  unfold callFn
  rw [functions]
  split
  · exact obeys_callByName hrun _ _ _ _
  · split
    · dsimp only
      split
      · exact obeys_invoke hrun _ _ _ _ _
      · exact obeys_fault _ _
    · exact obeys_fault _ _

end Exec

namespace Place

theorem obeys_callBound (hrun : ∀ t, (run t).Obeys env (run' t)) (target : Value) (callee : Callee) (args : List Value)
    (pos : Pos) : Obeys env (callBound run target callee args pos) (callBound run' target callee args pos) := by
  refine (Obeys.lift (Exec.obeys_newCell target)).bind fun id => ?_
  have back : Obeys env (readBack id) (readBack id) := .machine_bind fun v m => obeys_set _ v m
  refine Obeys.bind ?_ fun v => back.bind fun _ => obeys_pure _
  exact (Obeys.lift (hrun _)).tidy fun v m => ⟨_, rfl⟩

theorem obeys_callMethod (hrun : ∀ t, (run t).Obeys env (run' t)) (name : String) (args : List Value) (argPos : Pos)
    (constant inPlace : Bool) (pos : Pos) :
    Obeys env (callMethod env run name args argPos constant inPlace pos)
      (callMethod (env.isolated z) run' name args argPos constant inPlace pos) := by
  refine .get_bind fun target => ?_
  have bound (callee : Callee) (args : List Value) :
      Obeys env (callBound run target callee args pos) (callBound run' target callee args pos) :=
    obeys_callBound hrun target callee args pos
  dsimp only
  split
  · split
    · exact (Obeys.lift (hrun _)).bind fun _ => obeys_pure _
    · exact bound _ _
    · exact obeys_fault _ _
    · exact obeys_fault _ _
  · split
    · split
      · exact obeys_pure _
      · exact obeys_fault _ _
    · split
      · exact obeys_pure _
      · split
        · exact bound _ _
        · rw [Exec.scriptFunction_isolated]
          split
          · exact bound _ _
          · exact obeys_native hrun _ _ _ _ _

end Place

/-! ### Chains -/

theorem Move.obeys_ofLink (hrun : ∀ t, (run t).Obeys env (run' t)) (l : Script.Link) :
    (ofLink run l).Obeys env (ofLink run' l) := by
  cases l with
  | property => exact Exec.obeys_pure _
  | method name args pos opPos safe =>
    exact (Exec.obeys_mapM (fun _ => hrun _) args).bind fun _ => Exec.obeys_pure _
  | index key opPos safe => exact (hrun _).bind fun _ => Exec.obeys_pure _

namespace Place

theorem obeys_assign (constant : Bool) (w : Write) :
    Obeys env (assign env constant w) (assign (env.isolated z) constant w) := by
  refine Obeys.guard (f := fun _ => _) (g := fun _ => _) (obeys_fault _ _) ?_
  split
  · exact obeys_set _
  · refine .machine_bind fun v m hm => accord_get (Accord.texts (q := ?_) ?_ [v, w.value] fun same => ?_)
    rotate_left 2
    · rw [Env.isolated_backend, Script.Operator.assigned_congr (same v (.head _)) (same w.value (.tail _ (.head _)))]
    refine Obeys.bind (Obeys.lift (Exec.obeys_ofExcept _ _)) (fun new => ?_) v m hm
    split
    · exact (obeys_checkSize _ _).bind fun _ => obeys_set _
    · exact (obeys_set _).bind fun _ => obeys_checkSize _ _

theorem obeys_assigned (w : Write) (old : Value) : Obeys env (assigned env w old) (assigned (env.isolated z) w old) :=
  (Obeys.lift ((obeys_assign false w).onValue old)).bind fun _ => obeys_pure _

/-- A key without a part is a fault of the script. -/
theorem part_unimposed {target key : Value} {pos opPos : Pos} {s : Stop} (h : part target key pos opPos = .error s) :
    imposed s.halt? = false := by
  unfold part at h
  dsimp only at h
  repeat' split at h
  all_goals cases h <;> rfl

theorem obeys_writeStored (key : Value) (constant : Bool) (w : Write) (pos opPos : Pos) :
    Obeys env (writeStored env key constant w pos opPos) (writeStored (env.isolated z) key constant w pos opPos) := by
  refine .get_bind fun target => Obeys.bind ?_ fun r => ?_
  · split
    · exact obeys_pure _
    · next s hs => exact obeys_throw s (part_unimposed hs)
  · have checked (wanted : String) : Obeys env (do
        assign env constant w
        let new ← get
        if new.typeName != wanted then fault (.mismatch wanted new.typeName) w.pos) (do
        assign (env.isolated z) constant w
        let new ← get
        if new.typeName != wanted then fault (.mismatch wanted new.typeName) w.pos) := by
      refine (obeys_assign constant w).bind fun _ => .get_bind fun new => ?_
      split
      · exact obeys_fault _ _
      · exact obeys_pure _
    dsimp only
    split
    · exact (checked _).inside _ _
    · exact (checked _).inside _ _
    · exact ((obeys_assign constant w).bind fun _ => .get_bind fun new => obeys_checkSize _ _).inside _ _

theorem obeys_writePart (key : Value) (constant : Bool) (w : Write) (pos opPos : Pos) :
    Obeys env (writePart env key constant w pos opPos) (writePart (env.isolated z) key constant w pos opPos) := by
  have written :
      Obeys env (writeStored env key constant w pos opPos)
        (writeStored (env.isolated z) key constant w pos opPos) := obeys_writeStored key constant w pos opPos
  rw [writePart_eq, writePart_eq]
  refine .get_bind fun target => ?_
  dsimp only
  split
  · split
    · exact Obeys.guard (f := fun _ => _) (g := fun _ => _) (obeys_set _) written
    · exact written
  · exact written

theorem obeys_readProperty (name : String) (pos opPos : Pos) :
    Obeys env (readProperty env name pos opPos) (readProperty (env.isolated z) name pos opPos) := by
  refine .get_bind fun target => ?_
  split
  · exact obeys_pure _
  · split
    · exact Obeys.lift ((Exec.obeys_hostedGet _ _).at_ _)
    · exact obeys_fault _ _

theorem obeys_writeProperty (name : String) (w : Write) (pos opPos : Pos) :
    Obeys env (writeProperty env name w pos opPos) (writeProperty (env.isolated z) name w pos opPos) := by
  refine .get_bind fun target => ?_
  have written (new : Value) : Obeys env (
      if isIndexed target then lift (Exec.at_ opPos (Exec.hostedSet env target (.str name) new))
      else
        fault (.noProperty ("No writable property '" ++ name ++ "' - a setter is not registered for type '" ++
          target.typeName ++ "' to handle '" ++ new.typeName ++ "'")) pos) (
      if isIndexed target then lift (Exec.at_ opPos (Exec.hostedSet (env.isolated z) target (.str name) new))
      else
        fault (.noProperty ("No writable property '" ++ name ++ "' - a setter is not registered for type '" ++
          target.typeName ++ "' to handle '" ++ new.typeName ++ "'")) pos) := by
    split
    · exact Obeys.lift ((Exec.obeys_hostedSet _ _ _).at_ _)
    · exact obeys_fault _ _
  dsimp only
  split
  · exact (obeys_pure _).bind written
  · exact (obeys_readProperty name pos opPos).bind fun v => (obeys_assigned w v).bind written

theorem obeys_writeIndexed (key : Value) (w : Write) (opPos : Pos) :
    Obeys env (writeIndexed env key w opPos) (writeIndexed (env.isolated z) key w opPos) := by
  refine .get_bind fun target => ?_
  have written (new : Value) :
      Obeys env (lift (Exec.at_ opPos (Exec.hostedSet env target key new)))
        (lift (Exec.at_ opPos (Exec.hostedSet (env.isolated z) target key new))) :=
    Obeys.lift ((Exec.obeys_hostedSet _ _ _).at_ _)
  dsimp only
  split
  · exact (obeys_pure _).bind written
  · refine Obeys.bind ?_ fun old => ?_
    · refine Obeys.catching ?_ (fun s hs => ?_) (fun s hs => ?_) fun s hs => ?_
      · exact (Obeys.lift (Exec.obeys_hostedGet _ _)).bind fun _ => obeys_pure _
      · cases s with
        | fault => cases hs
        | _ => rfl
      · cases s with
        | fault => cases hs
        | _ => rfl
      · cases s with
        | fault cause p => exact obeys_pure _
        | _ => exact obeys_throw _ (imposed_of_unforeign hs)
    · split
      · exact (obeys_assigned w _).bind written
      · exact (obeys_pure _).bind written

theorem obeys_followPart (key : Value) (pos opPos : Pos) {x y : Place (Value × Bool)} (hx : Obeys env x y) :
    Obeys env (walk.followPart key pos opPos x) (walk.followPart key pos opPos y) := by
  refine .get_bind fun target => ?_
  split
  · exact hx.inside _ _
  · next s hs => exact obeys_throw s (part_unimposed hs)

theorem obeys_hostedGet (target key : Value) (opPos : Pos) :
    Obeys env (lift (Exec.at_ opPos (Exec.hostedGet env target key)))
      (lift (Exec.at_ opPos (Exec.hostedGet (env.isolated z) target key))) :=
  Obeys.lift ((Exec.obeys_hostedGet _ _).at_ _)

theorem obeys_hostedSet (target key v : Value) (opPos : Pos) :
    Obeys env (lift (Exec.at_ opPos (Exec.hostedSet env target key v)))
      (lift (Exec.at_ opPos (Exec.hostedSet (env.isolated z) target key v))) :=
  Obeys.lift ((Exec.obeys_hostedSet _ _ _).at_ _)

theorem obeys_walk (hrun : ∀ t, (run t).Obeys env (run' t)) (moves : List Move) (constant inPlace : Bool)
    (write : Option Write) :
        Obeys env (walk env run moves constant inPlace write)
          (walk (env.isolated z) run' moves constant inPlace write) := by
  induction moves generalizing constant inPlace write with
  | nil => exact .get_bind fun _ => obeys_pure _
  | cons move rest ih =>
    rw [walk, walk]
    refine .get_bind fun target => ?_
    have copied (v : Value) (inPlace : Bool) :
        Obeys env (lift (onValue v (walk env run rest false inPlace write)))
          (lift (onValue v (walk (env.isolated z) run' rest false inPlace write))) :=
      Obeys.lift ((ih false inPlace write).onValue v)
    have found :
        Obeys env (do return (← get, false) : Place (Value × Bool))
          (do return (← get, false) : Place (Value × Bool)) := .get_bind fun _ => obeys_pure _
    split
    · exact obeys_pure _
    · dsimp only
      split
      · refine (obeys_callMethod hrun _ _ _ _ _ _).bind fun r => ?_
        split
        · exact obeys_pure _
        · exact (copied _ _).bind fun _ => obeys_pure _
      · split
        · split
          · split
            · refine (obeys_writePart _ _ _ _ _).bind fun _ => .get_bind fun v => ?_
              exact (obeys_checkSize _ _).bind fun _ => obeys_pure _
            · exact obeys_followPart _ _ _ found
          · exact obeys_followPart _ _ _ (ih _ _ _)
        · split
          · exact (obeys_writeProperty _ _ _ _).bind fun _ => obeys_pure _
          · exact (obeys_readProperty _ _ _).bind fun _ => obeys_pure _
          · refine (obeys_readProperty _ _ _).bind fun v => (copied _ _).bind fun r => ?_
            exact Obeys.guard (f := fun _ => _) (g := fun _ => _) (obeys_hostedSet _ _ _ _) (obeys_pure _)
      · split
        · split
          · exact (obeys_writeIndexed _ _ _).bind fun _ => obeys_pure _
          · exact (obeys_hostedGet _ _ _).bind fun _ => obeys_pure _
          · refine (obeys_hostedGet _ _ _).bind fun v => (copied _ _).bind fun r => ?_
            exact Obeys.guard (f := fun _ => _) (g := fun _ => _) (obeys_hostedSet _ _ _ _) (obeys_pure _)
        · split
          · split
            · exact (obeys_writePart _ _ _ _ _).bind fun _ => obeys_pure _
            · exact obeys_followPart _ _ _ found
          · exact obeys_followPart _ _ _ (ih _ _ _)

end Place

/-! ### Expressions and statements -/

namespace Exec

theorem obeys_condition (hrun : ∀ t, Obeys env (run t) (run' t)) (e : Expr) :
    Obeys env (condition run e) (condition run' e) := by
  refine (hrun _).bind fun v => ?_
  split
  · exact obeys_pure _
  · exact obeys_fault _ _

theorem obeys_arguments (hrun : ∀ t, Obeys env (run t) (run' t)) (es : List Expr) :
    Obeys env (arguments run es) (arguments run' es) := by
  induction es with
  | nil => exact obeys_pure _
  | cons e rest ih => exact (hrun _).bind fun _ => ih.bind fun _ => obeys_pure _

theorem obeys_items (hrun : ∀ t, Obeys env (run t) (run' t)) (done : List Value) (es : List Expr) :
    Obeys env (items env run done es) (items (env.isolated z) run' done es) := by
  induction es generalizing done with
  | nil => exact obeys_pure _
  | cons e rest ih => exact (hrun _).bind fun _ => (obeys_checkSize _ _).bind fun _ => ih _

theorem obeys_entries (hrun : ∀ t, Obeys env (run t) (run' t)) (done : Dict Value) (es : List (String × Expr)) :
    Obeys env (entries env run done es) (entries (env.isolated z) run' done es) := by
  induction es generalizing done with
  | nil => exact obeys_pure _
  | cons e rest ih => exact (hrun _).bind fun _ => (obeys_checkSize _ _).bind fun _ => ih _

theorem obeys_template (hrun : ∀ t, Obeys env (run t) (run' t)) (done : String) (es : List Expr) :
    Obeys env (template env run done es) (template (env.isolated z) run' done es) := by
  induction es generalizing done with
  | nil => exact obeys_pure _
  | cons e rest ih =>
    refine (hrun _).bind fun v m hm => .get_bind (Accord.texts (q := ?_) ?_ [v] fun same => ?_)
    rotate_left 2
    · rw [Env.isolated_backend, same v (.head _)]
    exact Obeys.bind (obeys_checkSize _ _) (fun _ => ih _) m hm

theorem obeys_applyNamed (hrun : ∀ t, Obeys env (run t) (run' t)) (name : String) (args : List Expr) (pos : Pos) :
    Obeys env (applyNamed env run name args pos) (applyNamed (env.isolated z) run' name args pos) := by
  unfold applyNamed
  split
  · refine (obeys_arguments hrun _).bind fun values => .get_bind fun m => ?_
    refine Obeys.ite ?_ ?_
    · exact (Place.Obeys.onVariable (fun _ => Place.obeys_native hrun _ _ _ _ _) _ _).bind fun _ => obeys_pure _
    · exact (obeys_readVariable _ _).bind fun _ => obeys_callByName hrun _ _ _ _
  · exact (obeys_arguments hrun _).bind fun _ => obeys_callByName hrun _ _ _ _

theorem obeys_functionNamed (v : Value) (pos : Pos) : Obeys env (functionNamed v pos) (functionNamed v pos) := by
  unfold functionNamed
  split
  · split
    · exact obeys_pure _
    · exact obeys_fault _ _
  · exact obeys_fault _ _

theorem obeys_call (hrun : ∀ t, Obeys env (run t) (run' t)) (name : String) (args : List Expr) (pos : Pos) :
    Obeys env (call env run name args pos) (call (env.isolated z) run' name args pos) := by
  unfold call
  split
  · exact (hrun _).bind fun v => obeys_functionNamed _ _
  · refine (hrun _).bind fun v => ?_
    split
    · exact (obeys_arguments hrun _).bind fun _ => hrun _
    · exact obeys_fault _ _
  · refine (hrun _).bind fun v => ?_
    split
    · exact (obeys_arguments hrun _).bind fun _ => obeys_pure _
    · exact obeys_fault _ _
  · refine (obeys_noteRead _).bind fun _ => .get_bind fun m => ?_
    split
    · exact obeys_pure _
    · exact obeys_pure _
    · exact obeys_fault _ _
  · exact (hrun _).bind fun _ => obeys_pure _
  · refine (hrun _).bind fun v => ?_
    split
    · exact .get_bind fun _ => obeys_pure _
    · exact obeys_fault _ _
  · refine (hrun _).bind fun v => (hrun _).bind fun w => ?_
    split
    · exact obeys_pure _
    · exact obeys_fault _ _
    · exact obeys_fault _ _
  · exact obeys_applyNamed hrun _ _ _

theorem obeys_chain (hrun : ∀ t, Obeys env (run t) (run' t)) (root : Expr) (links : List Script.Link)
    (write : Option (String × Value × Pos)) :
        Obeys env (chain env run root links write) (chain (env.isolated z) run' root links write) := by
  refine (obeys_mapM (Move.obeys_ofLink hrun) links).bind fun moves => ?_
  dsimp only
  split
  · refine (obeys_tick _).bind fun _ => Obeys.bind (Obeys.at_ ?_ _) fun _ => obeys_pure _
    exact Place.Obeys.onVariable (fun _ => Place.obeys_walk hrun _ _ _ _) _ _
  · refine .get_bind fun m => ?_
    split
    · exact (Obeys.at_ ((Place.obeys_walk hrun _ _ _ _).onCell _) _).bind fun _ => obeys_pure _
    · exact obeys_fault _ _
  · refine (hrun _).bind fun v => ?_
    exact (Obeys.at_ ((Place.obeys_walk hrun _ _ _ _).onValue _) _).bind fun _ => obeys_pure _

theorem obeys_expr (hrun : ∀ t, Obeys env (run t) (run' t)) (e : Expr) :
    Obeys env (expr env run e) (expr (env.isolated z) run' e) := by
  unfold expr
  split
  · exact obeys_pure _
  · exact (obeys_template hrun _ _).bind fun _ => obeys_pure _
  · exact (obeys_items hrun _ _).bind fun _ => obeys_pure _
  · exact (obeys_entries hrun _ _).bind fun _ => obeys_pure _
  · exact obeys_readVariable _ _
  · refine .get_bind fun m => ?_
    split
    · exact obeys_pure _
    · exact obeys_fault _ _
  · exact obeys_call hrun _ _ _
  · exact (hrun _).bind fun _ => obeys_ofExcept _ _
  · exact obeys_applyNamed hrun _ _ _
  · exact (obeys_applyNamed hrun _ _ _).bind fun _ => obeys_ofExcept _ _
  · refine (hrun _).bind fun a => (hrun _).bind fun b m hm =>
      .get_bind (Accord.texts (q := ?_) ?_ [a, b] fun same => ?_)
    rotate_left 2
    · rw [Env.isolated_backend, Script.Operator.binary_congr (same a (.head _)) (same b (.tail _ (.head _)))]
    exact Obeys.bind (obeys_ofExcept _ _) (fun v => obeys_sized v _) m hm
  · refine (obeys_condition hrun _).bind fun b => ?_
    exact Obeys.ite ((obeys_condition hrun _).bind fun _ => obeys_pure _) (obeys_pure _)
  · refine (obeys_condition hrun _).bind fun b => ?_
    exact Obeys.ite (obeys_pure _) ((obeys_condition hrun _).bind fun _ => obeys_pure _)
  · exact (hrun _).bind fun v => Obeys.ite (hrun _) (obeys_pure _)
  · exact obeys_chain hrun _ _ _
  · exact (obeys_mapM (fun _ => obeys_share _ _) _).bind fun _ => obeys_pure _
  · exact (hrun _).scoped

/-! Loops -/

/-- A handler that catches what leaves a loop or one of its turns. -/
theorem Obeys.leaving {x y : Exec (Option Value)} (hx : Obeys env x y) :
    Obeys env (tryCatch x fun
      | .broken v => return some v
      | .continued => return none
      | s => throw s) (tryCatch y fun
      | .broken v => return some v
      | .continued => return none
      | s => throw s) := by
  refine hx.catching (passOn_throw (fun s hs => ?_) fun s hs => ?_) fun s hs => ?_
  case refine_3 =>
    cases s with
    | broken v => exact obeys_pure _
    | continued => exact obeys_pure _
    | _ => exact obeys_throw _ (imposed_of_unforeign hs)
  all_goals
    cases s with
    | broken | continued => cases hs
    | _ => rfl

theorem obeys_turn {body body' : Exec Value} (hb : Obeys env body body') : Obeys env (turn body) (turn body') :=
  Obeys.leaving (hb.bind fun _ => obeys_pure _)

theorem repeatTurns_succ (turn : Exec (Option Value)) (n : Nat) :
    repeatTurns turn (n + 1) = (do
      match ← turn with
      | none => repeatTurns turn n
      | some v => return v) := by
  funext m
  rw [repeatTurns, bind_apply]
  dsimp only
  rcases turn m with ⟨_ | _ | _, _⟩ <;> rfl

theorem eachItem_succ (item : Nat → Option Value) (turn : Nat → Value → Exec (Option Value)) (n i : Nat) :
    eachItem item turn (n + 1) i =
      match item i with
      | none => return .unit
      | some v => do
        match ← turn i v with
        | none => eachItem item turn n (i + 1)
        | some v => return v := by
  funext m
  rw [eachItem]
  cases item i with
  | none => rfl
  | some v =>
    dsimp only
    rw [bind_apply]
    rcases turn i v m with ⟨_ | _ | _, _⟩ <;> rfl

theorem obeys_repeatTurns {turn turn' : Exec (Option Value)} (ht : Obeys env turn turn') (n : Nat) :
    Obeys env (repeatTurns turn n) (repeatTurns turn' n) := by
  induction n with
  | zero => exact obeys_throw _ rfl
  | succ n ih =>
    rw [repeatTurns_succ, repeatTurns_succ]
    refine ht.bind fun r => ?_
    split
    · exact ih
    · exact obeys_pure _

theorem obeys_eachItem {item : Nat → Option Value} {turn turn' : Nat → Value → Exec (Option Value)}
    (ht : ∀ i v, Obeys env (turn i v) (turn' i v)) (n i : Nat) :
    Obeys env (eachItem item turn n i) (eachItem item turn' n i) := by
  induction n generalizing i with
  | zero => exact obeys_throw _ rfl
  | succ n ih =>
    rw [eachItem_succ, eachItem_succ]
    split
    · exact obeys_pure _
    · refine (ht _ _).bind fun r => ?_
      split
      · exact ih _
      · exact obeys_pure _

theorem obeys_stepsLeft : Obeys env (stepsLeft env) (stepsLeft (env.isolated z)) := .get_bind fun _ => obeys_pure _

theorem obeys_writeSlot (i : Nat) (v : Value) : Obeys env (writeSlot i v) (writeSlot i v) := by
  intro m hm
  refine .get_bind ?_
  split <;> exact .own hm rfl rfl

theorem obeys_itemsOf (v : Value) (pos : Pos) : Obeys env (itemsOf v pos) (itemsOf v pos) := by
  unfold itemsOf
  split
  · exact obeys_pure _
  · exact obeys_pure _
  · exact obeys_pure _
  · exact obeys_fault _ _

theorem obeys_forLoop (hrun : ∀ t, Obeys env (run t)
  (run' t)) (name : String) (counter : Option String) (subject : Expr)
    (body : List Stmt) (pos : Pos) :
        Obeys env (forLoop env run name counter subject body pos)
          (forLoop (env.isolated z) run' name counter subject body pos) := by
  refine (hrun _).bind fun v => (obeys_itemsOf v _).bind fun item => obeys_stepsLeft.bind fun fuel => .scoped ?_
  have loop : Obeys env (eachItem item (fun i v => do
      if counter.isSome then writeSlot 1 (.int i)
      writeSlot 0 v
      tick env pos
      turn (scoped_ (runAll run body))) fuel 0) (eachItem item (fun i v => do
      if counter.isSome then writeSlot 1 (.int i)
      writeSlot 0 v
      tick (env.isolated z) pos
      turn (scoped_ (runAll run' body))) fuel 0) := by
    refine obeys_eachItem (fun i v => Obeys.guard (f := fun _ => _) (g := fun _ => _) (obeys_writeSlot _ _) ?_) fuel 0
    refine (obeys_writeSlot _ _).bind fun _ => (obeys_tick _).bind fun _ => ?_
    exact obeys_turn (obeys_runAll hrun body).scoped
  have declare : Obeys env (declare name false .unit) (declare name false .unit) := obeys_declare name false .unit
  have declared := declare.bind fun _ => loop
  cases counter with
  | none => exact declared
  | some counter => exact (obeys_declare counter false _).bind fun _ => declared

theorem obeys_matchesValue (hrun : ∀ t, Obeys env (run t) (run' t)) (v : Value) (ps : List Pattern) :
    Obeys env (matchesValue run v ps) (matchesValue run' v ps) := by
  induction ps with
  | nil => exact obeys_pure _
  | cons p rest ih =>
    cases p with
    | value e => exact (hrun _).bind fun _ => Obeys.ite (obeys_pure _) ih
    | range => exact ih

theorem obeys_firstCase (hrun : ∀ t, Obeys env (run t) (run' t)) (cs : List Case) :
    Obeys env (firstCase run cs) (firstCase run' cs) := by
  induction cs with
  | nil => exact obeys_pure _
  | cons c rest ih =>
    rcases c with ⟨patterns, _ | e, action⟩
    · exact obeys_pure _
    · exact (obeys_condition hrun e).bind fun _ => Obeys.ite (obeys_pure _) ih

theorem obeys_casesOf (hrun : ∀ t, Obeys env (run t) (run' t)) (v : Value) (cs : List Case) :
    Obeys env (casesOf run v cs) (casesOf run' v cs) := by
  induction cs with
  | nil => exact obeys_pure _
  | cons c rest ih =>
    rcases c with ⟨patterns, condition, action⟩
    refine (obeys_matchesValue hrun v patterns).bind fun here => ih.bind fun others => ?_
    split <;> exact obeys_pure _

theorem obeys_switch (hrun : ∀ t, Obeys env (run t) (run' t)) (subject : Expr) (cases : List Case)
    (default : Option Stmt) : Obeys env (switch run subject cases default) (switch run' subject cases default) := by
  refine (hrun _).bind fun v => (obeys_casesOf hrun v cases).bind fun named => ?_
  refine (obeys_firstCase hrun _).bind fun action => ?_
  split
  · exact (hrun _).scoped
  · exact obeys_pure _

theorem obeys_runEmptied (hrun : ∀ t, Obeys env (run t) (run' t)) (ss : List Stmt) :
    Obeys env (runEmptied run ss) (runEmptied run' ss) :=
  (obeys_runAll hrun ss).scoped.bind fun _ => obeys_pure _

theorem obeys_handle (hrun : ∀ t, Obeys env (run t) (run' t)) (handler : List Stmt) (cause : Fault) :
    Obeys env (handle run handler cause) (handle run' handler cause) := by
  refine (obeys_runEmptied hrun handler).catching (passOn_throw (fun s hs => ?_) fun s hs => ?_) fun s hs => ?_
  case refine_3 =>
    split
    · exact obeys_fault _ _
    · exact obeys_throw _ (imposed_of_unforeign hs)
  all_goals
    cases s with
    | fault => cases hs
    | _ => rfl

theorem obeys_tryStmt (hd : env.Describes) (hrun : ∀ t, Obeys env (run t) (run' t)) (body : List Stmt)
    (name : Option String) (handler : List Stmt) :
        Obeys env (tryStmt env run body name handler) (tryStmt (env.isolated z) run' body name handler) := by
  rw [tryStmt_eq, tryStmt_eq]
  refine (obeys_runEmptied hrun body).faults (fun cause pos => ?_) (fun s hs => ?_) fun s hs => ?_
  case refine_1 =>
    have described : (env.isolated z).describe cause pos = env.describe cause pos := rfl
    have handled := obeys_handle hrun handler cause
    refine Obeys.scoped ?_
    cases name with
    | none => exact handled
    | some name =>
      dsimp only
      rw [described]
      split
      · exact (obeys_declare name false _).bind fun _ => handled
      · next s hs => exact (obeys_throw _ (hd cause pos s hs)).bind fun _ => handled
  all_goals
    cases s with
    | fault cause p => exact absurd rfl (hs cause p)
    | _ => rfl

theorem obeys_assign (hrun : ∀ t, Obeys env (run t) (run' t)) (op : String) (target value : Expr) (pos : Pos) :
    Obeys env (assign env run op target value pos) (assign (env.isolated z) run' op target value pos) := by
  refine (hrun _).bind fun v => ?_
  split
  · refine (obeys_tick _).bind fun _ => Obeys.bind ?_ fun _ => obeys_pure _
    exact Place.Obeys.onVariable (fun _ => Place.obeys_assign _ _) _ _
  · refine .get_bind fun m => ?_
    split
    · exact ((Place.obeys_assign _ _).onCell _).bind fun _ => obeys_pure _
    · exact obeys_fault _ _
  · exact (obeys_chain hrun _ _ _).bind fun _ => obeys_pure _
  · exact obeys_pure _

theorem obeys_stmt (hd : env.Describes) (hrun : ∀ t, Obeys env (run t) (run' t)) (s : Stmt) :
    Obeys env (stmt env run s) (stmt (env.isolated z) run' s) := by
  unfold stmt
  split
  · exact obeys_pure _
  · exact hrun _
  · next name constant value pos =>
    have declare (v : Value) :
        Obeys env (declare name constant v) (declare name constant v) := obeys_declare name constant v
    have declared (v : Value) := (declare v).bind fun _ => obeys_pure Value.unit
    refine (obeys_tick pos).bind fun _ => ?_
    cases value with
    | none => exact (obeys_pure _).bind declared
    | some e => exact (hrun _).bind declared
  · exact obeys_assign hrun _ _ _ _
  · exact (obeys_tick _).bind fun _ => (obeys_runAll hrun _).scoped
  · refine (obeys_tick _).bind fun _ => (obeys_condition hrun _).bind fun _ => ?_
    exact Obeys.ite (obeys_runAll hrun _).scoped (obeys_runAll hrun _).scoped
  · next e body pos =>
    refine obeys_stepsLeft.bind fun fuel => obeys_repeatTurns ?_ fuel
    have goesOn (goOn : Bool) : Obeys env
        (if goOn then turn (scoped_ (runAll run body)) else return some .unit)
        (if goOn then turn (scoped_ (runAll run' body)) else return some .unit) :=
      Obeys.ite (obeys_turn (obeys_runAll hrun _).scoped) (obeys_pure _)
    refine (obeys_tick _).bind fun _ => ?_
    cases e with
    | none => exact (obeys_pure _).bind goesOn
    | some e => exact (obeys_condition hrun e).bind goesOn
  · refine obeys_stepsLeft.bind fun fuel => obeys_repeatTurns (Obeys.leaving ?_) fuel
    refine (obeys_tick _).bind fun _ => (obeys_runAll hrun _).scoped.bind fun _ => ?_
    exact (obeys_condition hrun _).bind fun _ => Obeys.ite (obeys_pure _) (obeys_pure _)
  · exact obeys_forLoop hrun _ _ _ _ _
  · exact (obeys_tick _).bind fun _ => obeys_switch hrun _ _ _
  · exact (obeys_tick _).bind fun _ => obeys_tryStmt hd hrun _ _ _
  · split
    · exact (hrun _).bind fun _ => obeys_throw _ rfl
    · exact obeys_throw _ rfl
  · split
    · exact (hrun _).bind fun _ => obeys_fault _ _
    · exact obeys_fault _ _
  · split
    · exact (hrun _).bind fun _ => obeys_throw _ rfl
    · exact obeys_throw _ rfl
  · exact obeys_throw _ rfl
  · refine (hrun _).bind fun v => ?_
    split
    · exact obeys_fault _ _
    · exact obeys_fault _ _

end Exec

/-- One step obeys if what evaluates the parts does. -/
theorem obeys_step (hd : env.Describes) (hrun : ∀ t, (run t).Obeys env (run' t)) (t : Task) :
    (step env run t).Obeys env (step (env.isolated z) run' t) := by
  cases t with
  | expr e => exact (Exec.obeys_tick _).bind fun _ => Exec.obeys_expr hrun e
  | stmt s => exact Exec.obeys_stmt hd hrun s
  | apply callee args this pos => exact Exec.obeys_callFn hrun callee args this pos

end Parts

/-- Every task obeys, however deep its parts are nested. -/
theorem obeys_evaluate (env : Env) (hd : env.Describes) (n : Nat) (t : Task) :
    (evaluate env n t).Obeys env (evaluate (env.isolated z) n t) := by
  induction n generalizing t with
  | zero => exact Exec.obeys_throw _ rfl
  | succ n ih => exact obeys_step hd ih t

end ScriptAgent
