import ScriptAgent.Proofs.Sandbox.Computation
import ScriptAgent.Proofs.Sandbox.Parts

/-!
# Calls leave the variables in scope alone

A function of a script sees its arguments and nothing else, and gives back the variables that were in scope when it
was called.  The functions of the host and those for values work on the values that they are given.  So whatever is
called in place, on a part of a value or in a callback, the variables in scope are the same afterwards.
-/

namespace ScriptAgent

open Script (Value Fault Pos Callee Expr Stmt)
open Stateful (get_apply set_apply modify_apply)

variable {α β : Type} {env : Env} {run : Runner}

/-! ### Sequences -/

/-- A computation that leaves the variables in scope alone. -/
def Exec.Still (x : Exec α) : Prop :=
  ∀ m, (x m).2.scope = m.scope

/-- A computation in place that leaves the variables in scope alone. -/
def Place.Still (x : Place α) : Prop :=
  ∀ v m, (x v m).2.scope = m.scope

namespace Exec

theorem still_pure (a : α) : Still (pure a) :=
  fun _ => rfl

theorem still_throw (s : Stop) : Still (throw s : Exec α) :=
  fun _ => rfl

theorem still_fault (f : Fault) (pos : Pos) : Still (fault f pos : Exec α) :=
  fun _ => rfl

theorem still_modify {f : Machine → Machine} (h : ∀ m, (f m).scope = m.scope) : Still (modify f) :=
  h

theorem Still.bind {x : Exec α} {f : α → Exec β} (hx : Still x) (hf : ∀ a, Still (f a)) : Still (x >>= f) := by
  intro m
  have hm := hx m
  rw [Stateful.bind_apply]
  rcases hrun : x m with ⟨_ | a, m₁⟩
  · rw [hrun] at hm
    exact hm
  · rw [hrun] at hm
    exact (hf a m₁).trans hm

theorem Still.get_bind {f : Machine → Exec β} (hf : ∀ m, Still (f m)) : Still (get >>= f) :=
  fun m => hf m m

/-- What is put in place of the machine has its variables. -/
theorem Still.set_bind {g : Machine → Machine} (hg : ∀ m, (g m).scope = m.scope) {f : Machine → Exec β}
    (hf : ∀ m, Still (f m)) : Still (do let m ← get; set (g m); f m) :=
  fun m => (hf m (g m)).trans (hg m)

theorem Still.catching {x : Exec α} {h : Stop → Exec α} (hx : Still x) (hh : ∀ s, Still (h s)) :
    Still (tryCatch x h) := by
  intro m
  have hm := hx m
  rw [Stateful.tryCatch_apply]
  rcases hrun : x m with ⟨s | _, m₁⟩
  · rw [hrun] at hm
    exact (hh s m₁).trans hm
  · rw [hrun] at hm
    exact hm

theorem Still.at_ {x : Exec α} (hx : Still x) (pos : Pos) : Still (Exec.at_ pos x) :=
  hx.catching fun _ => still_throw _

/-- A guard before the rest of a computation. -/
theorem Still.guard {c : Prop} [Decidable c] {x : Exec PUnit} {f : PUnit → Exec β} (hx : Still x) (hf : Still (f ⟨⟩)) :
    Still (if c then x >>= f else f ⟨⟩) := by
  split
  · exact hx.bind fun _ => hf
  · exact hf

theorem Still.ite {c : Prop} [Decidable c] {x y : Exec α} (hx : Still x) (hy : Still y) :
    Still (if c then x else y) := by
  split
  · exact hx
  · exact hy

theorem still_ofExcept (r : Except Fault α) (pos : Pos) : Still (ofExcept r pos) := by
  cases r <;> exact fun _ => rfl

theorem still_tick (pos : Pos) : Still (tick env pos) :=
  .bind (still_modify fun _ => rfl) fun _ => .get_bind fun _ =>
    .guard (f := fun _ => _) (still_throw _) (.ite (still_throw _) (still_pure _))

theorem still_noteRead (pos : Pos) : Still (noteRead env pos) :=
  .set_bind (g := fun m => { m with reads := m.reads + 1 }) (fun _ => rfl) fun _ => .ite (still_throw _) (still_pure _)

theorem still_checkSize (v : Value) (pos : Pos) : Still (checkSize env v pos) := by
  unfold checkSize
  rcases v.sizes with ⟨items, entries, text⟩
  split
  case h_4 => exact still_pure _
  all_goals
    exact .guard (f := fun _ => _) (still_throw _) (.guard (f := fun _ => _) (still_throw _)
      (.ite (still_throw _) (still_pure _)))

theorem still_sized (v : Value) (pos : Pos) : Still (sized env v pos) :=
  (still_checkSize v pos).bind fun _ => still_pure _

theorem still_newCell (v : Value) : Still (newCell v) :=
  .get_bind fun _ => .bind (still_modify fun _ => rfl) fun _ => still_pure _

theorem still_readVariable (name : String) (pos : Pos) : Still (readVariable env name pos) := by
  refine (still_noteRead pos).bind fun _ => .get_bind fun m => ?_
  split
  · exact still_pure _
  · exact still_fault _ _

end Exec

namespace Place

theorem still_pure (a : α) : Still (pure a) :=
  fun _ _ => rfl

theorem still_throw (s : Stop) : Still (throw s : Place α) :=
  fun _ _ => rfl

theorem still_fault (f : Fault) (pos : Pos) : Still (fault f pos : Place α) :=
  fun _ _ => rfl

theorem still_set (v : Value) : Still (set v : Place PUnit) :=
  fun _ _ => rfl

theorem Still.bind {x : Place α} {f : α → Place β} (hx : Still x) (hf : ∀ a, Still (f a)) : Still (x >>= f) := by
  intro v m
  have hm := hx v m
  rw [bind_apply]
  rcases hrun : x v m with ⟨⟨_ | a, v₁⟩, m₁⟩
  · rw [hrun] at hm
    exact hm
  · rw [hrun] at hm
    exact (hf a v₁ m₁).trans hm

theorem Still.get_bind {f : Value → Place β} (hf : ∀ v, Still (f v)) : Still (get >>= f) :=
  fun v m => hf v v m

theorem Still.machine_bind {f : Machine → Place β} (hf : ∀ m, Still (f m)) :
    Still ((liftM (get : StateM Machine Machine) : Place Machine) >>= f) :=
  fun v m => hf m v m

theorem Still.catching {x : Place α} {h : Stop → Place α} (hx : Still x) (hh : ∀ s, Still (h s)) :
    Still (tryCatch x h) := by
  intro v m
  have hm := hx v m
  rw [tryCatch_apply]
  rcases hrun : x v m with ⟨⟨s | _, v₁⟩, m₁⟩
  · rw [hrun] at hm
    exact (hh s v₁ m₁).trans hm
  · rw [hrun] at hm
    exact hm

theorem Still.guard {c : Prop} [Decidable c] {x : Place PUnit} {f : PUnit → Place β} (hx : Still x)
    (hf : Still (f ⟨⟩)) : Still (if c then x >>= f else f ⟨⟩) := by
  split
  · exact hx.bind fun _ => hf
  · exact hf

theorem Still.ite {c : Prop} [Decidable c] {x y : Place α} (hx : Still x) (hy : Still y) :
    Still (if c then x else y) := by
  split
  · exact hx
  · exact hy

theorem Still.lift {x : Exec α} (hx : x.Still) : Still (Place.lift x) :=
  fun _ m => hx m

theorem Still.inside {x : Place α} (hx : Still x) (part : Value) (put : Value → Value → Value) :
    Still (Place.inside part put x) :=
  fun _ m => hx part m

theorem Still.onValue {x : Place α} (hx : Still x) (v : Value) : (Place.onValue v x).Still :=
  fun m => hx v m

theorem Still.onCell {x : Place α} (hx : Still x) (id : Nat) : (Place.onCell id x).Still :=
  fun m => hx _ m

theorem still_checkSize (v : Value) (pos : Pos) : Still (lift (Exec.checkSize env v pos)) :=
  .lift (Exec.still_checkSize v pos)

end Place

/-! ### What the host offers -/

namespace Exec

theorem still_trace (f : Millis → Trace) : Still (trace f) :=
  still_modify fun _ => rfl

theorem still_failText (message : String) : Still (failText message : Exec α) :=
  still_fault _ _

theorem still_refuseWrite (e : ObjectError) : Still (refuseWrite e : Exec α) :=
  .bind (still_modify fun _ => rfl) fun _ => still_failText _

theorem still_suspend (s : Signal) : Still (suspend s : Exec α) :=
  .bind (still_modify fun _ => rfl) fun _ => still_throw _

theorem Still.unlessRaised {x : Exec α} (hx : Still x) : Still (unlessRaised x) :=
  .get_bind fun _ => .guard (f := fun _ => _) (still_throw _) hx

theorem still_raise (s : Signal) : Still (raise s : Exec α) :=
  .unlessRaised (.get_bind fun _ => (still_trace _).bind fun _ => still_suspend _)

theorem still_takeAssignment (t : Tool) : Still (takeAssignment env t) := by
  refine .get_bind fun m => ?_
  split
  · exact still_pure _
  · split
    · exact still_pure _
    · exact .ite (.bind (still_modify fun _ => rfl) fun _ => still_pure _) (still_pure _)

theorem still_callTool (t : Tool) (object : Option String) (input : Value) : Still (callTool env t object input) := by
  refine .unlessRaised ((still_takeAssignment t).bind fun assignment => .get_bind fun m => ?_)
  dsimp only
  refine .bind (still_modify fun _ => rfl) fun _ => ?_
  split
  · exact still_pure _
  · exact still_suspend _
  · exact still_failText _
  · exact still_throw _
  · exact still_throw _

theorem still_giveOut (v : Value) : Still (giveOut env v) :=
  .unlessRaised (.get_bind fun _ => still_trace _)

theorem still_log (message : Value) (args : List Value) : Still (log env message args) :=
  .get_bind fun _ => still_trace _

theorem still_callMethod (id : Nat) (name : String) (input : Value) : Still (callMethod env id name input) := by
  refine .get_bind fun m => ?_
  dsimp only
  split
  · exact still_callTool _ _ _
  · exact still_failText _

theorem still_hostedGet (target index : Value) : Still (hostedGet env target index) := by
  refine .get_bind fun m => ?_
  split
  · exact still_pure _
  · split
    · exact still_pure _
    · exact still_failText _
    · exact still_pure _
  · exact still_fault _ _

theorem still_hostedSet (target index v : Value) : Still (hostedSet env target index v) := by
  intro m
  unfold hostedSet
  rw [Stateful.bind_apply, get_apply]
  dsimp only
  split
  · next id key =>
    rcases m.records[id]?.map (Record.set · key (m.toJson env.backend v)) with _ | _ | r
    · rfl
    · exact still_refuseWrite _ m
    · rfl
  · next id key =>
    rcases m.drafts[id]?.map fun d : Draft => (d.set key (m.toJson env.backend v), d.name)
      with _ | ⟨_ | ⟨d, _ | w⟩, name⟩
    · rfl
    · exact still_refuseWrite _ m
    · rfl
    · rfl
  · rfl

end Exec

namespace HostCall

open Exec

/-- Functions of the host that leave the variables in scope alone. -/
def Still (h : Option Hosted) : Prop :=
  ∀ f ∈ h, f.run.Still

theorem still_none : Still none :=
  nofun

theorem still_some {f : Hosted} (h : f.run.Still) : Still (some f) := by
  intro f' hf
  obtain rfl := Option.mem_some_iff.mp hf
  exact h

theorem Still.or {a b : Option Hosted} (ha : Still a) (hb : Still b) : Still (a.or b) := by
  cases a with
  | none => exact hb
  | some f => exact ha

theorem still_act {x : Exec Unit} (h : x.Still) : Still (act x) :=
  still_some (h.bind fun _ => still_pure _)

theorem still_hook (name : String) (args : List Value) : Still (hook? env name args) := by
  unfold hook?
  split
  · exact still_act (still_modify fun _ => rfl)
  · exact still_act (still_modify fun _ => rfl)
  · exact still_act (still_trace _)
  · exact still_act (still_giveOut _)
  · exact still_none

theorem still_signal (name : String) (args : List Value) : Still (signal? env name args) := by
  have raises (s : Signal) : Still (some { run := Exec.raise s }) := still_some (still_raise s)
  have raisesWith (f : Json → Signal) (v : Value) :
      Still (some { run := do let m ← get; Exec.raise (f (m.toJson env.backend v)) }) :=
    still_some (.get_bind fun _ => still_raise _)
  unfold signal?
  dsimp only
  split
  case h_3 reason v => exact raisesWith (fun context => .think reason (some context)) v
  case h_9 target v => exact raisesWith (.execute target) v
  case h_11 => exact still_none
  all_goals exact raises _

theorem still_ofRecord (id : Nat) (name : String) (args : List Value) : Still (ofRecord? env id name args) := by
  have reads (f : Record → Value) : Still
      (some { inPlace := true, run := do return ((← get).records[id]?.map f).getD .unit }) :=
    still_some (.get_bind fun _ => still_pure _)
  unfold ofRecord?
  dsimp only
  split
  case h_6 => exact still_none
  all_goals exact reads _

theorem still_ofObject (objects : Array Draft) (id : Nat) (name : String) (args : List Value) :
    Still (ofObject? env objects id name args) := by
  unfold ofObject?
  dsimp only
  split
  · split
    · exact still_some (still_callMethod _ _ _)
    · split
      · exact still_some (.get_bind fun _ => still_pure _)
      · exact still_none
  · split
    · exact still_some (still_callMethod _ _ _)
    · exact still_none
  · exact still_none

theorem still_hosted (objects : Array Draft) (name : String) (args : List Value) :
    Still (hosted? env objects name args) := by
  have either : Still ((hook? env name args).or (signal? env name args)) :=
    (still_hook name args).or (still_signal name args)
  unfold hosted?
  split
  · split
    · exact still_some ((still_log _ _).bind fun _ => still_pure _)
    · exact either
  · exact (still_ofRecord _ _ _).or either
  · exact (still_ofObject _ _ _ _).or either
  · exact either

theorem still_tool (name : String) (args : List Value) : Still (tool? env name args) := by
  have called (input : Value) :
      Still ((tool?.latest env name).map fun t => { run := Exec.callTool env t none input }) := by
    cases tool?.latest env name with
    | none => exact still_none
    | some t => exact still_some (still_callTool _ _ _)
  unfold tool?
  split
  · exact called _
  · exact called _
  · exact still_none

end HostCall

/-! ### Functions of the script -/

namespace Exec

theorem still_leaveFunction (name : String) (closure : Bool) (pos : Pos) (s : Stop) :
    Still (leaveFunction name closure pos s) := by
  cases s <;> exact fun _ => rfl

/-- However a function is left, the variables from before are in scope again. -/
theorem scope_left (before : Machine) {x : Exec α} {h : Stop → Exec α} (hh : ∀ s, Still (h s)) (m : Machine) :
    let leave : Exec Unit :=
      modify fun m => { m with scope := before.scope, this := before.this, level := before.level }
    ((do
      let v ← tryCatch x fun s => do
        leave
        h s
      leave
      return v : Exec α) m).2.scope = before.scope := by
  intro leave
  have left (m : Machine) : (leave m).2.scope = before.scope := rfl
  rw [Stateful.bind_apply, Stateful.tryCatch_apply]
  rcases x m with ⟨s | v, m₁⟩
  · have hs := (hh s (leave m₁).2).trans (left m₁)
    have hcaught : (do leave; h s) m₁ = h s (leave m₁).2 := rfl
    rcases hrun : h s (leave m₁).2 with ⟨_ | v, m₂⟩
    · rw [hrun] at hs hcaught
      simp only [hcaught]
      exact hs
    · simp only [hcaught, hrun]
      exact left m₂
  · exact left m₁

theorem still_invoke (f : Script.Function) (name : String) (args : List Value) (this : Option Nat) (pos : Pos) :
    Still (invoke env run f name args this pos) := by
  unfold invoke
  split
  · exact still_pure _
  · refine (still_tick pos).bind fun _ m => ?_
    rw [Stateful.bind_apply, get_apply]
    dsimp only
    split
    · exact still_throw _ m
    · exact scope_left m (still_leaveFunction _ _ _) _

end Exec

/-! ### Functions that take functions -/

/-- Where a function is applied, the variables in scope are left alone. -/
def Runner.Still (run : Runner) : Prop :=
  ∀ callee args this pos, (run (.apply callee args this pos)).Still

namespace Exec

theorem Still.inCaller {x : Exec α} (hx : Still x) (caller : String) (pos : Pos) : Still (tryCatch x fun
    | .fault cause p => fault (.inside caller false cause p) pos
    | s => throw s) :=
  hx.catching fun s => by cases s <;> exact fun _ => rfl

theorem still_onItem (hrun : run.Still) (caller : String) (f item : Value) (extras : List Value) (pos : Pos) :
    Still (onItem env run caller f item extras pos) := by
  unfold onItem
  split
  · refine Still.inCaller ?_ caller pos
    split
    · exact (still_newCell _).bind fun id => (hrun _ _ _ _).bind fun v => .get_bind fun _ => still_pure _
    · exact (hrun _ _ _ _).bind fun _ => still_pure _
    · exact (hrun _ _ _ _).bind fun _ => still_pure _
    · exact (hrun _ _ _ _).bind fun _ => still_pure _
  · exact still_fault _ _

theorem still_onArgs (hrun : run.Still) (caller : String) (f : Value) (args extras : List Value) (pos : Pos) :
    Still (onArgs env run caller f args extras pos) := by
  unfold onArgs
  split
  · exact .inCaller (hrun _ _ _ _) caller pos
  · exact still_fault _ _

end Exec

namespace Callback

open Exec

theorem still_each {f : Nat → Value → Exec (Value × Value)} (hf : ∀ i v, Exec.Still (f i v)) (i : Nat)
    (vs : List Value) : Exec.Still (each f i vs) := by
  induction vs generalizing i with
  | nil => exact still_pure _
  | cons v rest ih => exact (hf i v).bind fun _ => (ih _).bind fun _ => still_pure _

theorem still_first {f : Nat → Value → Exec (Value × Value)} (hf : ∀ i v, Exec.Still (f i v)) (accept : Value → Bool)
    (i : Nat) (vs : List Value) : Exec.Still (first f accept i vs) := by
  induction vs generalizing i with
  | nil => exact still_pure _
  | cons v rest ih => exact (hf i v).bind fun r => .ite (still_pure _) (ih _)

theorem still_insertBy {f : Value → Value → Exec Bool} (hf : ∀ v w, Exec.Still (f v w)) (v : Value)
    (vs : List Value) : Exec.Still (insertBy f v vs) := by
  induction vs with
  | nil => exact still_pure _
  | cons w rest ih => exact (hf w v).bind fun b => .ite (still_pure _) (ih.bind fun _ => still_pure _)

theorem still_sortBy {f : Value → Value → Exec Bool} (hf : ∀ v w, Exec.Still (f v w)) (done vs : List Value) :
    Exec.Still (sortBy f done vs) := by
  induction vs generalizing done with
  | nil => exact still_pure _
  | cons v rest ih => exact (still_insertBy hf v done).bind fun _ => ih _

theorem still_fold {f : Nat → Value → Value → Exec Value} (hf : ∀ i a v, Exec.Still (f i a v)) (i : Nat) (acc : Value)
    (vs : List Value) : Exec.Still (fold f i acc vs) := by
  induction vs generalizing i acc with
  | nil => exact still_pure _
  | cons v rest ih => exact (hf i acc v).bind fun _ => ih _ _

theorem still_after (hrun : run.Still) (name : String) (pos : Pos) (f a b : Value) :
    Exec.Still (ofArray?.after env run name pos f a b) := by
  refine .bind ((still_onArgs hrun _ _ _ _ _).catching fun s => ?_) fun order => ?_
  · cases s <;> exact fun _ => rfl
  · split <;> exact still_pure _

theorem still_keep (hrun : run.Still) (name : String) (pos : Pos) (f : Value) (es : Dict Value) :
    Exec.Still (ofMap?.keep env run name pos f es) := by
  induction es with
  | nil => exact still_pure _
  | cons e rest ih =>
    exact (still_onArgs hrun _ _ _ _ _).bind fun r => ih.bind fun _ => still_pure _

/-- Functions that take functions and leave the variables in scope alone. -/
def Still (a : Option Applied) : Prop :=
  ∀ f ∈ a, f.run.Still

theorem still_none : Still none :=
  nofun

theorem still_some {f : Applied} (h : f.run.Still) : Still (some f) := by
  intro f' hf
  obtain rfl := Option.mem_some_iff.mp hf
  exact h

theorem still_ofArray (hrun : run.Still) (name : String) (items rest : List Value) (pos : Pos) :
    Still (ofArray? env run name items rest pos) := by
  have item (f : Value) (i : Nat) (v : Value) : Exec.Still (onItem env run name f v [.int i] pos) :=
    still_onItem hrun _ _ _ _ _
  have folds (f : Value) (i : Nat) (acc v : Value) : Exec.Still (ofArray?.reducing env run name pos f i acc v) :=
    still_onArgs hrun _ _ _ _ _
  have sorts (f v w : Value) : Exec.Still (ofArray?.after env run name pos f v w) := still_after hrun _ _ _ _ _
  unfold ofArray?
  dsimp only
  split
  case h_16 => exact still_none
  case h_1 => exact still_some ((still_each (item _) _ _).bind fun _ => still_pure _)
  case h_2 => exact still_some (((still_each (item _) _ _).bind fun _ => still_pure _).bind fun _ => still_pure _)
  case h_3 => exact still_some ((still_each (item _) _ _).bind fun _ => still_pure _)
  case h_4 => exact still_some ((still_each (item _) _ _).bind fun _ => still_pure _)
  case h_5 => exact still_some ((still_each (item _) _ _).bind fun _ => still_pure _)
  case h_11 => exact still_some ((still_fold (folds _) _ _ _).bind fun _ => still_pure _)
  case h_12 => exact still_some ((still_fold (folds _) _ _ _).bind fun _ => still_pure _)
  case h_13 => exact still_some ((still_fold (folds _) _ _ _).bind fun _ => still_pure _)
  case h_14 => exact still_some ((still_fold (folds _) _ _ _).bind fun _ => still_pure _)
  case h_15 => exact still_some ((still_sortBy (sorts _) _ _).bind fun _ => still_pure _)
  all_goals
    exact still_some (((still_first (item _) _ _ _).bind fun _ => still_pure _).bind fun _ => still_pure _)

theorem still_ofMap (hrun : run.Still) (name : String) (entries : Dict Value) (rest : List Value) (pos : Pos) :
    Still (ofMap? env run name entries rest pos) := by
  unfold ofMap?
  split
  case h_4 => exact still_none
  all_goals exact still_some ((still_keep hrun _ _ _ _).bind fun _ => still_pure _)

theorem still_find (hrun : run.Still) (name : String) (target : Value) (rest : List Value) (pos : Pos) :
    Still (find? env run name target rest pos) := by
  unfold find?
  split
  · exact still_ofArray hrun _ _ _ _
  · exact still_ofMap hrun _ _ _ _
  · exact still_none

end Callback

/-! ### Calls -/

namespace Place

theorem still_show (name : String) (target : Value) : (show_ name target env).Still :=
  .get_bind fun _ => (Exec.still_trace _).bind fun _ => Exec.still_pure _

theorem still_native (hrun : run.Still) (name : String) (rest : List Value) (constant inPlace : Bool) (pos : Pos) :
    Still (native env run name rest constant inPlace pos) := by
  refine .get_bind fun target => .machine_bind fun m => ?_
  have guarded (changes : Bool) :
      Still (if changes && constant then fault (.constantTarget name) pos else pure () : Place Unit) :=
    .ite (still_fault _ _) (still_pure _)
  have finished (v : Value) (method : Bool) : Still (do
      lift (Exec.checkSize env v pos)
      if inPlace then lift (Exec.checkSize env (← get) pos)
      return (v, method)) := by
    refine (still_checkSize v pos).bind fun _ => ?_
    dsimp only
    split
    · exact .get_bind fun v => (still_checkSize v pos).bind fun _ => still_pure _
    · exact still_pure _
  have hosted {changes : Bool} {x : Exec Value} (h : x.Still) :=
    (guarded changes).bind fun _ => Still.bind (Still.lift (h.at_ pos)) fun v => finished v changes
  have builtin (b : Script.Builtin) := (guarded (b.access == .changes)).bind fun _ =>
    (Still.lift (Exec.still_ofExcept b.outcome pos)).bind fun r =>
      Still.guard (c := (b.access != .takes) = true) (f := fun _ => _) (still_set r.2)
        (finished r.1 (b.access != .takes))
  have hfind : Callback.Still (Callback.find? env run name target rest pos) :=
    Callback.still_find hrun name target rest pos
  have hhosted : HostCall.Still (HostCall.hosted? env m.drafts name (target :: rest)) := HostCall.still_hosted _ _ _
  have htool : HostCall.Still (HostCall.tool? env name (target :: rest)) := HostCall.still_tool _ _
  dsimp only
  split
  · next a ha =>
    refine Still.bind (guarded _) fun _ => (Still.lift (hfind a ha)).bind fun r => ?_
    exact (still_set _).bind fun _ => finished _ _
  · split
    · next h hh => exact hosted (hhosted h hh)
    · split
      · exact builtin _
      · split
        · next h hh => exact hosted (htool h hh)
        · refine .ite ((Still.lift (still_show _ _)).bind fun _ => still_pure _) ?_
          split
          · exact builtin _
          · exact .lift (Exec.still_fault _ _)

end Place

namespace Exec

theorem still_nativeNone (name : String) (pos : Pos) : Still (nativeNone env name pos) := by
  have h : HostCall.Still ((HostCall.hosted? env #[] name []).or (HostCall.tool? env name [])) :=
    (HostCall.still_hosted _ _ _).or (HostCall.still_tool _ _)
  unfold nativeNone
  split
  · next f hf => exact ((h f hf).at_ pos).bind fun v => still_sized v pos
  · exact .ite (.bind (still_trace _) fun _ => still_pure _) (still_fault _ _)

theorem still_callByName (hrun : run.Still) (name : String) (args : List Value) (this : Option Nat) (pos : Pos) :
    Still (callByName env run name args this pos) := by
  unfold callByName
  split
  · exact still_invoke _ _ _ _ _
  · split
    · split
      · exact ((Place.still_native hrun _ _ _ _ _).onCell _).bind fun _ => still_pure _
      · exact still_nativeNone _ _
    · exact ((Place.still_native hrun _ _ _ _ _).onValue _).bind fun _ => still_pure _

theorem still_callFn (hrun : run.Still) (callee : Callee) (args : List Value) (this : Option Nat) (pos : Pos) :
    Still (callFn env run callee args this pos) := by
  unfold callFn
  split
  · exact still_callByName hrun _ _ _ _
  · split
    · exact .ite (still_invoke _ _ _ _ _) (still_fault _ _)
    · exact still_fault _ _

end Exec

/-! ### Chains -/

namespace Place

theorem still_readBack (id : Nat) : Still (readBack id) :=
  .machine_bind fun _ => still_set _

theorem still_callBound (hrun : run.Still) (target : Value) (callee : Callee) (args : List Value) (pos : Pos) :
    Still (callBound run target callee args pos) := by
  refine (Still.lift (Exec.still_newCell target)).bind fun id => ?_
  refine Still.bind ?_ fun v => (still_readBack id).bind fun _ => still_pure _
  exact (Still.lift (hrun _ _ _ _)).catching fun s => (still_readBack id).bind fun _ => still_throw _

theorem still_callMethod (hrun : run.Still) (name : String) (args : List Value) (argPos : Pos)
    (constant inPlace : Bool) (pos : Pos) : Still (callMethod env run name args argPos constant inPlace pos) := by
  refine .get_bind fun target => ?_
  have bound (callee : Callee) (args : List Value) : Still (callBound run target callee args pos) :=
    still_callBound hrun target callee args pos
  dsimp only
  split
  · split
    · exact (Still.lift (hrun _ _ _ _)).bind fun _ => still_pure _
    · exact bound _ _
    · exact still_fault _ _
    · exact still_fault _ _
  · split
    · split
      · exact still_pure _
      · exact still_fault _ _
    · split
      · exact still_pure _
      · split
        · exact bound _ _
        · split
          · exact bound _ _
          · exact still_native hrun _ _ _ _ _

theorem still_assign (constant : Bool) (w : Write) : Still (assign env constant w) := by
  refine .guard (f := fun _ => _) (still_fault _ _) ?_
  split
  · exact still_set _
  · refine .machine_bind fun m => .get_bind fun old => (Still.lift (Exec.still_ofExcept _ _)).bind fun new => ?_
    split
    · exact (still_checkSize _ _).bind fun _ => still_set _
    · exact (still_set _).bind fun _ => still_checkSize _ _

theorem still_assigned (w : Write) (old : Value) : Still (assigned env w old) :=
  (Still.lift ((still_assign false w).onValue old)).bind fun _ => still_pure _

theorem still_writeStored (key : Value) (constant : Bool) (w : Write) (pos opPos : Pos) :
    Still (writeStored env key constant w pos opPos) := by
  refine .get_bind fun target => .bind ?_ fun r => ?_
  · split
    · exact still_pure _
    · exact still_throw _
  · have checked (wanted : String) : Still (do
        assign env constant w
        let new ← get
        if new.typeName != wanted then fault (.mismatch wanted new.typeName) w.pos) :=
      (still_assign constant w).bind fun _ => .get_bind fun _ => .ite (still_fault _ _) (still_pure _)
    dsimp only
    split
    · exact (checked _).inside _ _
    · exact (checked _).inside _ _
    · exact ((still_assign constant w).bind fun _ => .get_bind fun _ => still_checkSize _ _).inside _ _

theorem still_writePart (key : Value) (constant : Bool) (w : Write) (pos opPos : Pos) :
    Still (writePart env key constant w pos opPos) := by
  have written : Still (writeStored env key constant w pos opPos) := still_writeStored key constant w pos opPos
  rw [writePart_eq]
  refine .get_bind fun target => ?_
  dsimp only
  split
  · split
    · exact .guard (f := fun _ => _) (still_set _) written
    · exact written
  · exact written

theorem still_readProperty (name : String) (pos opPos : Pos) : Still (readProperty env name pos opPos) := by
  refine .get_bind fun target => ?_
  split
  · exact still_pure _
  · exact .ite (.lift ((Exec.still_hostedGet _ _).at_ _)) (still_fault _ _)

theorem still_hostedSet (target key v : Value) (opPos : Pos) :
    Still (lift (Exec.at_ opPos (Exec.hostedSet env target key v))) :=
  .lift ((Exec.still_hostedSet _ _ _).at_ _)

theorem still_hostedGet (target key : Value) (opPos : Pos) :
    Still (lift (Exec.at_ opPos (Exec.hostedGet env target key))) :=
  .lift ((Exec.still_hostedGet _ _).at_ _)

theorem still_writeProperty (name : String) (w : Write) (pos opPos : Pos) :
    Still (writeProperty env name w pos opPos) := by
  refine .get_bind fun target => ?_
  dsimp only
  split
  · exact (still_pure _).bind fun new => .ite (still_hostedSet _ _ _ _) (still_fault _ _)
  · refine (still_readProperty name pos opPos).bind fun v => (still_assigned w v).bind fun new => ?_
    exact .ite (still_hostedSet _ _ _ _) (still_fault _ _)

theorem still_writeIndexed (key : Value) (w : Write) (opPos : Pos) : Still (writeIndexed env key w opPos) := by
  refine .get_bind fun target => ?_
  dsimp only
  split
  · exact (still_pure _).bind fun _ => still_hostedSet _ _ _ _
  · refine Still.bind ?_ fun old => ?_
    · refine Still.catching ?_ fun s => ?_
      · exact (Still.lift (Exec.still_hostedGet _ _)).bind fun _ => still_pure _
      · cases s <;> exact fun _ _ => rfl
    · split
      · exact (still_assigned w _).bind fun _ => still_hostedSet _ _ _ _
      · exact (still_pure _).bind fun _ => still_hostedSet _ _ _ _

theorem still_followPart (key : Value) (pos opPos : Pos) {x : Place (Value × Bool)} (hx : Still x) :
    Still (walk.followPart key pos opPos x) := by
  refine .get_bind fun target => ?_
  split
  · exact hx.inside _ _
  · exact still_throw _

theorem still_walk (hrun : run.Still) (moves : List Move) (constant inPlace : Bool) (write : Option Write) :
    Still (walk env run moves constant inPlace write) := by
  induction moves generalizing constant inPlace write with
  | nil => exact .get_bind fun _ => still_pure _
  | cons move rest ih =>
    rw [walk]
    refine .get_bind fun target => ?_
    have copied (v : Value) (inPlace : Bool) : Still (lift (onValue v (walk env run rest false inPlace write))) :=
      .lift ((ih false inPlace write).onValue v)
    have found : Still (do return (← get, false) : Place (Value × Bool)) := .get_bind fun _ => still_pure _
    split
    · exact still_pure _
    · dsimp only
      split
      · refine (still_callMethod hrun _ _ _ _ _ _).bind fun r => ?_
        split
        · exact still_pure _
        · exact (copied _ _).bind fun _ => still_pure _
      · split
        · split
          · split
            · refine (still_writePart _ _ _ _ _).bind fun _ => .get_bind fun v => ?_
              exact (still_checkSize _ _).bind fun _ => still_pure _
            · exact still_followPart _ _ _ found
          · exact still_followPart _ _ _ (ih _ _ _)
        · split
          · exact (still_writeProperty _ _ _ _).bind fun _ => still_pure _
          · exact (still_readProperty _ _ _).bind fun _ => still_pure _
          · refine (still_readProperty _ _ _).bind fun v => (copied _ _).bind fun r => ?_
            exact .guard (f := fun _ => _) (still_hostedSet _ _ _ _) (still_pure _)
      · split
        · split
          · exact (still_writeIndexed _ _ _).bind fun _ => still_pure _
          · exact (still_hostedGet _ _ _).bind fun _ => still_pure _
          · refine (still_hostedGet _ _ _).bind fun v => (copied _ _).bind fun r => ?_
            exact .guard (f := fun _ => _) (still_hostedSet _ _ _ _) (still_pure _)
        · split
          · split
            · exact (still_writePart _ _ _ _ _).bind fun _ => still_pure _
            · exact still_followPart _ _ _ found
          · exact still_followPart _ _ _ (ih _ _ _)

end Place

/-- Whatever function the evaluator applies, it leaves the variables in scope alone. -/
theorem still_evaluate (env : Env) (fuel : Nat) : Runner.Still (evaluate env fuel) := by
  induction fuel with
  | zero => exact fun _ _ _ _ => Exec.still_throw _
  | succ fuel ih => exact fun callee args this pos => Exec.still_callFn ih callee args this pos

end ScriptAgent
