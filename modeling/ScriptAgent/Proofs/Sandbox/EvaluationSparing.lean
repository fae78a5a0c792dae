import ScriptAgent.Proofs.Sandbox.EvaluationConduct
import ScriptAgent.Proofs.Sandbox.Sparing

/-!
# Evaluation spares what its script does

The parts of a task are taken to spare a variable where they are written so; then each construct of the language does,
and so does one step.  The evaluator follows by induction on its fuel.
-/

namespace ScriptAgent

open Script (Value Fault Pos Expr Link Stmt Case Pattern)
open Stateful (get_apply)

variable {name : String}

/-- What evaluates the parts of a task spares a variable with each part that does; an expression leaves nothing new in
scope. -/
structure Runner.Spares (name : String) (run : Runner) : Prop where
  still : run.Still
  expr : ∀ e : Expr, e.spares name = true → (run (.expr e)).Keeps name
  stmt : ∀ s : Stmt, s.spares name = true → (run (.stmt s)).Spares name

namespace Exec

variable {α β : Type} {env : Env} {run : Runner}

/-! ### Expressions -/

theorem spares_runAll (hrun : run.Spares name) {body : List Stmt} (h : Stmt.allSpare name body = true) :
    Spares name (runAll run body) := by
  induction body with
  | nil => exact (still_pure _).spares
  | cons s rest ih =>
    obtain ⟨hs, hrest⟩ := Bool.and_eq_true_iff.mp h
    cases rest with
    | nil => exact hrun.stmt s hs
    | cons s' rest => exact (hrun.stmt s hs).bind fun _ => ih hrest

theorem keeps_condition (hrun : run.Spares name) {e : Expr} (h : e.spares name = true) :
    Keeps name (condition run e) := by
  refine (hrun.expr e h).bind fun v => ?_
  split
  · exact (still_pure _).keeps
  · exact (still_fault _ _).keeps

theorem keeps_arguments (hrun : run.Spares name) {es : List Expr} (h : Expr.allSpare name es = true) :
    Keeps name (arguments run es) := by
  induction es with
  | nil => exact (still_pure _).keeps
  | cons e rest ih =>
    obtain ⟨he, hrest⟩ := Bool.and_eq_true_iff.mp h
    exact (hrun.expr e he).bind fun _ => (ih hrest).bind fun _ => (still_pure _).keeps

theorem keeps_items (hrun : run.Spares name) (done : List Value) {es : List Expr}
    (h : Expr.allSpare name es = true) : Keeps name (items env run done es) := by
  induction es generalizing done with
  | nil => exact (still_pure _).keeps
  | cons e rest ih =>
    obtain ⟨he, hrest⟩ := Bool.and_eq_true_iff.mp h
    exact (hrun.expr e he).bind fun _ => (still_checkSize _ _).keeps.bind fun _ => ih _ hrest

theorem keeps_entries (hrun : run.Spares name) (done : Dict Value) {es : List (String × Expr)}
    (h : Expr.entriesSpare name es = true) : Keeps name (entries env run done es) := by
  induction es generalizing done with
  | nil => exact (still_pure _).keeps
  | cons e rest ih =>
    obtain ⟨he, hrest⟩ := Bool.and_eq_true_iff.mp h
    exact (hrun.expr e.2 he).bind fun _ => (still_checkSize _ _).keeps.bind fun _ => ih _ hrest

theorem keeps_template (hrun : run.Spares name) (done : String) {es : List Expr}
    (h : Expr.allSpare name es = true) : Keeps name (template env run done es) := by
  induction es generalizing done with
  | nil => exact (still_pure _).keeps
  | cons e rest ih =>
    obtain ⟨he, hrest⟩ := Bool.and_eq_true_iff.mp h
    exact (hrun.expr e he).bind fun _ => .get_bind fun _ => (still_checkSize _ _).keeps.bind fun _ => ih _ hrest

/-- A variable that is handed over first may be changed in place; it is another one. -/
theorem keeps_applyNamed (hrun : run.Spares name) (n : String) {args : List Expr} (pos : Pos)
    (hhead : args.head?.any (Expr.isVar name) = false) (h : Expr.allSpare name args = true) :
    Keeps name (applyNamed env run n args pos) := by
  unfold applyNamed
  split
  · next first at_ rest =>
    have hfirst : first ≠ name := by simpa [Expr.isVar] using hhead
    obtain ⟨-, hrest⟩ := Bool.and_eq_true_iff.mp h
    refine (keeps_arguments hrun hrest).bind fun values => .get_bind fun m => .ite ?_ ?_
    · refine Keeps.bind ?_ fun _ => (still_pure _).keeps
      exact keeps_onVariable hfirst _ fun _ => Place.still_native hrun.still _ _ _ _ _
    · exact (still_readVariable _ _).keeps.bind fun _ => (still_callByName hrun.still _ _ _ _).keeps
  · exact (keeps_arguments hrun h).bind fun _ => (still_callByName hrun.still _ _ _ _).keeps

theorem still_functionNamed (v : Value) (pos : Pos) : Still (functionNamed v pos) := by
  unfold functionNamed
  split
  · exact .ite (still_pure _) (still_fault _ _)
  · exact still_fault _ _

theorem keeps_call (hrun : run.Spares name) (n : String) {args : List Expr} (pos : Pos)
    (hhead : args.head?.any (Expr.isVar name) = false) (h : Expr.allSpare name args = true) :
    Keeps name (call env run n args pos) := by
  have applied : Keeps name (applyNamed env run n args pos) := keeps_applyNamed hrun n pos hhead h
  unfold call
  split
  case h_8 => exact applied
  all_goals simp only [Expr.allSpare, Bool.and_eq_true, Bool.and_true] at h
  · exact (hrun.expr _ h).bind fun v => (still_functionNamed _ _).keeps
  · refine (hrun.expr _ h.1).bind fun v => ?_
    split
    · exact (keeps_arguments hrun h.2).bind fun _ => (hrun.still _ _ _ _).keeps
    · exact (still_fault _ _).keeps
  · refine (hrun.expr _ h.1).bind fun v => ?_
    split
    · refine (keeps_arguments hrun ?_).bind fun _ => (still_pure _).keeps
      exact Bool.and_eq_true_iff.mpr h.2
    · exact (still_fault _ _).keeps
  · refine (still_noteRead _).keeps.bind fun _ => .get_bind fun m => ?_
    split
    · exact (still_pure _).keeps
    · exact (still_pure _).keeps
    · exact (still_fault _ _).keeps
  · exact (hrun.expr _ h).bind fun _ => (still_pure _).keeps
  · refine (hrun.expr _ h).bind fun v => ?_
    split
    · exact .get_bind fun _ => (still_pure _).keeps
    · exact (still_fault _ _).keeps
  · refine (hrun.expr _ h.1).bind fun v => (hrun.expr _ h.2).bind fun w => ?_
    split
    · exact (still_pure _).keeps
    · exact (still_fault _ _).keeps
    · exact (still_fault _ _).keeps

theorem keeps_ofLink (hrun : run.Spares name) {l : Link} (h : l.spares name = true) :
    Keeps name (Move.ofLink run l) := by
  cases l with
  | property => exact (still_pure _).keeps
  | method n args pos opPos safe =>
    refine (keeps_mapM fun e he => hrun.expr e ?_).bind fun _ => (still_pure _).keeps
    exact Expr.allSpare_iff.mp h e he
  | index key opPos safe => exact (hrun.expr key h).bind fun _ => (still_pure _).keeps

theorem keeps_chain (hrun : run.Spares name) {root : Expr} (hroot : root.isVar name = false)
    (hspares : root.spares name = true) {links : List Link} (h : Link.allSpare name links = true)
    (write : Option (String × Value × Pos)) : Keeps name (chain env run root links write) := by
  refine (keeps_mapM fun l hl => keeps_ofLink hrun (Link.allSpare_iff.mp h l hl)).bind fun moves => ?_
  have followed {α : Type} {x : Exec α} (hx : Keeps name x) (pos : Pos) : Keeps name (Exec.at_ pos x) :=
    hx.catching fun _ => (still_throw _).keeps
  dsimp only
  split
  · next n pos =>
    have hn : n ≠ name := by simpa [Expr.isVar] using hroot
    refine (still_tick _).keeps.bind fun _ => Keeps.bind (followed ?_ _) fun _ => (still_pure _).keeps
    exact keeps_onVariable hn _ fun _ => Place.still_walk hrun.still _ _ _ _
  · refine .get_bind fun m => ?_
    split
    · refine Keeps.bind (followed ?_ _) fun _ => (still_pure _).keeps
      exact ((Place.still_walk hrun.still _ _ _ _).onCell _).keeps
    · exact (still_fault _ _).keeps
  · refine (hrun.expr _ hspares).bind fun v => Keeps.bind (followed ?_ _) fun _ => (still_pure _).keeps
    exact ((Place.still_walk hrun.still _ _ _ _).onValue _).keeps

theorem keeps_expr (hrun : run.Spares name) {e : Expr} (h : e.spares name = true) :
    Keeps name (expr env run e) := by
  unfold expr
  split
  · exact (still_pure _).keeps
  · exact (keeps_template hrun _ h).bind fun _ => (still_pure _).keeps
  · exact (keeps_items hrun _ h).bind fun _ => (still_pure _).keeps
  · exact (keeps_entries hrun _ h).bind fun _ => (still_pure _).keeps
  · exact (still_readVariable _ _).keeps
  · refine .get_bind fun m => ?_
    split
    · exact (still_pure _).keeps
    · exact (still_fault _ _).keeps
  · simp only [Expr.spares, Bool.and_eq_true, Bool.not_eq_true'] at h
    exact keeps_call hrun _ _ h.1 h.2
  · simp only [Expr.spares] at h
    exact (hrun.expr _ h).bind fun _ => (still_ofExcept _ _).keeps
  · next left right pos =>
    simp only [Expr.spares, Bool.and_eq_true, Bool.not_eq_true'] at h
    refine keeps_applyNamed hrun _ _ (by simpa using h.1.1) ?_
    simp only [Expr.allSpare, h.1.2, h.2, Bool.and_true]
  · next left right pos =>
    simp only [Expr.spares, Bool.and_eq_true, Bool.not_eq_true'] at h
    refine (keeps_applyNamed hrun _ _ (by simpa using h.1.1) ?_).bind fun _ => (still_ofExcept _ _).keeps
    simp only [Expr.allSpare, h.1.2, h.2, Bool.and_true]
  · simp only [Expr.spares, Bool.and_eq_true] at h
    refine (hrun.expr _ h.1.2).bind fun a => (hrun.expr _ h.2).bind fun b => .get_bind fun m => ?_
    exact (still_ofExcept _ _).keeps.bind fun v => (still_sized _ _).keeps
  · obtain ⟨hleft, hright⟩ := Bool.and_eq_true_iff.mp h
    refine (keeps_condition hrun hleft).bind fun _ => .ite ?_ (still_pure _).keeps
    exact (keeps_condition hrun hright).bind fun _ => (still_pure _).keeps
  · obtain ⟨hleft, hright⟩ := Bool.and_eq_true_iff.mp h
    refine (keeps_condition hrun hleft).bind fun _ => .ite (still_pure _).keeps ?_
    exact (keeps_condition hrun hright).bind fun _ => (still_pure _).keeps
  · obtain ⟨hleft, hright⟩ := Bool.and_eq_true_iff.mp h
    exact (hrun.expr _ hleft).bind fun _ => .ite (hrun.expr _ hright) (still_pure _).keeps
  · simp only [Expr.spares, Bool.and_eq_true, Bool.not_eq_true'] at h
    exact keeps_chain hrun h.1.1 h.1.2 h.2 none
  · next captured _ =>
    simp only [Expr.spares, Bool.not_eq_true', List.any_eq_false, beq_iff_eq] at h
    exact (keeps_mapM fun c hc => keeps_share (h c hc) _).bind fun _ => (still_pure _).keeps
  · exact (hrun.stmt _ h).scoped

/-! ### Loops -/

section Loops

variable {P : List Slot → Prop}

/-- A handler that catches what leaves a loop or one of its turns only passes on or gives a value. -/
theorem still_leaving (s : Stop) : Still (match s with
    | .broken v => return some v
    | .continued => return none
    | s => throw s : Exec (Option Value)) := by
  cases s <;> exact fun _ => rfl

theorem keeps_turn {body : Exec Value} (hbody : Keeps name body) : Keeps name (turn body) :=
  (hbody.bind fun _ => (still_pure _).keeps).catching fun s => (still_leaving s).keeps

theorem keeps_repeatTurns {turn : Exec (Option Value)} (ht : Keeps name turn) (n : Nat) :
    Keeps name (repeatTurns turn n) := by
  induction n with
  | zero => exact (still_throw _).keeps
  | succ n ih =>
    rw [repeatTurns_succ]
    refine ht.bind fun r => ?_
    split
    · exact ih
    · exact (still_pure _).keeps

theorem rewrites_eachItem (hP : ∀ s s', P s → Rewritten name s s' → P s') {item : Nat → Option Value}
    {turn : Nat → Value → Exec (Option Value)} (ht : ∀ i v, Rewrites P name (turn i v)) (n i : Nat) :
    Rewrites P name (eachItem item turn n i) := by
  induction n generalizing i with
  | zero => exact (still_throw _).rewrites
  | succ n ih =>
    rw [eachItem_succ]
    split
    · exact (still_pure _).rewrites
    · refine (ht _ _).bind hP fun r => ?_
      split
      · exact ih _
      · exact (still_pure _).rewrites

theorem still_stepsLeft : Still (stepsLeft env) :=
  .get_bind fun _ => still_pure _

theorem still_itemsOf (v : Value) (pos : Pos) : Still (itemsOf v pos) := by
  unfold itemsOf
  split
  · exact still_pure _
  · exact still_pure _
  · exact still_pure _
  · exact still_fault _ _

/-- Whether the variables at these places in scope may be written: none of them is the one to spare. -/
def Writable (name : String) (places : List Nat) (s : List Slot) : Prop :=
  ∀ i ∈ places, ∀ slot, s[i]? = some slot → slot.name ≠ name

theorem Writable.rewritten {places : List Nat} {s s' : List Slot} (h : Writable name places s)
    (hs : Rewritten name s s') : Writable name places s' := by
  intro i hi slot hslot
  have hnames := congrArg (·[i]?) hs.names
  simp only [List.getElem?_map, hslot, Option.map_some] at hnames
  obtain ⟨slot₀, hslot₀, hname⟩ := Option.map_eq_some_iff.mp hnames.symm
  exact hname ▸ h i hi slot₀ hslot₀

theorem rewrites_writeSlot {places : List Nat} {i : Nat} (hi : i ∈ places) (v : Value) :
    Rewrites (Writable name places) name (writeSlot i v) := by
  intro m hm
  unfold writeSlot
  rw [Stateful.bind_apply, get_apply]
  dsimp only
  cases hslot : m.scope[i]? with
  | none => exact .refl _
  | some slot =>
    obtain ⟨n, constant, held⟩ := slot
    cases held with
    | cell id => exact .refl _
    | _ => exact .set hslot (hm i hi _ hslot) v

theorem keeps_forLoop (hrun : run.Spares name) {n : String} (hn : n ≠ name) {counter : Option String}
    (hcounter : counter ≠ some name) {subject : Expr} (hsubject : subject.spares name = true) {body : List Stmt}
    (hbody : Stmt.allSpare name body = true) (pos : Pos) :
    Keeps name (forLoop env run n counter subject body pos) := by
  refine (hrun.expr subject hsubject).bind fun v => (still_itemsOf v _).keeps.bind fun item =>
    still_stepsLeft.keeps.bind fun fuel => Spares.scoped ?_
  have loop (places : List Nat) (hfirst : 0 ∈ places) (hsecond : counter.isSome → 1 ∈ places) :
      Rewrites (Writable name places) name (eachItem item (fun i v => do
        if counter.isSome then writeSlot 1 (.int i)
        writeSlot 0 v
        tick env pos
        turn (scoped_ (runAll run body))) fuel 0) := by
    have hP (s s' : List Slot) (h : Writable name places s) (hs : Rewritten name s s') : Writable name places s' :=
      h.rewritten hs
    refine rewrites_eachItem hP (fun i v => ?_) fuel 0
    have taken : Rewrites (Writable name places) name (do
        writeSlot 0 v
        tick env pos
        turn (scoped_ (runAll run body))) := by
      refine (rewrites_writeSlot hfirst v).bind hP fun _ => (still_tick pos).rewrites.bind hP fun _ => ?_
      refine Rewrites.catching hP ?_ fun s => (still_leaving s).rewrites
      exact (spares_runAll hrun hbody).scoped.rewrites.bind hP fun _ => (still_pure _).rewrites
    dsimp only
    split
    · next hsome => exact (rewrites_writeSlot (hsecond hsome) _).bind hP fun _ => taken
    · exact taken
  -- the variables of the loop stand first in scope, so the places that are written are theirs
  cases counter with
  | none =>
    refine fun m => .declare_bind hn (.of_rewritten (loop [0] (.head _) nofun _ ?_))
    simp [Writable, hn]
  | some counter =>
    have hc : counter ≠ name := fun h => hcounter (congrArg some h)
    refine fun m => .declare_bind hc (.declare_bind hn (.of_rewritten (loop [0, 1] ?_ ?_ _ ?_)))
    · exact .head _
    · exact fun _ => .tail _ (.head _)
    · simp [Writable, hn, hc]

end Loops

/-! ### Choices -/

/-- A computation that gives a value of some kind, if it gives one. -/
def Gives (P : α → Prop) (x : Exec α) : Prop :=
  ∀ m a, (x m).1 = .ok a → P a

theorem gives_any (x : Exec α) : Gives (fun _ => True) x :=
  fun _ _ _ => trivial

theorem gives_pure {P : α → Prop} {a : α} (h : P a) : Gives P (pure a) := by
  intro m a' ha
  obtain rfl := Except.ok.inj ha
  exact h

theorem Gives.bind {P : α → Prop} {Q : β → Prop} {x : Exec α} {f : α → Exec β} (hx : Gives P x)
    (hf : ∀ a, P a → Gives Q (f a)) : Gives Q (x >>= f) := by
  intro m b hb
  rw [Stateful.bind_apply] at hb
  rcases hrun : x m with ⟨_ | a, m₁⟩
  · rw [hrun] at hb
    cases hb
  · rw [hrun] at hb
    exact hf a (hx m a (congrArg Prod.fst hrun)) m₁ b hb

theorem Gives.ite {P : α → Prop} {c : Prop} [Decidable c] {x y : Exec α} (hx : Gives P x) (hy : Gives P y) :
    Gives P (if c then x else y) := by
  split
  · exact hx
  · exact hy

theorem Keeps.bind_gives {P : α → Prop} {x : Exec α} {f : α → Exec β} (hx : Keeps name x) (hg : Gives P x)
    (hf : ∀ a, P a → Keeps name (f a)) : Keeps name (x >>= f) := by
  intro m
  have hm := hx m
  unfold KeepsOn at hm ⊢
  rw [Stateful.bind_apply]
  rcases hrun : x m with ⟨_ | a, m₁⟩
  · rw [hrun] at hm
    exact hm
  · rw [hrun] at hm
    exact hm.trans (hf a (hg m a (congrArg Prod.fst hrun)) m₁)

theorem keeps_matchesValue (hrun : run.Spares name) (v : Value) {ps : List Pattern}
    (h : Pattern.allSpare name ps = true) : Keeps name (matchesValue run v ps) := by
  induction ps with
  | nil => exact (still_pure _).keeps
  | cons p rest ih =>
    obtain ⟨hp, hrest⟩ := Bool.and_eq_true_iff.mp h
    cases p with
    | value e => exact (hrun.expr e hp).bind fun _ => .ite (still_pure _).keeps (ih hrest)
    | range => exact ih hrest

theorem keeps_casesOf (hrun : run.Spares name) (v : Value) {cs : List Case} (h : Case.allSpare name cs = true) :
    Keeps name (casesOf run v cs) := by
  induction cs with
  | nil => exact (still_pure _).keeps
  | cons c rest ih =>
    obtain ⟨hc, hrest⟩ := Bool.and_eq_true_iff.mp h
    rcases c with ⟨patterns, condition, action⟩
    simp only [Case.spares, Bool.and_eq_true] at hc
    exact (keeps_matchesValue hrun v hc.1.1).bind fun _ => (ih hrest).bind fun _ => (still_pure _).keeps

/-- The cases that name a value are some of all. -/
theorem gives_casesOf (v : Value) (cs : List Case) : Gives (fun found => ∀ c ∈ found, c ∈ cs) (casesOf run v cs) := by
  induction cs with
  | nil => exact gives_pure nofun
  | cons c rest ih =>
    rcases c with ⟨patterns, condition, action⟩
    refine (gives_any _).bind fun here _ => ih.bind fun others hothers => gives_pure ?_
    cases here with
    | true => exact List.cons_subset_cons _ hothers
    | false => exact fun c hc => .tail _ (hothers c hc)

theorem keeps_firstCase (hrun : run.Spares name) {cs : List Case} (h : Case.allSpare name cs = true) :
    Keeps name (firstCase run cs) := by
  induction cs with
  | nil => exact (still_pure _).keeps
  | cons c rest ih =>
    obtain ⟨hc, hrest⟩ := Bool.and_eq_true_iff.mp h
    rcases c with ⟨patterns, _ | e, action⟩
    · exact (still_pure _).keeps
    · simp only [Case.spares, Expr.optionSpares, Bool.and_eq_true] at hc
      exact (keeps_condition hrun hc.1.2).bind fun _ => .ite (still_pure _).keeps (ih hrest)

theorem gives_firstCase {cs : List Case} (h : Case.allSpare name cs = true) :
    Gives (fun action => Stmt.optionSpares name action = true) (firstCase run cs) := by
  induction cs with
  | nil => exact gives_pure rfl
  | cons c rest ih =>
    obtain ⟨hc, hrest⟩ := Bool.and_eq_true_iff.mp h
    rcases c with ⟨patterns, _ | e, action⟩
    · exact gives_pure (Bool.and_eq_true_iff.mp hc).2
    · exact (gives_any _).bind fun _ _ => .ite (gives_pure (Bool.and_eq_true_iff.mp hc).2) (ih hrest)

theorem keeps_runCase (hrun : run.Spares name) {candidates : List Case} (h : Case.allSpare name candidates = true)
    {default : Option Stmt} (hdefault : Stmt.optionSpares name default = true) :
    Keeps name (runCase run candidates default) := by
  refine (keeps_firstCase hrun h).bind_gives (gives_firstCase h) fun action haction => ?_
  rcases action with _ | s
  · rcases default with _ | s
    · exact (still_pure _).keeps
    · exact (hrun.stmt s hdefault).scoped
  · exact (hrun.stmt s haction).scoped

theorem keeps_switch (hrun : run.Spares name) {subject : Expr} (hsubject : subject.spares name = true)
    {cases : List Case} (h : Case.allSpare name cases = true) {default : Option Stmt}
    (hdefault : Stmt.optionSpares name default = true) : Keeps name (switch run subject cases default) := by
  rw [switch_eq]
  refine (hrun.expr subject hsubject).bind fun v =>
    (keeps_casesOf hrun v h).bind_gives (gives_casesOf v cases) fun named hnamed => ?_
  refine keeps_runCase hrun (Case.allSpare_iff.mpr fun c hc => Case.allSpare_iff.mp h c ?_) hdefault
  split at hc
  · exact (List.mem_filter.mp hc).1
  · exact hnamed c hc

/-! ### Statements -/

theorem keeps_runEmptied (hrun : run.Spares name) {body : List Stmt} (h : Stmt.allSpare name body = true) :
    Keeps name (runEmptied run body) :=
  (spares_runAll hrun h).scoped.bind fun _ => (still_pure _).keeps

theorem keeps_handle (hrun : run.Spares name) {handler : List Stmt} (h : Stmt.allSpare name handler = true)
    (cause : Fault) : Keeps name (handle run handler cause) := by
  refine (keeps_runEmptied hrun h).catching fun s => ?_
  split
  · exact (still_fault _ _).keeps
  · exact (still_throw _).keeps

theorem keeps_tryStmt (hrun : run.Spares name) {body : List Stmt} (hbody : Stmt.allSpare name body = true)
    {n : Option String} (hn : n ≠ some name) {handler : List Stmt} (hhandler : Stmt.allSpare name handler = true) :
    Keeps name (tryStmt env run body n handler) := by
  rw [tryStmt_eq]
  refine (keeps_runEmptied hrun hbody).catching fun s => ?_
  split
  · next cause pos =>
    have handled := keeps_handle hrun hhandler cause
    refine Spares.scoped ?_
    cases n with
    | none => exact handled.spares
    | some n =>
      have hname : n ≠ name := fun h => hn (congrArg some h)
      dsimp only
      split
      · exact fun m => .declare_bind hname (handled.spares _)
      · exact ((still_throw _).keeps.bind fun _ => handled).spares
  · exact (still_throw _).keeps

theorem keeps_assign (hrun : run.Spares name) (op : String) {target : Expr} (htarget : target.isVar name = false)
    (hspares : target.spares name = true) {value : Expr} (hvalue : value.spares name = true) (pos : Pos) :
    Keeps name (assign env run op target value pos) := by
  refine (hrun.expr value hvalue).bind fun v => ?_
  split
  · next n at_ =>
    have hn : n ≠ name := by simpa [Expr.isVar] using htarget
    refine (still_tick _).keeps.bind fun _ => Keeps.bind ?_ fun _ => (still_pure _).keeps
    exact keeps_onVariable hn _ fun _ => Place.still_assign _ _
  · refine .get_bind fun m => ?_
    split
    · exact ((Place.still_assign _ _).onCell _).keeps.bind fun _ => (still_pure _).keeps
    · exact (still_fault _ _).keeps
  · simp only [Expr.spares, Bool.and_eq_true, Bool.not_eq_true'] at hspares
    exact (keeps_chain hrun hspares.1.1 hspares.1.2 hspares.2 _).bind fun _ => (still_pure _).keeps
  · exact (still_pure _).keeps

/-- A statement leaves nothing new in scope, unless it is a declaration. -/
theorem keeps_stmt (hrun : run.Spares name) {s : Stmt} (h : s.spares name = true) (hs : s.declaration? = none) :
    Keeps name (stmt env run s) := by
  have blocked {body : List Stmt} (hbody : Stmt.allSpare name body = true) :
      Keeps name (scoped_ (runAll run body)) := (spares_runAll hrun hbody).scoped
  unfold stmt
  split <;> simp only [Stmt.spares, Bool.and_eq_true, Bool.not_eq_true', bne_iff_ne] at h
  · exact (still_pure _).keeps
  · exact hrun.expr _ h
  · cases hs
  · exact keeps_assign hrun _ h.1.1 h.1.2 h.2 _
  · exact (still_tick _).keeps.bind fun _ => blocked h
  · refine (still_tick _).keeps.bind fun _ => (keeps_condition hrun h.1.1).bind fun _ => ?_
    exact .ite (blocked h.1.2) (blocked h.2)
  · next e body pos =>
    refine still_stepsLeft.keeps.bind fun fuel => keeps_repeatTurns ?_ fuel
    have goesOn (goOn : Bool) :
        Keeps name (if goOn then turn (scoped_ (runAll run body)) else return some .unit) :=
      .ite (keeps_turn (blocked h.2)) (still_pure _).keeps
    refine (still_tick _).keeps.bind fun _ => ?_
    cases e with
    | none => exact (still_pure _).keeps.bind goesOn
    | some e => exact (keeps_condition hrun h.1).bind goesOn
  · refine still_stepsLeft.keeps.bind fun fuel => keeps_repeatTurns (Keeps.catching ?_ fun s => ?_) fuel
    · refine (still_tick _).keeps.bind fun _ => (blocked h.1).bind fun _ => ?_
      exact (keeps_condition hrun h.2).bind fun _ => .ite (still_pure _).keeps (still_pure _).keeps
    · exact (still_leaving s).keeps
  · exact keeps_forLoop hrun h.1.1.1 h.1.1.2 h.1.2 h.2 _
  · exact (still_tick _).keeps.bind fun _ => keeps_switch hrun h.1.1 h.1.2 h.2
  · exact (still_tick _).keeps.bind fun _ => keeps_tryStmt hrun h.1.2 h.1.1 h.2
  · split
    · exact (hrun.expr _ h).bind fun _ => (still_throw _).keeps
    · exact (still_throw _).keeps
  · split
    · exact (hrun.expr _ h).bind fun _ => (still_fault _ _).keeps
    · exact (still_fault _ _).keeps
  · split
    · exact (hrun.expr _ h).bind fun _ => (still_throw _).keeps
    · exact (still_throw _).keeps
  · exact (still_throw _).keeps
  · refine (hrun.expr _ h).bind fun v => ?_
    split
    · exact (still_fault _ _).keeps
    · exact (still_fault _ _).keeps

/-- What is declared is given its value before it comes into scope. -/
theorem keeps_initial (hrun : run.Spares name) {value : Option Expr} (h : Expr.optionSpares name value = true)
    (pos : Pos) : Keeps name (initial env run value pos) := by
  refine (still_tick pos).keeps.bind fun _ => ?_
  cases value with
  | none => exact (still_pure _).keeps
  | some e => exact hrun.expr e h

theorem spares_stmt (hrun : run.Spares name) {s : Stmt} (h : s.spares name = true) : Spares name (stmt env run s) := by
  cases s with
  | declare n constant value pos =>
    simp only [Stmt.spares, Bool.and_eq_true, bne_iff_ne] at h
    rw [declare_eq]
    exact (keeps_initial hrun h.2 pos).spares.bind fun v m => .declare_bind h.1 (.refl _)
  | _ => exact (keeps_stmt hrun h rfl).spares

end Exec

/-- The evaluator spares a variable with every expression and every statement that does. -/
theorem spares_evaluate (env : Env) (name : String) (fuel : Nat) : Runner.Spares name (evaluate env fuel) := by
  induction fuel with
  | zero => exact ⟨still_evaluate env 0, fun _ _ => (Exec.still_throw _).keeps, fun _ _ => (Exec.still_throw _).spares⟩
  | succ fuel ih =>
    refine ⟨still_evaluate env (fuel + 1), fun e he => ?_, fun s hs => Exec.spares_stmt ih hs⟩
    exact (Exec.still_tick _).keeps.bind fun _ => Exec.keeps_expr ih he

end ScriptAgent
