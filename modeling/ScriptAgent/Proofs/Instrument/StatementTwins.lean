import ScriptAgent.Proofs.Instrument.ExpressionTwins
import ScriptAgent.Proofs.Sandbox.EvaluationConduct

/-!
# Executing statements agrees

Loops of the two runs take the same turns, however many they are allowed: a run that takes all of its
turns has hit a limit.  Handlers are given what agrees by assumption, and pass on what they do not
know.
-/

namespace ScriptAgent

open Script (Value Fault Pos Expr Stmt Case Pattern)

/-- A statement is left with a value, not with none, of a silent loop that is the empty one. -/
theorem Yields.weaken {valued silent : Bool} {a b : Value} (h : Yields true silent a b) : Yields valued silent a b :=
  ⟨fun _ => h.1 rfl, h.2⟩

section Parts

variable {mute : Bool} {env env' : Env} {run run' : Runner}

namespace Exec

/-! ### Loops -/

/-- Turns of a loop that go on or leave it alike. -/
def Turned (mute : Bool) (a b : Option Value) : Prop :=
  b = a ∧ (mute = true → a.getD .unit = .unit)

/-- A turn is left by leaving the loop and by going on. -/
theorem Agrees.leaving {x y : Exec (Option Value)} (h : Agrees mute (Turned mute) x y) :
    Agrees mute (Turned mute)
      (tryCatch x fun
        | .broken v => return some v
        | .continued => return none
        | s => throw s)
      (tryCatch y fun
        | .broken v => return some v
        | .continued => return none
        | s => throw s) := by
  refine h.handling (fun s hs => ?_) (fun s hs => ?_) fun s s' hs => ?_
  · cases s <;> first | rfl | cases hs
  · cases s <;> first | rfl | cases hs
  · cases hs with
    | fault h p p' => exact agrees_throw (.fault h p p')
    | returned v => exact agrees_throw (.returned v)
    | broken h => exact agrees_pure ⟨rfl, h⟩
    | continued => exact agrees_pure ⟨rfl, fun _ => rfl⟩

theorem agrees_turn {R : Value → Value → Prop} {x y : Exec Value} (h : Agrees mute R x y) :
    Agrees mute (Turned mute) (turn x) (turn y) :=
  Agrees.leaving (h.bind fun _ _ _ => agrees_pure ⟨rfl, fun _ => rfl⟩)

/-- The turns are the same until one of the runs has no more of them. -/
theorem agrees_repeatTurns {x y : Exec (Option Value)} (h : Agrees mute (Turned mute) x y) (n n' : Nat) :
    Agrees mute (Yields true mute) (repeatTurns x n) (repeatTurns y n') := by
  induction n generalizing n' with
  | zero => exact agrees_left rfl _
  | succ n ih =>
    cases n' with
    | zero => exact agrees_right rfl _
    | succ n' =>
      rw [repeatTurns_succ, repeatTurns_succ]
      refine h.bind fun a b hab => ?_
      obtain ⟨rfl, hm⟩ := hab
      cases b with
      | none => exact ih n'
      | some v => exact agrees_pure ⟨fun _ => rfl, hm⟩

theorem agrees_eachItem (item : Nat → Option Value) {f g : Nat → Value → Exec (Option Value)}
    (h : ∀ i v, Agrees mute (Turned mute) (f i v) (g i v)) (n n' i : Nat) :
    Agrees mute (Yields true mute) (eachItem item f n i) (eachItem item g n' i) := by
  induction n generalizing n' i with
  | zero => exact agrees_left rfl _
  | succ n ih =>
    cases n' with
    | zero => exact agrees_right rfl _
    | succ n' =>
      rw [eachItem_succ, eachItem_succ]
      cases item i with
      | none => exact agrees_pure ⟨fun _ => rfl, fun _ => rfl⟩
      | some v =>
        refine (h i v).bind fun a b hab => ?_
        obtain ⟨rfl, hm⟩ := hab
        cases b with
        | none => exact ih n' (i + 1)
        | some v => exact agrees_pure ⟨fun _ => rfl, hm⟩

theorem agrees_stepsLeft : Agrees mute (fun _ _ => True) (stepsLeft env) (stepsLeft env') :=
  .get_bind fun _ _ _ => agrees_pure trivial

theorem agrees_writeSlot (i : Nat) (v : Value) : Agrees mute Eq (writeSlot i v) (writeSlot i v) := by
  intro m m' hm
  refine .get_bind ?_
  rw [hm.scope]
  split
  · next id _ =>
    have hcells := congrArg (·.setIfInBounds id v) hm.cells
    exact .ok rfl (hm.move { hm with scope := rfl, cells := hcells } rfl rfl)
  · exact .ok rfl (hm.move { hm with scope := rfl } rfl rfl)
  · exact .ok rfl hm

theorem agrees_itemsOf (v : Value) (p p' : Pos) : Agrees mute Eq (itemsOf v p) (itemsOf v p') := by
  unfold itemsOf
  split
  · exact agrees_pure rfl
  · exact agrees_pure rfl
  · exact agrees_pure rfl
  · exact agrees_fault rfl _ _

theorem agrees_forLoop (hrun : run.Twin mute run') (name : String)
    (counter : Option String) {e e' : Expr} {ss ss' : List Stmt} (he : e.Woven mute e')
    (h : Script.Stmts.Woven mute false ss ss') (p p' : Pos) :
    Agrees mute (Yields true mute) (forLoop env run name counter e ss p) (forLoop env' run' name counter e' ss' p') := by
  have turns (i : Nat) (v : Value) : Agrees mute (Turned mute)
      (do
        if counter.isSome then writeSlot 1 (.int i)
        writeSlot 0 v
        tick env p
        turn (scoped_ (runAll run ss)))
      (do
        if counter.isSome then writeSlot 1 (.int i)
        writeSlot 0 v
        tick env' p'
        turn (scoped_ (runAll run' ss'))) := by
    refine Agrees.guard (agrees_writeSlot _ _) (f := fun _ => _) (g := fun _ => _) ?_
    refine (agrees_writeSlot _ _).bind_eq fun _ => (agrees_tick _ _).bind_eq fun _ => ?_
    exact agrees_turn (agrees_runAll hrun h).scoped
  refine (hrun.expr he).bind_eq fun v => (agrees_itemsOf v _ _).bind_eq fun item => ?_
  refine agrees_stepsLeft.bind fun n n' _ => Agrees.scoped ?_
  have items : Agrees mute (Yields true mute) _ _ :=
    (agrees_declare name false .unit).bind_eq fun _ => agrees_eachItem item turns n n' 0
  cases counter with
  | none => exact items
  | some counter => exact (agrees_declare counter false (.int 0)).bind_eq fun _ => items

/-! ### Choices -/

theorem agrees_matchesValue (hrun : run.Twin mute run') (v : Value) {ps ps' : List Pattern}
    (h : List.Forall₂ (Pattern.Woven mute) ps ps') :
    Agrees mute Eq (matchesValue run v ps) (matchesValue run' v ps') := by
  induction h with
  | nil => exact agrees_pure rfl
  | cons h _ ih =>
    cases h with
    | value h => exact (hrun.expr h).bind_eq fun _ => .ite (agrees_pure rfl) ih
    | range => exact ih

theorem matchesRange_woven (v : Value) {ps ps' : List Pattern} (h : List.Forall₂ (Pattern.Woven mute) ps ps') :
    matchesRange v ps' = matchesRange v ps := by
  unfold matchesRange
  induction h with
  | nil => rfl
  | cons h _ ih =>
    rw [List.any_cons, List.any_cons, ih]
    cases h <;> rfl

/-- Cases are left that were there: woven, and silent if all were. -/
def Left (mute valued : Bool) (all cs cs' : List Case) : Prop :=
  Script.Cases.Woven mute valued cs cs' ∧ (Case.allSilent mute all = true → Case.allSilent mute cs = true)

theorem Left.skip {valued : Bool} {c : Case} {all cs cs' : List Case} (h : Left mute valued all cs cs') :
    Left mute valued (c :: all) cs cs' := by
  refine ⟨h.1, fun hall => h.2 ?_⟩
  simp only [Case.allSilent, Bool.and_eq_true] at hall
  exact hall.2

theorem Left.keep {valued : Bool} {ps ps' : List Pattern} {e e' : Option Expr} {s s' : Stmt}
    {all cs cs' : List Case} (hp : List.Forall₂ (Pattern.Woven mute) ps ps')
    (he : Option.Rel (Expr.Woven mute) e e') (hs : s.Woven mute valued s') (h : Left mute valued all cs cs') :
    Left mute valued (.mk ps e s :: all) (.mk ps e s :: cs) (.mk ps' e' s' :: cs') := by
  refine ⟨.cons hp he hs h.1, fun hall => ?_⟩
  simp only [Case.allSilent, Bool.and_eq_true] at hall ⊢
  exact ⟨hall.1, h.2 hall.2⟩

theorem agrees_casesOf (hrun : run.Twin mute run') (v : Value) {valued : Bool} {cs cs' : List Case}
    (h : Script.Cases.Woven mute valued cs cs') :
    Agrees mute (Left mute valued cs) (casesOf run v cs) (casesOf run' v cs') := by
  induction cs generalizing cs' with
  | nil =>
    cases h
    exact agrees_pure ⟨.nil _, id⟩
  | cons c cs ih =>
    cases h with
    | cons hp he hs hc =>
      refine (agrees_matchesValue hrun v hp).bind_eq fun here => (ih hc).bind fun ds ds' hds => agrees_pure ?_
      cases here with
      | true => exact hds.keep hp he hs
      | false => exact hds.skip

theorem filter_woven (v : Value) {valued : Bool} {cs cs' : List Case}
    (h : Script.Cases.Woven mute valued cs cs') :
    Left mute valued cs
      (cs.filter fun
        | .mk patterns _ _ => matchesRange v patterns)
      (cs'.filter fun
        | .mk patterns _ _ => matchesRange v patterns) := by
  induction cs generalizing cs' with
  | nil =>
    cases h
    exact ⟨.nil _, id⟩
  | cons c cs ih =>
    cases h with
    | cons hp he hs hc =>
      rw [List.filter_cons, List.filter_cons]
      simp only [matchesRange_woven v hp]
      split
      · exact (ih hc).keep hp he hs
      · exact (ih hc).skip

/-- Of woven cases woven ones are chosen, and a silent one if all are. -/
theorem agrees_firstCase (hrun : run.Twin mute run') {valued : Bool} {cs cs' : List Case}
    (h : Script.Cases.Woven mute valued cs cs') :
    Agrees mute (fun d d' => Script.Default.Woven mute valued d d' ∧
        (Case.allSilent mute cs = true → Stmt.optionSilent mute d = true))
      (firstCase run cs) (firstCase run' cs') := by
  induction cs generalizing cs' with
  | nil =>
    cases h
    exact agrees_pure ⟨.none _, fun _ => rfl⟩
  | cons c cs ih =>
    cases h with
    | cons hp he hs hc =>
      have hhead {s : Stmt} {ps : List Pattern} {e : Option Expr} (hall : Case.allSilent mute (.mk ps e s :: cs) = true) :
          s.isSilent mute = true ∧ Case.allSilent mute cs = true := by
        simpa only [Case.allSilent, Case.isSilent, Bool.and_eq_true] using hall
      cases he with
      | none => exact agrees_pure ⟨.some hs, fun hall => (hhead hall).1⟩
      | some he =>
        refine (agrees_condition hrun he).bind_eq fun b => .ite ?_ ?_
        · exact agrees_pure ⟨.some hs, fun hall => (hhead hall).1⟩
        · exact (ih hc).mono fun d d' hd => ⟨hd.1, fun hall => hd.2 (hhead hall).2⟩

theorem agrees_runCase (hrun : run.Twin mute run') {valued : Bool} {cs candidates candidates' : List Case}
    {d d' : Option Stmt} (h : Left mute valued cs candidates candidates') (hd : Script.Default.Woven mute valued d d') :
    Agrees mute (Yields valued (Case.allSilent mute cs && Stmt.optionSilent mute d))
      (runCase run candidates d) (runCase run' candidates' d') := by
  refine (agrees_firstCase hrun h.1).bind fun a a' ha => ?_
  have action {s s' : Stmt} (hs : s.Woven mute valued s')
      (hsilent : (Case.allSilent mute cs && Stmt.optionSilent mute d) = true → s.isSilent mute = true) :
      Agrees mute (Yields valued (Case.allSilent mute cs && Stmt.optionSilent mute d))
        (scoped_ (run (.stmt s))) (scoped_ (run' (.stmt s'))) :=
    (hrun.stmt hs).scoped.mono fun _ _ hv => ⟨hv.1, fun hall => hv.2 (hsilent hall)⟩
  obtain ⟨ha, hsilent⟩ := ha
  simp only [Bool.and_eq_true] at action ⊢
  cases ha with
  | some hs => exact action hs fun hall => hsilent (h.2 hall.1)
  | none =>
    cases hd with
    | some hs => exact action hs fun hall => hall.2
    | none => exact agrees_pure ⟨fun _ => rfl, fun _ => rfl⟩

theorem agrees_switch (hrun : run.Twin mute run') {valued : Bool} {e e' : Expr} {cs cs' : List Case}
    {d d' : Option Stmt} (he : e.Woven mute e') (hc : Script.Cases.Woven mute valued cs cs')
    (hd : Script.Default.Woven mute valued d d') :
    Agrees mute (Yields valued (Case.allSilent mute cs && Stmt.optionSilent mute d))
      (switch run e cs d) (switch run' e' cs' d') := by
  rw [switch_eq, switch_eq]
  refine (hrun.expr he).bind_eq fun v => (agrees_casesOf hrun v hc).bind fun named named' hnamed => ?_
  have hempty : named'.isEmpty = named.isEmpty := by cases hnamed.1 <;> rfl
  rw [hempty]
  split
  · exact agrees_runCase hrun (filter_woven v hc) hd
  · exact agrees_runCase hrun hnamed hd

/-! ### Handlers -/

/-- What a script throws is not changed by the places it passes through. -/
theorem unplaced_eq_thrown {f : Fault} {v : Value} (h : f.unplaced = .thrown v) : f = .thrown v := by
  cases f with
  | inside function closure cause p => cases h
  | _ => exact h

theorem agrees_runEmptied (hrun : run.Twin mute run') {ss ss' : List Stmt}
    (h : Script.Stmts.Woven mute false ss ss') :
    Agrees mute (Yields true true) (runEmptied run ss) (runEmptied run' ss') :=
  (agrees_runAll hrun h).scoped.bind fun _ _ _ => agrees_pure ⟨fun _ => rfl, fun _ => rfl⟩

/-- A handler that throws the empty value lets the failure go on. -/
theorem agrees_handle (hrun : run.Twin mute run') {ss ss' : List Stmt} (h : Script.Stmts.Woven mute false ss ss')
    {f f' : Fault} (hf : f'.unplaced = f.unplaced) :
    Agrees mute (Yields true true) (handle run ss f) (handle run' ss' f') := by
  refine (agrees_runEmptied hrun h).faults (fun s hs => ?_) (fun s hs => ?_) fun g g' q q' hg => ?_
  · split
    · exact absurd rfl (hs _ _)
    · rfl
  · split
    · exact absurd rfl (hs _ _)
    · rfl
  · split
    · next heq =>
      cases heq
      have hg' : g' = .thrown .unit := unplaced_eq_thrown hg
      subst hg'
      exact agrees_fault hf _ _
    · next hne =>
      split
      · next heq =>
        cases heq
        exact absurd (congrArg (Stop.fault · q) (unplaced_eq_thrown hg.symm)) (hne q)
      · exact agrees_fault hg _ _

theorem agrees_tryStmt (he : env.Twin mute env') (hrun : run.Twin mute run') (name : Option String)
    {ss ss' hs hs' : List Stmt} (h : Script.Stmts.Woven mute false ss ss') (hh : Script.Stmts.Woven mute false hs hs') :
    Agrees mute (Yields true true) (tryStmt env run ss name hs) (tryStmt env' run' ss' name hs') := by
  rw [tryStmt_eq, tryStmt_eq]
  refine (agrees_runEmptied hrun h).faults (fun s hs => ?_) (fun s hs => ?_) fun f f' q q' hf => Agrees.scoped ?_
  · cases s with
    | fault cause p => exact absurd rfl (hs cause p)
    | _ => rfl
  · cases s with
    | fault cause p => exact absurd rfl (hs cause p)
    | _ => rfl
  · cases name with
    | none => exact agrees_handle hrun hh hf
    | some name =>
      dsimp only
      rcases he.describe f f' q q' hf with ⟨s, hd, hs⟩ | ⟨s, hd, hs⟩ | ⟨v, hd, hd'⟩
      · rw [hd]
        exact agrees_left hs _
      · rw [hd]
        exact agrees_right hs _
      · rw [hd, hd']
        exact (agrees_declare name false v).bind_eq fun _ => agrees_handle hrun hh hf

/-! ### Statements -/

theorem agrees_assign (he : env.Twin mute env') (hrun : run.Twin mute run') (op : String) {t t' e e' : Expr}
    (ht : t.Woven mute t') (h : e.Woven mute e') (p p' : Pos) :
    Agrees mute (Yields true true) (assign env run op t e p) (assign env' run' op t' e' p') := by
  have done : Agrees mute (Yields true true) (pure Value.unit) (pure Value.unit) :=
    agrees_pure ⟨fun _ => rfl, fun _ => rfl⟩
  refine (hrun.expr h).bind_eq fun v => ?_
  have write (root : String) (q q' : Pos) (constant : Bool) : Place.Agrees mute Eq
      (Place.assign env constant ⟨op, v, p, root, q⟩) (Place.assign env' constant ⟨op, v, p', root, q'⟩) :=
    Place.agrees_assign he constant ⟨rfl, rfl, rfl⟩
  cases ht with
  | var name q q' =>
    refine (agrees_tick _ _).bind_eq fun _ => Agrees.bind_eq ?_ fun _ => done
    exact Place.Agrees.onVariable he (write name q q') _ _ _
  | this q q' =>
    refine .get_bind fun m m' hm => ?_
    rw [hm.this]
    split
    · exact Agrees.bind_eq ((write "this" q q' false).onCell _) fun _ => done
    · exact agrees_fault rfl _ _
  | chain hroot hlinks =>
    have hw : Option.Rel (fun w w' : String × Value × Pos => w'.1 = w.1 ∧ w'.2.1 = w.2.1)
        (some (op, v, p)) (some (op, v, p')) := .some ⟨rfl, rfl⟩
    exact (agrees_chain he hrun hroot hlinks hw).bind_eq fun _ => done
  | _ => exact done

theorem agrees_leave (hrun : run.Twin mute run') (how : Script.Leave) {e e' : Option Expr}
    (h : Option.Rel (Expr.Woven mute) e e') (p p' : Pos) {R : Value → Value → Prop} :
    Agrees mute R (stmt env run (.leave how e p)) (stmt env' run' (.leave how e' p')) := by
  cases how with
  | «return» =>
    cases h with
    | none => exact agrees_throw (.returned _)
    | some h => exact (hrun.expr h).bind_eq fun v => agrees_throw (.returned v)
  | throw =>
    cases h with
    | none => exact agrees_fault rfl _ _
    | some h => exact (hrun.expr h).bind_eq fun v => agrees_fault rfl _ _

theorem agrees_whileLoop (hrun : run.Twin mute run') {e e' : Option Expr} {ss ss' : List Stmt}
    (he : Option.Rel (Expr.Woven mute) e e') (h : Script.Stmts.Woven mute false ss ss') (p p' : Pos) :
    Agrees mute (Yields true mute) (stmt env run (.whileLoop e ss p)) (stmt env' run' (.whileLoop e' ss' p')) := by
  refine agrees_stepsLeft.bind fun n n' _ => agrees_repeatTurns ?_ n n'
  have goesOn (b : Bool) : Agrees mute (Turned mute)
      (if b then turn (scoped_ (runAll run ss)) else return some .unit)
      (if b then turn (scoped_ (runAll run' ss')) else return some .unit) :=
    .ite (agrees_turn (agrees_runAll hrun h).scoped) (agrees_pure ⟨rfl, fun _ => rfl⟩)
  refine (agrees_tick _ _).bind_eq fun _ => ?_
  cases he with
  | none => exact goesOn true
  | some he => exact (agrees_condition hrun he).bind_eq goesOn

theorem agrees_doLoop (hrun : run.Twin mute run') {e e' : Expr} {ss ss' : List Stmt}
    (h : Script.Stmts.Woven mute false ss ss') (he : e.Woven mute e') (until_ : Bool) (p p' : Pos) :
    Agrees mute (Yields true mute) (stmt env run (.doLoop ss e until_ p))
      (stmt env' run' (.doLoop ss' e' until_ p')) := by
  refine agrees_stepsLeft.bind fun n n' _ => agrees_repeatTurns (Agrees.leaving ?_) n n'
  refine (agrees_tick _ _).bind_eq fun _ => (agrees_runAll hrun h).scoped.bind fun _ _ _ => ?_
  refine (agrees_condition hrun he).bind_eq fun b => .ite ?_ ?_
  · exact agrees_pure ⟨rfl, fun _ => rfl⟩
  · exact agrees_pure ⟨rfl, fun _ => rfl⟩

theorem agrees_stmt (he : env.Twin mute env') (hrun : run.Twin mute run') {valued : Bool} {s s' : Stmt}
    (h : s.Woven mute valued s') :
    Agrees mute (Yields valued (s.isSilent mute)) (stmt env run s) (stmt env' run' s') := by
  have done (silent : Bool) : Agrees mute (Yields valued silent) (pure Value.unit) (pure Value.unit) :=
    agrees_pure ⟨fun _ => rfl, fun _ => rfl⟩
  cases h with
  | noop => exact done _
  | expr _ h => exact (hrun.expr h).mono fun _ _ hv => ⟨fun _ => hv.symm, nofun⟩
  | declare _ name constant h p q =>
    refine (agrees_tick _ _).bind_eq fun _ => ?_
    cases h with
    | none => exact (agrees_declare name constant .unit).bind_eq fun _ => done _
    | some h =>
      exact (hrun.expr h).bind_eq fun v => (agrees_declare name constant v).bind_eq fun _ => done _
  | assign _ op ht h p q => exact (agrees_assign he hrun op ht h p q).mono fun _ _ hv => hv.weaken
  | block _ h p q => exact (agrees_tick _ _).bind_eq fun _ => (agrees_runAll hrun h).scoped
  | ifElse _ hc hy hn p q =>
    refine (agrees_tick _ _).bind_eq fun _ => (agrees_condition hrun hc).bind_eq fun b => .ite ?_ ?_
    · refine (agrees_runAll hrun hy).scoped.mono fun _ _ hv => ⟨hv.1, fun hs => hv.2 ?_⟩
      exact (Bool.and_eq_true _ _ ▸ hs).1
    · refine (agrees_runAll hrun hn).scoped.mono fun _ _ hv => ⟨hv.1, fun hs => hv.2 ?_⟩
      exact (Bool.and_eq_true _ _ ▸ hs).2
  | whileLoop _ hc h p q => exact (agrees_whileLoop hrun hc h p q).mono fun _ _ hv => hv.weaken
  | doLoop _ h hc until_ p q => exact (agrees_doLoop hrun h hc until_ p q).mono fun _ _ hv => hv.weaken
  | forLoop _ name counter hc h p q =>
    exact (agrees_forLoop hrun name counter hc h p q).mono fun _ _ hv => hv.weaken
  | switch _ hc hcs hd p q => exact (agrees_tick _ _).bind_eq fun _ => agrees_switch hrun hc hcs hd
  | tryCatch _ name h hh p q =>
    refine (agrees_tick _ _).bind_eq fun _ => ?_
    exact (agrees_tryStmt he hrun name h hh).mono fun _ _ hv => hv.weaken
  | leave _ how h p q => exact agrees_leave hrun how h p q
  | «break» => exact agrees_throw (.broken fun _ => rfl)
  | breakWith _ hb h p q =>
    refine (hrun.expr h).bind_eq fun v => agrees_throw (.broken fun hm => ?_)
    exact absurd (hm.symm.trans hb) Bool.noConfusion
  | «continue» => exact agrees_throw .continued
  | importModule _ h p q =>
    refine (hrun.expr h).bind_eq fun v => ?_
    split
    · exact agrees_fault rfl _ _
    · exact agrees_fault rfl _ _

end Exec

end Parts

end ScriptAgent
