import ScriptAgent.Proofs.Instrument.Agreement
import ScriptAgent.Proofs.Instrument.Woven

/-!
# What a script does with its own part of the machine agrees

The environments of the two runs agree on everything but the functions, which are woven from each
other, the announced calls, and the places in what a handler is told.
-/

namespace ScriptAgent

open Script (Value Fault Pos)
open Stateful (bind_apply get_apply modify_apply)

/-- Environments of a script and of the script with hooks put into it. -/
structure Env.Twin (mute : Bool) (env env' : Env) : Prop where
  backend : env'.backend = env.backend
  sizes : env'.sizes = env.sizes
  slowTool : env'.slowTool = env.slowTool
  deadline : env'.deadline = env.deadline
  tools : env'.tools = env.tools
  functions : List.Forall₂ (Script.Function.Woven mute) env.functions.toList env'.functions.toList
  unshadowed : ∀ f ∈ env'.functions.toList, f.name ∉ Script.hookNames
  describe : ∀ f f' p p', f'.unplaced = f.unplaced →
    (∃ s, env.describe f p = .error s ∧ s.isLimit = true) ∨
      (∃ s, env'.describe f' p' = .error s ∧ s.isLimit = true) ∨
      ∃ v, env.describe f p = .ok v ∧ env'.describe f' p' = .ok v

namespace Exec

variable {mute : Bool} {env env' : Env} {α β : Type} {R : α → β → Prop}

theorem agrees_tick (p p' : Pos) : Agrees mute Eq (tick env p) (tick env' p') := by
  refine Agrees.bind (R := Eq) (agrees_modify fun m m' hm => ?_) fun _ _ _ => .get_bind fun m m' hm => ?_
  · exact hm.move { hm with } rfl rfl
  · simp only [hm.unraised, hm.unraised', Option.isSome_none, Bool.false_eq_true, if_false]
    split
    · exact agrees_left rfl _
    · split
      · exact agrees_right rfl _
      · exact agrees_pure rfl

/-- A step that only the second run makes. -/
theorem agrees_tickAlone (p : Pos) : Agrees mute (fun (_ : Unit) _ => True) (pure ()) (tick env p) := by
  intro m m' hm
  refine Agree.mono (R := Eq) ?_ fun _ _ _ => trivial
  unfold tick
  rw [bind_apply, modify_apply]
  dsimp only
  rw [bind_apply, get_apply]
  simp only [hm.unraised', Option.isSome_none, Bool.false_eq_true, if_false]
  split
  · exact .right rfl _ _
  · exact .ok rfl (hm.move { hm with } rfl hm.unraised'.symm)

theorem agrees_noteRead (he : env.Twin mute env') (p p' : Pos) :
    Agrees mute Eq (noteRead env p) (noteRead env' p') := by
  intro m m' hm
  refine .get_bind (.set_bind ?_)
  have hn : Machine.Twin { m with reads := m.reads + 1 } { m' with reads := m.reads + 1 } :=
    hm.move { hm with reads := rfl } rfl rfl
  rw [hm.reads, hm.scopeSize, he.sizes]
  split
  · exact agrees_left rfl _ _ _ hn
  · exact agrees_pure rfl _ _ hn

theorem agrees_checkSize (he : env.Twin mute env') (v : Value) (p p' : Pos) :
    Agrees mute Eq (checkSize env v p) (checkSize env' v p') := by
  have limited (a b c : Prop) [Decidable a] [Decidable b] [Decidable c] (s t u s' t' u' : String) :
      Agrees mute Eq (do
        if a then throw (.tooLarge s p)
        if b then throw (.tooLarge t p)
        if c then throw (.tooLarge u p) : Exec Unit) (do
        if a then throw (.tooLarge s' p')
        if b then throw (.tooLarge t' p')
        if c then throw (.tooLarge u' p') : Exec Unit) := by
    refine Agrees.guard (agrees_left rfl _) (Agrees.guard (agrees_left rfl _) (.ite (agrees_left rfl _) ?_))
    exact agrees_pure rfl
  unfold checkSize
  rw [he.sizes]
  rcases v.sizes with ⟨items, entries, text⟩
  split
  · exact limited _ _ _ _ _ _ _ _ _
  · exact limited _ _ _ _ _ _ _ _ _
  · exact limited _ _ _ _ _ _ _ _ _
  · exact agrees_pure rfl

theorem agrees_sized (he : env.Twin mute env') (v : Value) (p p' : Pos) :
    Agrees mute Eq (sized env v p) (sized env' v p') :=
  (agrees_checkSize he v p p').bind fun _ _ _ => agrees_pure rfl

theorem agrees_declare (name : String) (constant : Bool) (v : Value) :
    Agrees mute Eq (declare name constant v) (declare name constant v) :=
  agrees_modify fun _ _ hm => hm.move { hm with scope := congrArg (_ :: ·) hm.scope } rfl rfl

theorem Agrees.scoped {x : Exec α} {y : Exec β} (h : Agrees mute R x y) :
    Agrees mute R (scoped_ x) (scoped_ y) := by
  refine .get_bind fun m m' hm => ?_
  have rewound (n n' : Machine) (hn : n.Alike n') :
      Machine.Alike { n with scope := n.scope.drop (n.scope.length - m.scope.length) }
        { n' with scope := n'.scope.drop (n'.scope.length - m'.scope.length) } :=
    { hn with scope := by simp only [hn.scope, hm.scope] }
  refine (h.tidy rewound (fun _ => rfl) fun _ => rfl).bind fun a b hab => ?_
  exact (agrees_modify fun n n' hn => hn.move (rewound n n' hn.toAlike) rfl rfl).bind fun _ _ _ => agrees_pure hab

theorem agrees_newCell (v : Value) : Agrees mute Eq (newCell v) (newCell v) := by
  refine .get_bind fun m m' hm => ?_
  rw [hm.cells]
  refine (agrees_modify fun n n' hn => ?_).bind fun _ _ _ => agrees_pure rfl
  exact hn.move { hn with cells := congrArg (·.push v) hn.cells } rfl rfl

theorem agrees_share (he : env.Twin mute env') (name : String) (p p' : Pos) :
    Agrees mute Eq (share env name p) (share env' name p') := by
  refine .get_bind fun m m' hm => ?_
  rw [hm.find?, hm.scope]
  split
  · exact agrees_fault rfl _ _
  · refine (agrees_noteRead he p p').bind fun _ _ _ => ?_
    dsimp only
    split
    · exact agrees_pure rfl
    · refine (agrees_newCell _).bind_eq fun id => ?_
      refine (agrees_modify fun n n' hn => ?_).bind fun _ _ _ => agrees_pure rfl
      exact hn.move { hn with scope := congrArg (List.set · _ _) hn.scope } rfl rfl

theorem agrees_readVariable (he : env.Twin mute env') (name : String) (p p' : Pos) :
    Agrees mute Eq (readVariable env name p) (readVariable env' name p') := by
  refine (agrees_noteRead he p p').bind fun _ _ _ => .get_bind fun m m' hm => ?_
  rw [hm.scope]
  split
  · exact agrees_pure (hm.contents _).symm
  · exact agrees_fault rfl _ _

end Exec

end ScriptAgent
