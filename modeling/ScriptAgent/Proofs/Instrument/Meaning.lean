import ScriptAgent.Proofs.Instrument.EndTwins
import ScriptAgent.Proofs.Instrument.EvaluationTwins

/-!
# Hooks and the meaning of scripts

A script and the script with hooks put into it are executed alike, as long as the hooks stand between
statements and none of them stands in the place of a value.  Hooks after the last statement do: then
a script that comes to its end gives the empty value, whatever value it had.
-/

namespace ScriptAgent

open Script (Value Fault Pos Stmt Program)

/-! ### Handlers that are told of nothing but what a script threw -/

/-- The environment of a run that is ended where a handler would be told of a fault of the language:
what it is told there has a place in it. -/
def Env.confined (env : Env) : Env :=
  { env with
    describe := fun cause pos =>
      match (cause.root pos).1 with
      | .thrown v => .ok v
      | _ => .error (.tooDeep pos) }

/-- What a handler is told of what a script threw has no place in it. -/
theorem Env.describe_confined (env env' : Env) (hd : env'.describe = fun cause pos => .ok (cause.caught pos))
    {f f' : Fault} (h : f'.unplaced = f.unplaced) (p p' : Pos) :
    (∃ s, env.confined.describe f p = .error s ∧ s.isLimit = true) ∨
      ∃ v, env.confined.describe f p = .ok v ∧ env'.describe f' p' = .ok v := by
  have hroot := Fault.root_eq h p p'
  rw [hd]
  cases hc : (f.root p).1 with
  | thrown v => exact .inr ⟨v, by simp only [confined, hc], by simp only [Fault.caught, hroot, hc]⟩
  | _ => exact .inl ⟨.tooDeep p, by simp only [confined, hc], rfl⟩

namespace Job

variable {mute : Bool}

/-- The environment of a confined run and that of a run with hooks. -/
theorem env_twin (j : Job) (c : Compiled) (host : Host) {fs fs' : List Script.Function}
    (hf : List.Forall₂ (Script.Function.Woven mute) fs fs') (hu : ∀ f ∈ fs', f.name ∉ Script.hookNames) :
    (j.env host fs).confined.Twin mute (Job.env { j with compiled := c } host fs') where
  backend := rfl
  sizes := rfl
  slowTool := rfl
  deadline := rfl
  tools := rfl
  functions := by simpa [Job.env, Env.confined] using hf
  unshadowed := by simpa [Job.env] using hu
  describe f f' p p' h := by
    rcases Env.describe_confined (j.env host fs) (Job.env { j with compiled := c } host fs') rfl h p p' with hs | hv
    · exact .inl hs
    · exact .inr (.inr hv)

theorem machine_twin (j : Job) (host : Host) : (j.machine host).Twin (j.machine host) :=
  ⟨⟨rfl, rfl, rfl, rfl, rfl, rfl, rfl, rfl, rfl, rfl, rfl, rfl, rfl⟩, rfl, rfl⟩

end Job

/-! ### Hooks after the last statement -/

namespace Exec

variable {mute : Bool} {run run' : Runner}

theorem runAll_append (run : Runner) (ss : List Stmt) (h : Stmt) (hs : List Stmt) :
    runAll run (ss ++ h :: hs) = (do
      let _ ← runAll run ss
      runAll run (h :: hs)) := by
  induction ss with
  | nil => exact (pure_bind _ _).symm
  | cons s rest ih =>
    cases rest with
    | nil => rfl
    | cons t rest =>
      show (run (.stmt s) >>= fun _ => runAll run (t :: rest ++ h :: hs)) =
        ((run (.stmt s) >>= fun _ => runAll run (t :: rest)) >>= fun _ => runAll run (h :: hs))
      rw [ih, bind_assoc]

/-- Hooks after the last statement give the empty value in place of the value of the script. -/
theorem agrees_hooked (hrun : run.Twin mute run') {ss ss' after : List Stmt} (h : Script.Stmts.Woven mute true ss ss')
    (hooks : ∀ s ∈ after, s.Hook) :
    Agrees mute (fun a b => b = settled (!after.isEmpty) a) (runAll run ss) (runAll run' (ss' ++ after)) := by
  cases after with
  | nil =>
    rw [List.append_nil]
    exact (agrees_body hrun h).mono fun _ _ hab => hab.symm
  | cons s rest =>
    have woven : ∀ hs : List Stmt, (∀ s ∈ hs, s.Hook) → Script.Stmts.Woven mute true [] hs := by
      intro hs
      induction hs with
      | nil => exact fun _ => .nil true
      | cons s hs ih => exact fun hall => .hook (hall s (by simp)) (ih fun s hs => hall s (by simp [hs]))
    have silent := (agrees_runAll hrun (woven _ hooks)).mono fun _ b hab => hab.1 rfl |>.trans (hab.2 rfl)
    rw [runAll_append]
    have hx : (runAll run ss >>= pure) = runAll run ss := bind_pure _
    rw [← hx]
    refine (agrees_body hrun h).bind_eq fun a => ?_
    have hy : (runAll run' (s :: rest) >>= pure) = runAll run' (s :: rest) := bind_pure _
    have hz : (runAll run [] >>= fun _ => pure a) = pure a := pure_bind _ _
    rw [← hy, ← hz]
    exact silent.bind fun _ b hb => agrees_pure hb

end Exec

/-! ### The two runs -/

/-- The text a job would run, as it is parsed for that job. -/
def Job.parse (j : Job) (text : String) : Except Script.ParseError Program :=
  Script.parse text (j.backend.parseLimits (j.backend.sizeLimits j.limits.memory))

/-- How the statements of a script end, and the machine that they leave. -/
def Script.Program.finish (p : Program) (env : Env) (m : Machine) : Except Stop Value × Machine :=
  runAll (evaluate env nestingFuel) p.body m

/-- A text, and what it is compiled to: the same tree with hooks put into it, and hooks after it. -/
structure Hooked (j : Job) (text : String) (c : Compiled) (p p' : Program) (after : List Stmt) : Prop where
  compiled : compile text = .ok c
  plain : j.parse text = .ok p
  hooked : j.parse c.code = .ok { p' with body := p'.body ++ after }
  woven : ∃ mute, p.Woven mute p'
  unshadowed : p'.Unshadowed
  hooks : ∀ h ∈ after, h.Hook

namespace Hooked

variable {j : Job} {text : String} {c : Compiled} {p p' : Program} {after : List Stmt}

theorem plain_unshadowed (h : Hooked j text c p p' after) : p.Unshadowed := by
  obtain ⟨mute, hw⟩ := h.woven
  intro f hf
  obtain ⟨i, hi, rfl⟩ := List.getElem_of_mem hf
  have hlength := hw.functions.length_eq
  have hname := (List.Forall₂.get hw.functions hi (hlength ▸ hi)).name
  simp only [List.get_eq_getElem] at hname
  rw [← hname]
  exact h.unshadowed _ (List.getElem_mem _)

end Hooked

/-! ### A comment after the value of a script -/

/-- A script that gives a sum, and then has a comment. -/
def commentedText : String := "40 + 2;\n// done"

/-- What the script with the comment is compiled to. -/
def commentedCode : Compiled := (compile commentedText).toOption.getD (.plain commentedText)

/-- The sum of the script, where its line starts with it in some column. -/
def sumFrom (column : Nat) : Stmt :=
  .expr (.binary "+" (.lit (.int 40) ⟨1, column⟩) (.lit (.int 2) ⟨1, column + 5⟩) ⟨1, column + 3⟩)

/-- The tree of the script with the comment. -/
def commentedTree : Program := ⟨[], [sumFrom 1]⟩

/-- The tree that hooks are put into, up to the last statement of the script. -/
def hookedTree : Program := ⟨[], [.expr (.call "__track_line" [.lit (.int 1) ⟨1, 14⟩] ⟨1, 1⟩), sumFrom 18]⟩

/-- The call that the comment becomes. -/
def commentHook : Stmt :=
  .expr (.call "__record_comment" [.lit (.str "done") ⟨2, 18⟩, .lit (.int 2) ⟨2, 26⟩] ⟨2, 1⟩)

-- Trees may hold floating-point numbers, whose equality is not decided: each tree has a test of its own.

/-- Whether a text was parsed as the tree of the script with the comment. -/
def isCommentedTree : Except ParseError Program → Bool
  | .ok ⟨[], [.expr (.binary "+" (.lit (.int 40) ⟨1, 1⟩) (.lit (.int 2) ⟨1, 6⟩) ⟨1, 4⟩)]⟩ => true
  | _ => false

theorem eq_commentedTree {r : Except ParseError Program} (h : isCommentedTree r = true) : r = .ok commentedTree := by
  unfold isCommentedTree at h
  split at h
  · rfl
  · cases h

/-- Whether a text was parsed as the tree with hooks. -/
def isHookedTree : Except ParseError Program → Bool
  | .ok ⟨[], [.expr (.call "__track_line" [.lit (.int 1) ⟨1, 14⟩] ⟨1, 1⟩),
      .expr (.binary "+" (.lit (.int 40) ⟨1, 18⟩) (.lit (.int 2) ⟨1, 23⟩) ⟨1, 21⟩),
      .expr (.call "__record_comment" [.lit (.str "done") ⟨2, 18⟩, .lit (.int 2) ⟨2, 26⟩] ⟨2, 1⟩)]⟩ => true
  | _ => false

theorem eq_hookedTree {r : Except ParseError Program} (h : isHookedTree r = true) :
    r = .ok { hookedTree with body := hookedTree.body ++ [commentHook] } := by
  unfold isHookedTree at h
  split at h
  · rfl
  · cases h

theorem hooked_commented :
    Hooked { compiled := commentedCode } commentedText commentedCode commentedTree hookedTree [commentHook] where
  compiled := by decide +kernel
  plain := eq_commentedTree (by decide +kernel)
  hooked := eq_hookedTree (by decide +kernel)
  woven := ⟨true, .nil, .hook (.line ..) (.last (.expr true (.binary "+" (.lit ..) (.lit ..) ..)))⟩
  unshadowed := by simp [Program.Unshadowed, hookedTree]
  hooks := by simpa [commentHook] using Stmt.Hook.comment "done" 2 _ _ _

/-- The value that a script has when it comes to its end, as it is written. -/
def completedIn (e : Execution) : Option String :=
  match e.outcome with
  | .completed v => some v.compact
  | _ => none

end ScriptAgent
