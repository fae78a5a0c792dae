import ScriptAgent.Proofs.Instrument.StatementTwins

/-!
# Evaluation agrees

A hook makes a few steps, notes what it is told, and gives the empty value.  With that the evaluators
of a script and of the script with hooks put into it agree, by induction on their fuel.
-/

namespace ScriptAgent

open Script (Value Fault Pos Callee Expr Stmt)
open Stateful (bind_apply modify_apply)

section Hooks

variable {mute : Bool} {env : Env} {run : Runner}

namespace Exec

/-- What only the second run does, giving a certain value. -/
theorem Agrees.alone {α β : Type} {v : α} {w : β} {x : Exec α} {f : α → Exec β}
    (h : Agrees mute (fun (_ : Unit) a => a = v) (pure ()) x)
    (hf : Agrees mute (fun (_ : Unit) b => b = w) (pure ()) (f v)) :
    Agrees mute (fun (_ : Unit) b => b = w) (pure ()) (x >>= f) := by
  have hx : (pure () >>= fun _ => pure () : Exec Unit) = pure () := pure_bind _ _
  exact hx ▸ h.bind fun _ a ha => ha ▸ hf

end Exec

/-- A hook reached on a value that is neither a host value nor a collection: it only acts. -/
theorem Place.native_hook {name : String} {target : Value} {rest : List Value} {f : Machine → Machine}
    (htarget : (∃ n, target = .int n) ∨ ∃ s, target = .str s)
    (h : HostCall.hook? env name (target :: rest) = HostCall.act (modify f)) (p : Pos) (m : Machine) :
    Place.native env run name rest false false p target m = ((.ok (.unit, false), target), f m) := by
  have hosted (objects : Array Draft) :
      HostCall.hosted? env objects name (target :: rest) = HostCall.act (modify f) := by
    obtain ⟨n, rfl⟩ | ⟨s, rfl⟩ := htarget <;> simp only [HostCall.hosted?, h] <;> rfl
  have callback : Callback.find? env run name target rest p = none := by
    obtain ⟨n, rfl⟩ | ⟨s, rfl⟩ := htarget <;> rfl
  simp only [Place.native, Place.bind_apply, Place.get_apply, Place.machine_apply, callback, hosted]
  rfl

namespace Exec

/-- A hook called by its name with what it expects. -/
theorem callByName_hook {name : String} {target : Value} {rest : List Value} {f : Machine → Machine}
    (hname : ∀ g ∈ env.functions.toList, g.name ≠ name)
    (htarget : (∃ n, target = .int n) ∨ ∃ s, target = .str s)
    (h : HostCall.hook? env name (target :: rest) = HostCall.act (modify f)) (p : Pos) :
    callByName env run name (target :: rest) none p = (do
      modify f
      return .unit) := by
  have none_ (n : Nat) : scriptFunction? env name n = none := by
    unfold scriptFunction?
    rw [← Array.find?_toList, List.find?_eq_none]
    intro g hg
    simp [hname g hg]
  funext m
  unfold callByName
  rw [none_]
  have native : Place.native env run name rest false false p target m = _ := Place.native_hook htarget h p m
  show (do return (← Place.onValue target (Place.native env run name rest false false p)).1.1 : Exec Value) m = _
  rw [bind_apply, bind_apply]
  unfold Place.onValue
  rw [native]
  rfl

theorem agrees_literal (n : Nat) (v : Script.Literal) (p : Pos) :
    Agrees mute (fun (_ : Unit) w => w = Value.ofLiteral v) (pure ()) (evaluate env n (.expr (.lit v p))) := by
  cases n with
  | zero => exact agrees_right rfl _
  | succ n => exact .after (agrees_tickAlone _) (agrees_pure rfl)

theorem agrees_literals (n : Nat) (ls : List (Script.Literal × Pos)) :
    Agrees mute (fun (_ : Unit) vs => vs = ls.map fun l => Value.ofLiteral l.1) (pure ())
      (arguments (evaluate env n) (ls.map fun l => .lit l.1 l.2)) := by
  induction ls with
  | nil => exact agrees_pure rfl
  | cons l ls ih => exact (agrees_literal n l.1 l.2).alone (ih.alone (agrees_pure rfl))

/-- A call of a hook with literals as its arguments. -/
theorem agrees_hookCall {name : String} (target : Script.Literal × Pos) (rest : List (Script.Literal × Pos))
    {f : Machine → Machine} (hname : ∀ g ∈ env.functions.toList, g.name ≠ name)
    (hcall : ∀ (run : Runner) (p : Pos), call env run name ((target :: rest).map fun l => .lit l.1 l.2) p = (do
      callByName env run name (← arguments run ((target :: rest).map fun l => .lit l.1 l.2)) none p))
    (htarget : (∃ n, Value.ofLiteral target.1 = .int n) ∨ ∃ s, Value.ofLiteral target.1 = .str s)
    (h : HostCall.hook? env name ((target :: rest).map fun l => Value.ofLiteral l.1) = HostCall.act (modify f))
    (hf : ∀ m m' : Machine, m.Twin m' → m.Twin (f m')) (n : Nat) (p : Pos) :
    Agrees mute (fun (_ : Unit) v => v = .unit) (pure ())
      (evaluate env n (.stmt (.expr (.call name ((target :: rest).map fun l => .lit l.1 l.2) p)))) := by
  rcases n with _ | _ | n
  · exact agrees_right rfl _
  · exact agrees_right rfl _
  · refine Agrees.after (agrees_tickAlone _) ?_
    show Agrees mute _ (pure ()) (call env (evaluate env n) name _ p)
    rw [hcall]
    refine (agrees_literals n _).alone ?_
    rw [List.map_cons, callByName_hook hname htarget h]
    exact fun m m' hm => .ok rfl (hf m m' hm)

/-- Hooks note what they are told, and nothing else. -/
theorem agrees_hook (hnames : ∀ g ∈ env.functions.toList, g.name ∉ Script.hookNames) (n : Nat) {h : Stmt}
    (hh : h.Hook) : Agrees mute (fun (_ : Unit) v => v = .unit) (pure ()) (evaluate env n (.stmt h)) := by
  have unnamed (name : String) (hn : name ∈ Script.hookNames) : ∀ g ∈ env.functions.toList, g.name ≠ name :=
    fun g hg he => hnames g hg (he ▸ hn)
  cases hh with
  | line i p q =>
    refine agrees_hookCall (.int i, p) [] (unnamed _ (by decide)) (fun _ _ => rfl)
      (.inl ⟨i, rfl⟩) rfl (fun m m' hm => ?_) n q
    exact hm.move { hm with } rfl rfl
  | call i p q =>
    refine agrees_hookCall (.int i, p) [] (unnamed _ (by decide)) (fun _ _ => rfl)
      (.inl ⟨i, rfl⟩) rfl (fun m m' hm => ?_) n q
    exact hm.move { hm with } rfl rfl
  | comment text i p q r =>
    refine agrees_hookCall (.str text, p) [(.int i, q)] (unnamed _ (by decide)) (fun _ _ => rfl)
      (.inr ⟨text, rfl⟩) rfl (fun m m' hm => ?_) n r
    exact hm.move { hm with host := hm.host.note rfl } rfl rfl

end Exec

end Hooks

/-! ### The evaluators -/

/-- Whatever agrees on the parts of a task agrees on the task. -/
theorem evaluate_twin {mute : Bool} {env env' : Env} (he : env.Twin mute env') (n : Nat) :
    Runner.Twin mute (evaluate env n) (evaluate env' n) := by
  induction n with
  | zero =>
    refine ⟨fun _ => ?_, fun _ => ?_, fun _ _ _ _ _ => ?_, fun hh => Exec.agrees_hook he.unshadowed 0 hh⟩
    · exact Exec.agrees_left rfl _
    · exact Exec.agrees_left rfl _
    · exact Exec.agrees_left rfl _
  | succ n ih =>
    refine ⟨fun h => ?_, fun h => ?_, fun callee args this p p' => ?_, fun hh => Exec.agrees_hook he.unshadowed _ hh⟩
    · exact (Exec.agrees_tick _ _).bind_eq fun _ => Exec.agrees_expr he ih h
    · exact Exec.agrees_stmt he ih h
    · exact Exec.agrees_callFn he ih callee args this p p'

end ScriptAgent
