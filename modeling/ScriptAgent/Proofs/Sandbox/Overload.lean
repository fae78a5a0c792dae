import Mathlib.Algebra.GroupWithZero.Nat
import ScriptAgent.Proofs.Instrument.Meaning
import ScriptAgent.Proofs.Sandbox.Globals

/-!
# Scripts that start over the budget

What is in scope is measured when a variable is read, for the first time at the first read.  A script that
starts with more in scope than the budget allows is stopped there; until then it may declare variables, and
one that reads none comes to its end.  Either way the variables that it declared are left.
-/

namespace ScriptAgent

open Script (Value Fault Pos Expr Stmt)
open Stateful (bind_apply get_apply modify_apply)

/-! ### Statements that read no variable, and expressions that begin with reading one -/

namespace Script

/-- An expression that is written down as the value that it has. -/
inductive Expr.Constant : Expr → Value → Prop
  | literal (v : Literal) (p : Pos) : Constant (.lit v p) (Value.ofLiteral v)
  | array (p : Pos) : Constant (.array [] p) (.array [])
  | map (p : Pos) : Constant (.map [] p) (.map [])

/-- A statement that is a hook or declares a constant, and what it declares. -/
inductive Stmt.Declares : Stmt → List Slot → Prop
  | hook {s : Stmt} (h : s.Hook) : Declares s []
  | constant {e : Expr} {v : Value} (h : e.Constant v) (name : String) (constant : Bool) (p : Pos) :
    Declares (.declare name constant (some e) p) [⟨name, constant, v⟩]
  | empty (name : String) (constant : Bool) (p : Pos) :
    Declares (.declare name constant none p) [⟨name, constant, .unit⟩]

/-- Statements that are hooks or declare constants, and what they declare one after the other. -/
inductive Stmts.Declare : List Stmt → List Slot → Prop
  | nil : Declare [] []
  | cons {s : Stmt} {ss : List Stmt} {slots slots' : List Slot} (h : s.Declares slots) (hs : Declare ss slots') :
    Declare (s :: ss) (slots ++ slots')

/-- An expression whose evaluation begins with reading a variable, so deep in it. -/
inductive Expr.ReadsFirst : Nat → Expr → Prop
  | var (name : String) (p : Pos) : ReadsFirst 1 (.var name p)
  | unary {n : Nat} {e : Expr} (h : e.ReadsFirst n) (op : String) (p : Pos) : ReadsFirst (n + 1) (.unary op e p)
  | binary {n : Nat} {e : Expr} {op : String} (h : e.ReadsFirst n) (hin : op ≠ "in") (hnot : op ≠ "!in") (e' : Expr)
      (p : Pos) : ReadsFirst (n + 1) (.binary op e e' p)
  | and {n : Nat} {e : Expr} (h : e.ReadsFirst n) (e' : Expr) (p : Pos) : ReadsFirst (n + 1) (.and e e' p)
  | or {n : Nat} {e : Expr} (h : e.ReadsFirst n) (e' : Expr) (p : Pos) : ReadsFirst (n + 1) (.or e e' p)
  | coalesce {n : Nat} {e : Expr} (h : e.ReadsFirst n) (e' : Expr) (p : Pos) : ReadsFirst (n + 1) (.coalesce e e' p)
  | array {n : Nat} {e : Expr} (h : e.ReadsFirst n) (es : List Expr) (p : Pos) : ReadsFirst (n + 1) (.array (e :: es) p)
  /-- A chain from a variable, through properties and through methods without arguments. -/
  | chain (name : String) (p : Pos) {links : List Link} (h : ∀ l ∈ links, (∃ n q o s, l = .property n q o s) ∨
      ∃ n q o s, l = .method n [] q o s) : ReadsFirst 1 (.chain (.var name p) links)

/-- A statement whose execution begins with reading a variable, so deep in it. -/
inductive Stmt.ReadsFirst (n : Nat) : Stmt → Prop
  | expr {e : Expr} (h : e.ReadsFirst n) : ReadsFirst n (.expr e)
  | declare {e : Expr} (h : e.ReadsFirst n) (name : String) (constant : Bool) (p : Pos) :
    ReadsFirst n (.declare name constant (some e) p)
  | assign {e : Expr} (h : e.ReadsFirst n) (op : String) (target : Expr) (p : Pos) :
    ReadsFirst n (.assign op target e p)
  | ifElse {e : Expr} (h : e.ReadsFirst n) (yes no : List Stmt) (p : Pos) : ReadsFirst n (.ifElse e yes no p)
  | leave {e : Expr} (h : e.ReadsFirst n) (how : Leave) (p : Pos) : ReadsFirst n (.leave how (some e) p)

end Script

/-! ### Computations that only declare -/

/-- A computation was stopped because the time was up, before any signal. -/
def TimedOut {α : Type} (r : Except Stop α × Machine) : Prop :=
  ∃ pos m, r = (.error (.halted .timedOut pos), m) ∧ m.raised = none

theorem Host.Alike.trans {h h₁ h₂ : Host} (a : h.Alike h₁) (b : h₁.Alike h₂) : h.Alike h₂ :=
  ⟨b.micros.trans a.micros, b.made.trans a.made, b.counts.trans a.counts, b.abort.trans a.abort, b.calls.trans a.calls⟩

namespace Machine

/-- The machine with more variables in scope. -/
def opened (m : Machine) (slots : List Slot) : Machine :=
  { m with scope := slots.reverse ++ m.scope }

/-- A machine on which variables were declared since, before any signal. -/
structure Opens (m : Machine) (slots : List Slot) (m' : Machine) : Prop extends (m.opened slots).Alike m' where
  raised : m'.raised = none

theorem Opens.trans {m m₁ m₂ : Machine} {slots slots' : List Slot} (h : m.Opens slots m₁) (h' : m₁.Opens slots' m₂) :
    m.Opens (slots ++ slots') m₂ where
  scope := by
    rw [h'.scope, opened, h.scope, opened, opened, List.reverse_append, List.append_assoc]
  this := h'.this.trans h.this
  cells := h'.cells.trans h.cells
  records := h'.records.trans h.records
  drafts := h'.drafts.trans h.drafts
  reads := h'.reads.trans h.reads
  refusedWrite := h'.refusedWrite.trans h.refusedWrite
  level := h'.level.trans h.level
  host := h.host.trans h'.host
  raised := h'.raised

theorem Opens.self {m : Machine} (h : m.raised = none) : m.Opens [] m :=
  ⟨⟨rfl, rfl, rfl, rfl, rfl, rfl, rfl, rfl, rfl, rfl, rfl, rfl, rfl⟩, h⟩

theorem hostedJson_opened (m : Machine) (slots : List Slot) : (m.opened slots).hostedJson = m.hostedJson := rfl

/-- More in scope measures more. -/
theorem scopeSize_opened (m : Machine) (slots : List Slot) : m.scopeSize ≤ (m.opened slots).scopeSize := by
  have hestimate := estimate_congr (m.hostedJson_opened slots)
  have hcontents : (m.opened slots).contents = m.contents := rfl
  unfold scopeSize
  simp only [hestimate, hcontents]
  simp only [opened, List.map_append, List.foldr_append]
  generalize (m.scope.map fun slot => m.estimate (m.contents slot.value)).foldr (· + ·) 0 = size
  induction slots.reverse with
  | nil => exact Nat.le_refl size
  | cons slot slots ih =>
    simp only [List.map_cons, List.foldr_cons]
    omega

end Machine

namespace Exec

variable {env : Env} {α β : Type} {a : α} {b : β} {slots slots' : List Slot}

/-- A computation that gives a value after declaring variables, unless the time is up. -/
def Leads (x : Exec α) (a : α) (slots : List Slot) : Prop :=
  ∀ m : Machine, m.raised = none → TimedOut (x m) ∨ ∃ m', x m = (.ok a, m') ∧ m.Opens slots m'

/-- A computation that declares variables and then reads one, which stops it if more is in scope than the
budget allows. -/
def Overflows (env : Env) (x : Exec α) (slots : List Slot) : Prop :=
  ∀ m : Machine, m.raised = none → m.reads = 0 → env.sizes.budget < m.scopeSize →
    TimedOut (x m) ∨ ∃ pos m' reads, x m = (.error (.halted .outOfMemory pos), { m' with reads }) ∧ m.Opens slots m'

/-! ### Sequences -/

theorem timedOut_bind {x : Exec α} {f : α → Exec β} {m : Machine} (h : TimedOut (x m)) : TimedOut ((x >>= f) m) := by
  obtain ⟨pos, m₁, hrun, hraised⟩ := h
  exact ⟨pos, m₁, by rw [bind_apply, hrun], hraised⟩

theorem leads_pure (a : α) : Leads (pure a) a [] := by
  intro m hm
  exact .inr ⟨m, rfl, .self hm⟩

theorem Leads.bind {x : Exec α} {f : α → Exec β} (hx : Leads x a slots) (hf : Leads (f a) b slots') :
    Leads (x >>= f) b (slots ++ slots') := by
  intro m hm
  rcases hx m hm with htime | ⟨m₁, hrun, hopens⟩
  · exact .inl (timedOut_bind htime)
  · have happly : (x >>= f) m = f a m₁ := by rw [bind_apply, hrun]
    rw [happly]
    rcases hf m₁ hopens.raised with htime | ⟨m₂, hrun', hopens'⟩
    · exact .inl htime
    · exact .inr ⟨m₂, hrun', hopens.trans hopens'⟩

theorem Leads.overflows {x : Exec α} {f : α → Exec β} (hx : Leads x a slots) (hf : Overflows env (f a) slots') :
    Overflows env (x >>= f) (slots ++ slots') := by
  intro m hm hreads hsize
  rcases hx m hm with htime | ⟨m₁, hrun, hopens⟩
  · exact .inl (timedOut_bind htime)
  · have happly : (x >>= f) m = f a m₁ := by rw [bind_apply, hrun]
    have hsize₁ : env.sizes.budget < m₁.scopeSize := by
      rw [hopens.scopeSize]
      exact Nat.lt_of_lt_of_le hsize (m.scopeSize_opened slots)
    rw [happly]
    rcases hf m₁ hopens.raised (hopens.reads.trans hreads) hsize₁ with htime | ⟨pos, m₂, reads, hrun', hopens'⟩
    · exact .inl htime
    · exact .inr ⟨pos, m₂, reads, hrun', hopens.trans hopens'⟩

theorem Overflows.bind {x : Exec α} {f : α → Exec β} (hx : Overflows env x slots) : Overflows env (x >>= f) slots := by
  intro m hm hreads hsize
  rcases hx m hm hreads hsize with htime | ⟨pos, m', reads, hrun, hopens⟩
  · exact .inl (timedOut_bind htime)
  · exact .inr ⟨pos, m', reads, by rw [bind_apply, hrun], hopens⟩

/-! ### What is done on the way -/

theorem leads_modify {f : Machine → Machine} (hf : ∀ m : Machine, m.raised = none → m.Opens slots (f m)) :
    Leads (modify f) () slots := by
  intro m hm
  exact .inr ⟨f m, rfl, hf m hm⟩

theorem leads_tick (pos : Pos) : Leads (tick env pos) () [] := by
  intro m hm
  unfold tick
  rw [bind_apply, modify_apply]
  dsimp only
  rw [bind_apply, get_apply]
  simp only [hm, Option.isSome_none, Bool.false_eq_true, if_false]
  split
  · exact .inl ⟨pos, _, rfl, rfl⟩
  · exact .inr ⟨_, rfl, { (Machine.Opens.self hm).toAlike with }, rfl⟩

theorem leads_declare (name : String) (constant : Bool) (v : Value) :
    Leads (declare name constant v) () [⟨name, constant, v⟩] := by
  refine leads_modify fun m hm => ?_
  exact ⟨⟨rfl, rfl, rfl, rfl, rfl, rfl, rfl, rfl, rfl, rfl, rfl, rfl, rfl⟩, hm⟩

/-- The first variable that is read has what is in scope measured. -/
theorem overflows_noteRead (pos : Pos) : Overflows env (noteRead env pos) [] := by
  intro m hm hreads hsize
  have hdue : (m.reads % readsPerCheck == 0 && decide (m.scopeSize > env.sizes.budget)) = true := by
    simp [hreads, hsize]
  refine .inr ⟨pos, m, m.reads + 1, ?_, .self hm⟩
  simp only [noteRead, bind_apply, get_apply, Stateful.set_apply, hdue, if_true]
  rfl

theorem Overflows.at_ {x : Exec α} (hx : Overflows env x slots) (pos : Pos) : Overflows env (Exec.at_ pos x) slots := by
  intro m hm hreads hsize
  unfold Exec.at_
  rw [Stateful.tryCatch_apply]
  rcases hx m hm hreads hsize with ⟨p, m₁, hrun, hraised⟩ | ⟨p, m', reads, hrun, hopens⟩
  · rw [hrun]
    exact .inl ⟨_, m₁, rfl, hraised⟩
  · rw [hrun]
    exact .inr ⟨_, m', reads, rfl, hopens⟩

theorem overflows_onVariable (name : String) (pos : Pos) (x : Bool → Place α) :
    Overflows env (Place.onVariable env name pos x) [] :=
  (overflows_noteRead pos).bind

/-! ### Hooks and constants -/

theorem leads_constant {e : Expr} {v : Value} (h : e.Constant v) (n : Nat) :
    Leads (evaluate env (n + 1) (.expr e)) v [] := by
  cases h with
  | literal v p => exact (leads_tick p).bind (leads_pure _)
  | array p => exact (leads_tick p).bind ((leads_pure (α := List Value) []).bind (leads_pure _))
  | map p => exact (leads_tick p).bind ((leads_pure (α := Dict Value) []).bind (leads_pure _))

theorem leads_literals (n : Nat) (ls : List (Script.Literal × Pos)) :
    Leads (arguments (evaluate env (n + 1)) (ls.map fun l => .lit l.1 l.2))
      (ls.map fun l => Value.ofLiteral l.1) [] := by
  induction ls with
  | nil => exact leads_pure _
  | cons l ls ih => exact (leads_constant (.literal l.1 l.2) n).bind (ih.bind (leads_pure _))

/-- A call of a hook with literals as its arguments. -/
theorem leads_hookCall {name : String} (target : Script.Literal × Pos) (rest : List (Script.Literal × Pos))
    {f : Machine → Machine} (hname : ∀ g ∈ env.functions.toList, g.name ≠ name)
    (hcall : ∀ (run : Runner) (p : Pos), call env run name ((target :: rest).map fun l => .lit l.1 l.2) p = (do
      callByName env run name (← arguments run ((target :: rest).map fun l => .lit l.1 l.2)) none p))
    (htarget : (∃ n, Value.ofLiteral target.1 = .int n) ∨ ∃ s, Value.ofLiteral target.1 = .str s)
    (h : HostCall.hook? env name ((target :: rest).map fun l => Value.ofLiteral l.1) = HostCall.act (modify f))
    (hf : ∀ m : Machine, m.raised = none → m.Opens [] (f m)) (n : Nat) (p : Pos) :
    Leads (evaluate env (n + 3) (.stmt (.expr (.call name ((target :: rest).map fun l => .lit l.1 l.2) p))))
      .unit [] := by
  refine (leads_tick p).bind ?_
  show Leads (call env (evaluate env (n + 1)) name _ p) .unit []
  rw [hcall]
  refine (leads_literals n _).bind ?_
  rw [List.map_cons, callByName_hook hname htarget h]
  exact (leads_modify hf).bind (leads_pure _)

theorem leads_hook (hnames : ∀ g ∈ env.functions.toList, g.name ∉ Script.hookNames) {s : Stmt} (h : s.Hook) (n : Nat) :
    Leads (evaluate env (n + 3) (.stmt s)) .unit [] := by
  have unnamed (name : String) (hn : name ∈ Script.hookNames) : ∀ g ∈ env.functions.toList, g.name ≠ name := by
    intro g hg he
    exact hnames g hg (he ▸ hn)
  cases h with
  | line i p q =>
    refine leads_hookCall (.int i, p) [] (unnamed _ (by decide)) (fun _ _ => rfl) (.inl ⟨i, rfl⟩) rfl ?_ n q
    intro m hm
    exact { Machine.Opens.self hm with raised := hm }
  | call i p q =>
    refine leads_hookCall (.int i, p) [] (unnamed _ (by decide)) (fun _ _ => rfl) (.inl ⟨i, rfl⟩) rfl ?_ n q
    intro m hm
    exact { Machine.Opens.self hm with raised := hm }
  | comment text i p q r =>
    refine leads_hookCall (.str text, p) [(.int i, q)] (unnamed _ (by decide)) (fun _ _ => rfl) (.inr ⟨text, rfl⟩)
      rfl ?_ n r
    intro m hm
    have hself := Machine.Opens.self hm
    exact { hself with host := hself.host.note rfl, raised := hm }

theorem leads_declares (hnames : ∀ g ∈ env.functions.toList, g.name ∉ Script.hookNames) {s : Stmt}
    (h : s.Declares slots) (n : Nat) : Leads (evaluate env (n + 3) (.stmt s)) .unit slots := by
  cases h with
  | hook h => exact leads_hook hnames h n
  | constant h name constant p =>
    exact (leads_tick p).bind ((leads_constant h (n + 1)).bind ((leads_declare name constant _).bind (leads_pure _)))
  | empty name constant p =>
    exact (leads_tick p).bind ((leads_pure _).bind ((leads_declare name constant _).bind (leads_pure _)))

/-- Statements that only declare come to their end, unless the time is up. -/
theorem leads_runAll (hnames : ∀ g ∈ env.functions.toList, g.name ∉ Script.hookNames) {ss : List Stmt}
    (h : Script.Stmts.Declare ss slots) (n : Nat) : Leads (runAll (evaluate env (n + 3)) ss) .unit slots := by
  induction h with
  | nil => exact leads_pure _
  | @cons s ss slots slots' hs hss ih =>
    have hfirst := leads_declares hnames hs n
    cases ss with
    | nil =>
      cases hss
      rw [List.append_nil]
      exact hfirst
    | cons s' ss => exact hfirst.bind ih

/-! ### The first read -/

theorem leads_moves (run : Runner) {links : List Script.Link} (h : ∀ l ∈ links, (∃ n q o s, l = .property n q o s) ∨
    ∃ n q o s, l = .method n [] q o s) : ∃ moves, Leads (links.mapM (Move.ofLink run)) moves [] := by
  induction links with
  | nil => exact ⟨[], leads_pure _⟩
  | cons l links ih =>
    obtain ⟨moves, hmoves⟩ := ih fun l hl => h l (List.mem_cons_of_mem _ hl)
    obtain ⟨move, hmove⟩ : ∃ move, Leads (Move.ofLink run l) move [] := by
      rcases h l List.mem_cons_self with ⟨n, q, o, s, rfl⟩ | ⟨n, q, o, s, rfl⟩
      · exact ⟨_, leads_pure _⟩
      · exact ⟨_, (leads_pure (α := List Value) []).bind (leads_pure _)⟩
    rw [List.mapM_cons]
    exact ⟨move :: moves, hmove.bind (hmoves.bind (leads_pure _))⟩

theorem overflows_expr {n : Nat} {e : Expr} (h : e.ReadsFirst n) (k : Nat) :
    Overflows env (evaluate env (k + n) (.expr e)) [] := by
  induction h with
  | var name p => exact (leads_tick p).overflows (overflows_noteRead p).bind
  | unary h op p ih => exact (leads_tick p).overflows ih.bind
  | @binary n e op h hin hnot e' p ih =>
    refine (leads_tick p).overflows ?_
    have hexpr : expr env (evaluate env (k + n)) (.binary op e e' p) = (do
        let a ← evaluate env (k + n) (.expr e)
        let b ← evaluate env (k + n) (.expr e')
        let m ← get
        let v ← ofExcept (Script.Operator.binary (m.text env.backend) op a b) p
        sized env v p) := by
      simp only [expr]
    show Overflows env (expr env (evaluate env (k + n)) _) []
    rw [hexpr]
    exact ih.bind
  | and h e' p ih => exact (leads_tick p).overflows ih.bind.bind
  | or h e' p ih => exact (leads_tick p).overflows ih.bind.bind
  | coalesce h e' p ih => exact (leads_tick p).overflows ih.bind
  | array h es p ih => exact (leads_tick p).overflows ih.bind.bind
  | chain name p h =>
    obtain ⟨moves, hmoves⟩ := leads_moves (evaluate env k) h
    refine (leads_tick _).overflows (hmoves.overflows ?_)
    exact (leads_tick p).overflows ((overflows_onVariable name p _).at_ _).bind

theorem overflows_stmt {n : Nat} {s : Stmt} (h : s.ReadsFirst n) (k : Nat) :
    Overflows env (evaluate env (k + n + 1) (.stmt s)) [] := by
  have hrun {e : Expr} (he : e.ReadsFirst n) : Overflows env (evaluate env (k + n) (.expr e)) [] := overflows_expr he k
  cases h with
  | expr h => exact hrun h
  | declare h name constant p => exact (leads_tick p).overflows (hrun h).bind
  | assign h op target p => exact (hrun h).bind
  | ifElse h yes no p => exact (leads_tick p).overflows (hrun h).bind.bind
  | leave h how p =>
    cases how with
    | «return» => exact (hrun h).bind
    | throw => exact (hrun h).bind

end Exec

/-! ### What is left -/

/-- A constant is neither shared nor a function. -/
theorem Script.Expr.Constant.plain {e : Expr} {v : Value} (h : e.Constant v) : v.isFn = false ∧ ∀ id, v ≠ .cell id := by
  cases h with
  | literal v p => cases v <;> exact ⟨rfl, nofun⟩
  | array | map => exact ⟨rfl, nofun⟩

theorem Script.Stmts.Declare.plain {ss : List Stmt} {slots : List Slot} (h : Stmts.Declare ss slots) :
    ∀ slot ∈ slots, slot.value.isFn = false ∧ ∀ id, slot.value ≠ .cell id := by
  induction h with
  | nil => simp
  | cons hs _ ih =>
    intro slot hslot
    rcases List.mem_append.mp hslot with hslot | hslot
    · cases hs with
      | hook => cases hslot
      | constant h =>
        obtain rfl := List.mem_singleton.mp hslot
        exact h.plain
      | empty =>
        obtain rfl := List.mem_singleton.mp hslot
        exact ⟨rfl, nofun⟩
    · exact ih slot hslot

namespace Machine

/-- The variables that slots are left as. -/
def declared (m : Machine) (backend : Backend) (hidden : List String) (slots : List Slot) : Dict Json :=
  (slots.filter fun slot => !hidden.contains slot.name).map fun slot => (slot.name, m.toJson backend slot.value)

/-- The variables that are left, with those of one more slot. -/
def collected (m : Machine) (backend : Backend) (hidden : List String) (d : Dict Json) (slot : Slot) : Dict Json :=
  let v := m.contents slot.value
  if hidden.contains slot.name || v.isFn then d else Dict.insert d slot.name (m.toJson backend v)

theorem collected_constant (m : Machine) (backend : Backend) (hidden : List String) (d : Dict Json) {slot : Slot}
    (hfn : slot.value.isFn = false) (hcell : ∀ id, slot.value ≠ .cell id) :
    m.collected backend hidden d slot =
      if hidden.contains slot.name then d else Dict.insert d slot.name (m.toJson backend slot.value) := by
  have hcontents : m.contents slot.value = slot.value := by
    cases hv : slot.value with
    | cell id => exact absurd hv (hcell id)
    | _ => rfl
  unfold collected
  dsimp only
  rw [hcontents, hfn, Bool.or_false]

theorem variables_opened (m : Machine) (backend : Backend) (hidden : List String) {slots : List Slot}
    (plain : ∀ slot ∈ slots, slot.value.isFn = false ∧ ∀ id, slot.value ≠ .cell id) :
    (m.opened slots).variables backend hidden =
      (m.variables backend hidden).overlay (m.declared backend hidden slots) := by
  have hscope : (m.opened slots).scope.reverse = m.scope.reverse ++ slots := by
    simp [opened]
  have hleft : (m.opened slots).variables backend hidden =
      slots.foldl (m.collected backend hidden) (m.variables backend hidden) := by
    show ((m.opened slots).scope.reverse.foldl (m.collected backend hidden) []) = _
    rw [hscope, List.foldl_append]
    rfl
  rw [hleft]
  generalize m.variables backend hidden = d
  clear hscope hleft
  induction slots generalizing d with
  | nil => rfl
  | cons slot slots ih =>
    obtain ⟨hfn, hcell⟩ := plain slot List.mem_cons_self
    have hrest := ih fun s hs => plain s (List.mem_cons_of_mem _ hs)
    rw [List.foldl_cons, m.collected_constant backend hidden d hfn hcell]
    unfold declared at hrest ⊢
    by_cases hhidden : hidden.contains slot.name = true
    · rw [if_pos hhidden, List.filter_cons_of_neg (by simpa using hhidden)]
      exact hrest _
    · rw [if_neg hhidden, List.filter_cons_of_pos (by simpa using hhidden), List.map_cons]
      exact hrest _

end Machine

namespace Job

variable {j : Job} {host : Host} {p : Script.Program} {opening : List Stmt} {slots : List Slot}

/-- The variables that a script leaves that only declares slots. -/
def leftBy (j : Job) (host : Host) (slots : List Slot) : Dict Json :=
  ((j.machine host).variables j.backend j.hidden).overlay ((j.machine host).declared j.backend j.hidden slots)

theorem unshadowed_env (j : Job) (host : Host) (h : p.Unshadowed) :
    ∀ g ∈ (j.env host p.functions).functions.toList, g.name ∉ Script.hookNames := by
  simpa [env, Script.Program.Unshadowed] using h

/-- What is left on a machine on which slots were declared. -/
theorem variables_of_opens (declares : Script.Stmts.Declare opening slots) {m : Machine}
    (h : (j.machine host).Opens slots m) : m.variables j.backend j.hidden = j.leftBy host slots := by
  rw [h.toAlike.variables, Machine.variables_opened _ _ _ declares.plain]
  rfl

theorem ordered_foldl_collected {m : Machine} {backend : Backend} {hidden : List String} (scope : List Slot)
    {d : Dict Json} (hd : Dict.Ordered d) : Dict.Ordered (scope.foldl (m.collected backend hidden) d) := by
  induction scope generalizing d with
  | nil => exact hd
  | cons slot scope ih =>
    refine ih ?_
    unfold Machine.collected
    dsimp only
    split
    · exact hd
    · exact hd.insert _ _

theorem mem_keys_foldl_collected {m : Machine} {backend : Backend} {hidden : List String} {name : String}
    (scope : List Slot) {d : Dict Json} (h : name ∈ (scope.foldl (m.collected backend hidden) d).keys) :
    name ∈ d.keys ∨ name ∉ hidden ∧ ∃ slot ∈ scope, slot.name = name := by
  induction scope generalizing d with
  | nil => exact .inl h
  | cons slot scope ih =>
    rcases ih h with hd | ⟨hvisible, slot', hslot', hname⟩
    · unfold Machine.collected at hd
      dsimp only at hd
      split at hd
      · exact .inl hd
      · next hplain =>
        rcases Dict.mem_keys_insert.mp hd with rfl | hd
        · exact .inr ⟨fun hhidden => hplain (by simp [hhidden]), slot, List.mem_cons_self, rfl⟩
        · exact .inl hd
    · exact .inr ⟨hvisible, slot', List.mem_cons_of_mem _ hslot', hname⟩

/-- Where nothing was declared yet, the variables of the job are left and no others. -/
theorem mem_keys_variables_machine {name : String}
    (h : name ∈ ((j.machine host).variables j.backend j.hidden).keys) : name ∈ j.variables.keys := by
  rcases mem_keys_foldl_collected _ h with h | ⟨hvisible, slot, hslot, rfl⟩
  · cases h
  · exact (name_of_mem_scope_machine (List.mem_reverse.mp hslot)).resolve_right hvisible

theorem ordered_leftBy (j : Job) (host : Host) (slots : List Slot) : Dict.Ordered (j.leftBy host slots) := by
  have hstart : Dict.Ordered ((j.machine host).variables j.backend j.hidden) := by
    refine ordered_foldl_collected _ ?_
    simp [Dict.Ordered]
  exact hstart.overlay _

theorem execute_of_timedOut {r : Except Stop Value × Machine} (hrun : j.run host = j.report r) (h : TimedOut r) :
    (j.execute host).1.outcome = .failed (.timeout j.limits.timeout) := by
  obtain ⟨pos, m, rfl, hraised⟩ := h
  unfold execute
  rw [hrun]
  simp only [report, hraised, Machine.ending, Machine.failure, Execution.errorOf, Machine.failureAt]

/-- A script that only declares comes to its end however much is in scope when it starts, unless the time is
up, and leaves what it declared over what was there. -/
theorem execute_declares (host : Host) (parsed : j.parse j.compiled.code = .ok p) (unshadowed : p.Unshadowed)
    (declares : Script.Stmts.Declare p.body slots) :
    (j.execute host).1.outcome = .failed (.timeout j.limits.timeout) ∨
      (j.execute host).1.outcome = .completed .null ∧ (j.execute host).1.variables = j.leftBy host slots := by
  have hrun := j.run_of_parse host parsed
  have hleads := Exec.leads_runAll (j.unshadowed_env host unshadowed) declares 999997
  rcases hleads (j.machine host) rfl with htime | ⟨m, hm, hopens⟩
  · exact .inl (execute_of_timedOut hrun htime)
  · have hvariables := variables_of_opens declares hopens
    have hreport : j.run host = j.report (.ok .unit, m) := hrun.trans (congrArg j.report hm)
    unfold execute
    rw [hreport]
    right
    simp only [report, hopens.raised, Machine.ending, Machine.toJson_unit, Execution.wasStopped, hvariables,
      Bool.and_false, Bool.false_eq_true, if_false, and_self]

/-- A script that starts with more in scope than the budget allows is stopped where it first reads a variable,
unless the time is up, and leaves what it declared until then over what was there. -/
theorem execute_overflows (host : Host) (parsed : j.parse j.compiled.code = .ok p) (unshadowed : p.Unshadowed)
    (declares : Script.Stmts.Declare opening slots) {s : Stmt} {rest : List Stmt} (body : p.body = opening ++ s :: rest)
    {n : Nat} (readsFirst : s.ReadsFirst n) (shallow : n < nestingFuel)
    (exceeds : (j.backend.sizeLimits j.limits.memory).budget < (j.machine host).scopeSize) :
    (j.execute host).1.outcome = .failed (.timeout j.limits.timeout) ∨
      (∃ line, (j.execute host).1.outcome = .failed (.memoryLimit j.limits.memory line)) ∧
        (j.execute host).1.variables = j.leftBy host slots := by
  have hrun := j.run_of_parse host parsed
  have hleads := Exec.leads_runAll (j.unshadowed_env host unshadowed) declares 999997
  obtain ⟨k, hk⟩ : ∃ k, nestingFuel = k + n + 1 := ⟨nestingFuel - n - 1, by omega⟩
  have hfirst : Exec.Overflows (j.env host p.functions)
      (runAll (evaluate (j.env host p.functions) nestingFuel) (s :: rest)) [] := by
    have hs : Exec.Overflows (j.env host p.functions) (evaluate (j.env host p.functions) (k + n + 1) (.stmt s)) [] :=
      Exec.overflows_stmt readsFirst k
    rw [← hk] at hs
    cases rest with
    | nil => exact hs
    | cons s' rest => exact hs.bind
  have hall := hleads.overflows
    (f := fun _ => runAll (evaluate (j.env host p.functions) nestingFuel) (s :: rest)) hfirst
  have hbody : runAll (evaluate (j.env host p.functions) nestingFuel) p.body = (do
      let _ ← runAll (evaluate (j.env host p.functions) nestingFuel) opening
      runAll (evaluate (j.env host p.functions) nestingFuel) (s :: rest)) := by
    rw [body, Exec.runAll_append]
  rw [List.append_nil] at hall
  rw [hbody] at hrun
  rcases hall (j.machine host) rfl rfl exceeds with htime | ⟨pos, m, reads, hm, hopens⟩
  · exact .inl (execute_of_timedOut hrun htime)
  · have hvariables := variables_of_opens declares hopens
    have hreport : j.run host = j.report (.error (.halted .outOfMemory pos), { m with reads }) :=
      hrun.trans (congrArg j.report hm)
    unfold execute
    rw [hreport]
    right
    simp only [report, hopens.raised, Machine.ending, Machine.failure, Machine.failureAt, Execution.errorOf,
      Execution.wasStopped, Bool.and_false, Bool.false_eq_true, if_false]
    rw [← hvariables]
    exact ⟨⟨_, rfl⟩, rfl⟩

end Job

/-! ### What a start measures -/

namespace Machine

mutual

/-- What a value of the host is taken to hold does not depend on the machine. -/
theorem estimate_ofJson (m m' : Machine) : ∀ v, m.estimate (Binding.ofJson v) = m'.estimate (Binding.ofJson v)
  | .null | .bool _ | .str _ => by simp only [Binding.ofJson, estimate]
  | .num n => by cases n <;> simp only [Binding.ofJson, Binding.ofNumeral] <;> (try split) <;> simp only [estimate]
  | .arr items => by simp only [Binding.ofJson, estimate, estimate_ofItems m m' items]
  | .obj fields => by simp only [Binding.ofJson, estimate, estimate_ofFields m m' fields]

theorem estimate_ofItems (m m' : Machine) :
    ∀ vs, m.estimateAll (Binding.ofItems vs) = m'.estimateAll (Binding.ofItems vs)
  | [] => rfl
  | v :: vs => by simp only [Binding.ofItems, estimateAll, estimate_ofJson m m' v, estimate_ofItems m m' vs]

theorem estimate_ofFields (m m' : Machine) :
    ∀ es, m.estimateEntries (Binding.ofFields es) = m'.estimateEntries (Binding.ofFields es)
  | [] => rfl
  | (k, v) :: es => by
    simp only [Binding.ofFields, estimateEntries, estimate_ofJson m m' v, estimate_ofFields m m' es]

end

theorem contents_ofJson (m : Machine) (v : Json) : m.contents (Binding.ofJson v) = Binding.ofJson v := by
  cases v with
  | num n =>
    cases n with
    | int n =>
      simp only [Binding.ofJson, Binding.ofNumeral]
      split <;> rfl
    | float x => rfl
  | _ => rfl

end Machine

/-- How many bytes a variable with a value is taken to hold when a script starts. -/
def Json.startSize (b : Backend) : Json → Nat
  | .obj fields => 16 + (Json.obj fields).compact.utf8ByteSize
  | v => Machine.estimate { scope := [], host := {} } (b.toScript v)

theorem Json.startSize_plain {b : Backend} {v : Json} (h : ∀ fields, v ≠ .obj fields) :
    v.startSize b = Machine.estimate { scope := [], host := {} } (b.toScript v) := by
  cases v with
  | obj fields => exact absurd rfl (h fields)
  | _ => rfl

namespace Job

theorem sizes_globals (b : Backend) {m : Machine} {id : Nat} (d : Dict Json) (before : List Record)
    (hid : before.length = id) (hrecords : m.records = (before ++ (globals b id d).2).toArray) :
    ((globals b id d).1.map fun slot => m.estimate (m.contents slot.value)) = d.map fun e => e.2.startSize b := by
  induction d generalizing id before with
  | nil => rfl
  | cons entry rest ih =>
    obtain ⟨name, v⟩ := entry
    by_cases hv : ∃ fields, v = .obj fields
    · obtain ⟨fields, rfl⟩ := hv
      rw [globals_obj] at hrecords ⊢
      have hmore : (before ++ [(⟨name, fields⟩ : Record)]).length = id + 1 := by simp [hid]
      have hrest := ih _ hmore (by rw [List.append_assoc]; exact hrecords)
      have hrecord : m.hostedJson (.record id) = .obj fields := by
        simp [Machine.hostedJson, hrecords, ← hid, Record.toJson]
      have hsize : m.estimate (m.contents (.record id)) = (Json.obj fields).startSize b := by
        show m.estimate (.record id) = _
        rw [Machine.estimate, hrecord, Json.startSize]
      rw [List.map_cons, List.map_cons, hrest, hsize]
    · have hplain : ∀ fields, v ≠ .obj fields := fun fields h => hv ⟨fields, h⟩
      rw [globals_plain hplain] at hrecords ⊢
      have hrest := ih before hid hrecords
      have hsize : m.estimate (m.contents (b.toScript v)) = v.startSize b := by
        rw [Json.startSize_plain hplain, Backend.toScript, m.contents_ofJson]
        exact m.estimate_ofJson _ (b.pass v)
      rw [List.map_cons, List.map_cons, hrest, hsize]

/-- When a script starts, its variables are in scope, and the objects and the console with 16 bytes each. -/
theorem scopeSize_machine (j : Job) (host : Host) :
    (j.machine host).scopeSize =
      (j.variables.map fun e => e.2.startSize j.backend).sum + 16 * (j.objects.length + 1) := by
  obtain ⟨m, hm⟩ : ∃ m, j.machine host = m := ⟨_, rfl⟩
  have hscope := hm ▸ j.scope_machine host
  have hglobals : ((globals j.backend 0 j.variables).1.map fun slot => m.estimate (m.contents slot.value)) =
      j.variables.map fun e => e.2.startSize j.backend := sizes_globals j.backend j.variables [] rfl (hm ▸ rfl)
  have hobjects : ((objectSlots j.objects).map fun slot => m.estimate (m.contents slot.value)) =
      List.replicate j.objects.length 16 := by
    refine List.eq_replicate_iff.mpr ⟨by simp [objectSlots], ?_⟩
    intro size hsize
    obtain ⟨slot, hslot, rfl⟩ := List.mem_map.mp hsize
    obtain ⟨i, o, -, rfl⟩ := mem_objectSlots.mp hslot
    simp only [Machine.contents, Machine.estimate]
  rw [hm, Machine.scopeSize, hscope, ← List.sum_eq_foldr, List.map_cons, List.map_append, List.map_reverse,
    List.map_reverse, hglobals, hobjects]
  simp only [List.sum_cons, List.sum_append, List.sum_reverse, List.sum_replicate_nat, Machine.contents,
    Machine.estimate]
  omega

end Job

end ScriptAgent
