import Mathlib.Data.Fintype.EquivFin
import ScriptAgent.Proofs.Sandbox.Sparing

/-!
# Names that a script does not touch

A script is finite, so it spares the variables of all names but finitely many.
-/

namespace ScriptAgent.Script

/-- All names but finitely many have a property. -/
def Mostly (p : String → Bool) : Prop :=
  ∃ names : List String, ∀ z ∉ names, p z = true

namespace Mostly

variable {p q : String → Bool}

theorem always : Mostly fun _ => true :=
  ⟨[], fun _ _ => rfl⟩

theorem and (hp : Mostly p) (hq : Mostly q) : Mostly fun z => p z && q z := by
  obtain ⟨names, hp⟩ := hp
  obtain ⟨others, hq⟩ := hq
  refine ⟨names ++ others, fun z hz => ?_⟩
  obtain ⟨hnames, hothers⟩ := not_or.mp (hz ∘ List.mem_append.mpr)
  exact Bool.and_eq_true_iff.mpr ⟨hp z hnames, hq z hothers⟩

theorem ne (n : String) : Mostly fun z => n != z :=
  ⟨[n], fun _ hz => bne_iff_ne.mpr fun h => hz (h ▸ List.mem_singleton_self n)⟩

/-- A property of all names but finitely many is that of some name. -/
theorem exists_name (hp : Mostly p) : ∃ z, p z = true := by
  obtain ⟨names, hp⟩ := hp
  obtain ⟨z, hz⟩ := Infinite.exists_notMem_finset names.toFinset
  exact ⟨z, hp z (by simpa using hz)⟩

theorem not_isVar (e : Expr) : Mostly fun z => !e.isVar z := by
  cases e with
  | var n pos => exact ne n
  | _ => exact always

theorem not_and_isVar (b : Bool) (e : Expr) : Mostly fun z => !(b && e.isVar z) := by
  cases b with
  | false => exact always
  | true => exact not_isVar e

theorem not_any_isVar (e : Option Expr) : Mostly fun z => !e.any (Expr.isVar z) := by
  cases e with
  | none => exact always
  | some e => exact not_isVar e

theorem option_ne (n : Option String) : Mostly fun z => n != some z := by
  cases n with
  | none => exact always
  | some n => exact ne n

theorem not_any_captured (captured : List (String × Pos)) : Mostly fun z => !captured.any (·.1 == z) := by
  induction captured with
  | nil => exact always
  | cons c captured ih =>
    simp only [List.any_cons, Bool.not_or]
    exact (ne c.1).and ih

end Mostly

mutual

theorem Expr.mostly_spares : (e : Expr) → Mostly fun z => e.spares z
  | .lit _ _ | .var _ _ | .this _ => .always
  | .template parts _ | .array parts _ => Expr.mostly_allSpare parts
  | .map entries _ => Expr.mostly_entriesSpare entries
  | .call _ args _ => (Mostly.not_any_isVar args.head?).and (Expr.mostly_allSpare args)
  | .unary _ e _ => e.mostly_spares
  | .binary op l r _ =>
    ((Mostly.not_and_isVar (["in", "!in"].contains op) r).and l.mostly_spares).and r.mostly_spares
  | .and l r _ | .or l r _ | .coalesce l r _ => l.mostly_spares.and r.mostly_spares
  | .chain root links => ((Mostly.not_isVar root).and root.mostly_spares).and (Link.mostly_allSpare links)
  | .closure _ captured _ => Mostly.not_any_captured captured
  | .stmt body _ => body.mostly_spares

theorem Expr.mostly_allSpare : (es : List Expr) → Mostly fun z => Expr.allSpare z es
  | [] => .always
  | e :: es => e.mostly_spares.and (Expr.mostly_allSpare es)

theorem Expr.mostly_entriesSpare : (es : List (String × Expr)) → Mostly fun z => Expr.entriesSpare z es
  | [] => .always
  | (_, e) :: es => e.mostly_spares.and (Expr.mostly_entriesSpare es)

theorem Expr.mostly_optionSpares : (e : Option Expr) → Mostly fun z => Expr.optionSpares z e
  | none => .always
  | some e => e.mostly_spares

theorem Link.mostly_spares : (l : Link) → Mostly fun z => l.spares z
  | .property .. => .always
  | .method _ args _ _ _ => Expr.mostly_allSpare args
  | .index e _ _ => e.mostly_spares

theorem Link.mostly_allSpare : (ls : List Link) → Mostly fun z => Link.allSpare z ls
  | [] => .always
  | l :: ls => l.mostly_spares.and (Link.mostly_allSpare ls)

theorem Stmt.mostly_spares : (s : Stmt) → Mostly fun z => s.spares z
  | .noop | .continueLoop _ => .always
  | .expr e | .importModule e _ => e.mostly_spares
  | .declare n _ value _ => (Mostly.ne n).and (Expr.mostly_optionSpares value)
  | .assign _ target value _ => ((Mostly.not_isVar target).and target.mostly_spares).and value.mostly_spares
  | .block body _ => Stmt.mostly_allSpare body
  | .ifElse e yes no _ => (e.mostly_spares.and (Stmt.mostly_allSpare yes)).and (Stmt.mostly_allSpare no)
  | .whileLoop e body _ => (Expr.mostly_optionSpares e).and (Stmt.mostly_allSpare body)
  | .doLoop body e _ _ => (Stmt.mostly_allSpare body).and e.mostly_spares
  | .forLoop n counter subject body _ =>
    (((Mostly.ne n).and (Mostly.option_ne counter)).and subject.mostly_spares).and (Stmt.mostly_allSpare body)
  | .switch subject cases default _ =>
    (subject.mostly_spares.and (Case.mostly_allSpare cases)).and (Stmt.mostly_optionSpares default)
  | .tryCatch body n handler _ =>
    ((Mostly.option_ne n).and (Stmt.mostly_allSpare body)).and (Stmt.mostly_allSpare handler)
  | .leave _ value _ | .breakLoop value _ => Expr.mostly_optionSpares value

/-- A script spares the variables of all names but finitely many. -/
theorem Stmt.mostly_allSpare : (body : List Stmt) → Mostly fun z => Stmt.allSpare z body
  | [] => .always
  | s :: body => s.mostly_spares.and (Stmt.mostly_allSpare body)

theorem Stmt.mostly_optionSpares : (s : Option Stmt) → Mostly fun z => Stmt.optionSpares z s
  | none => .always
  | some s => s.mostly_spares

theorem Case.mostly_spares : (c : Case) → Mostly fun z => c.spares z
  | .mk patterns e action =>
    ((Pattern.mostly_allSpare patterns).and (Expr.mostly_optionSpares e)).and action.mostly_spares

theorem Case.mostly_allSpare : (cs : List Case) → Mostly fun z => Case.allSpare z cs
  | [] => .always
  | c :: cs => c.mostly_spares.and (Case.mostly_allSpare cs)

theorem Pattern.mostly_spares : (p : Pattern) → Mostly fun z => p.spares z
  | .value e => e.mostly_spares
  | .range .. => .always

theorem Pattern.mostly_allSpare : (ps : List Pattern) → Mostly fun z => Pattern.allSpare z ps
  | [] => .always
  | p :: ps => p.mostly_spares.and (Pattern.mostly_allSpare ps)

end

end ScriptAgent.Script
