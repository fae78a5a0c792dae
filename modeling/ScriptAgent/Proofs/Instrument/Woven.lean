import Mathlib.Data.List.Forall2
import ScriptAgent.Script.Ast

/-!
# Trees with hooks put in

When hooks are put into a script, its syntax tree gets statements that call them.  A tree is woven
from another if it is that tree with such calls put in, none of them where its empty value would
take the place of a value that is looked at.  Places in the text do not matter.
-/

namespace ScriptAgent.Script

/-- The names of the hooks that are called for what they note, not for a value. -/
def hookNames : List String :=
  ["__track_line", "__track_tool_call", "__record_comment"]

/-- The statements that call a hook, as compiled scripts hold them. -/
inductive Stmt.Hook : Stmt → Prop
  | line (n : Int) (p q : Pos) : Hook (.expr (.call "__track_line" [.lit (.int n) p] q))
  | call (n : Int) (p q : Pos) : Hook (.expr (.call "__track_tool_call" [.lit (.int n) p] q))
  | comment (text : String) (n : Int) (p q r : Pos) :
    Hook (.expr (.call "__record_comment" [.lit (.str text) p, .lit (.int n) q] r))

mutual

/-- Whether a statement that comes to its end gives the empty value, given whether every loop that
is broken is broken without a value. -/
def Stmt.isSilent (mute : Bool) : Stmt → Bool
  | .noop | .declare .. | .assign .. | .tryCatch .. | .leave .. | .breakLoop .. | .continueLoop _
  | .importModule .. => true
  | .whileLoop .. | .doLoop .. | .forLoop .. => mute
  | .block body _ => Stmt.endsSilent mute body
  | .ifElse _ yes no _ => Stmt.endsSilent mute yes && Stmt.endsSilent mute no
  | .switch _ cases default _ => Case.allSilent mute cases && Stmt.optionSilent mute default
  | .expr _ => false

/-- Whether the last of some statements is silent. -/
def Stmt.endsSilent (mute : Bool) : List Stmt → Bool
  | [] => true
  | [s] => s.isSilent mute
  | _ :: rest => Stmt.endsSilent mute rest

/-- Whether the statement is silent, if there is one. -/
def Stmt.optionSilent (mute : Bool) : Option Stmt → Bool
  | none => true
  | some s => s.isSilent mute

/-- Whether what a case does is silent. -/
def Case.isSilent (mute : Bool) : Case → Bool
  | .mk _ _ action => action.isSilent mute

/-- Whether what any of some cases does is silent. -/
def Case.allSilent (mute : Bool) : List Case → Bool
  | [] => true
  | c :: rest => c.isSilent mute && Case.allSilent mute rest

end

mutual

/-- An expression with hooks put into the statements it holds. -/
inductive Expr.Woven (mute : Bool) : Expr → Expr → Prop
  | lit (v : Literal) (p q : Pos) : Expr.Woven mute (.lit v p) (.lit v q)
  | template {es es' : List Expr} (h : List.Forall₂ (Expr.Woven mute) es es') (p q : Pos) :
    Expr.Woven mute (.template es p) (.template es' q)
  | array {es es' : List Expr} (h : List.Forall₂ (Expr.Woven mute) es es') (p q : Pos) :
    Expr.Woven mute (.array es p) (.array es' q)
  | map {es es' : List (String × Expr)} (h : Entries.Woven mute es es') (p q : Pos) :
    Expr.Woven mute (.map es p) (.map es' q)
  | var (name : String) (p q : Pos) : Expr.Woven mute (.var name p) (.var name q)
  | this (p q : Pos) : Expr.Woven mute (.this p) (.this q)
  | call (name : String) {es es' : List Expr} (h : List.Forall₂ (Expr.Woven mute) es es') (p q : Pos) :
    Expr.Woven mute (.call name es p) (.call name es' q)
  | unary (op : String) {e e' : Expr} (h : Expr.Woven mute e e') (p q : Pos) :
    Expr.Woven mute (.unary op e p) (.unary op e' q)
  | binary (op : String) {l l' r r' : Expr} (hl : Expr.Woven mute l l') (hr : Expr.Woven mute r r') (p q : Pos) :
    Expr.Woven mute (.binary op l r p) (.binary op l' r' q)
  | and {l l' r r' : Expr} (hl : Expr.Woven mute l l') (hr : Expr.Woven mute r r') (p q : Pos) :
    Expr.Woven mute (.and l r p) (.and l' r' q)
  | or {l l' r r' : Expr} (hl : Expr.Woven mute l l') (hr : Expr.Woven mute r r') (p q : Pos) :
    Expr.Woven mute (.or l r p) (.or l' r' q)
  | coalesce {l l' r r' : Expr} (hl : Expr.Woven mute l l') (hr : Expr.Woven mute r r') (p q : Pos) :
    Expr.Woven mute (.coalesce l r p) (.coalesce l' r' q)
  | chain {e e' : Expr} {links links' : List Link} (h : Expr.Woven mute e e')
    (hl : List.Forall₂ (Link.Woven mute) links links') : Expr.Woven mute (.chain e links) (.chain e' links')
  | closure (index : Nat) {vars vars' : List (String × Pos)} (h : vars.map (·.1) = vars'.map (·.1))
    (p q : Pos) : Expr.Woven mute (.closure index vars p) (.closure index vars' q)
  | stmt {s s' : Stmt} (h : Stmt.Woven mute true s s') (p q : Pos) : Expr.Woven mute (.stmt s p) (.stmt s' q)

/-- The entries of a map with hooks put into them. -/
inductive Entries.Woven (mute : Bool) : List (String × Expr) → List (String × Expr) → Prop
  | nil : Entries.Woven mute [] []
  | cons (key : String) {e e' : Expr} {es es' : List (String × Expr)} (h : Expr.Woven mute e e')
    (hs : Entries.Woven mute es es') : Entries.Woven mute ((key, e) :: es) ((key, e') :: es')

/-- A step of a chain with hooks put into it. -/
inductive Link.Woven (mute : Bool) : Link → Link → Prop
  | property (name : String) (p p' q q' : Pos) (safe : Bool) :
    Link.Woven mute (.property name p q safe) (.property name p' q' safe)
  | method (name : String) {es es' : List Expr} (h : List.Forall₂ (Expr.Woven mute) es es')
    (p p' q q' : Pos) (safe : Bool) :
    Link.Woven mute (.method name es p q safe) (.method name es' p' q' safe)
  | index {e e' : Expr} (h : Expr.Woven mute e e') (p p' : Pos) (safe : Bool) :
    Link.Woven mute (.index e p safe) (.index e' p' safe)

/-- A statement with hooks put into the statements it holds; `valued` tells whether its value is
looked at. -/
inductive Stmt.Woven (mute : Bool) : Bool → Stmt → Stmt → Prop
  | noop (valued : Bool) : Stmt.Woven mute valued .noop .noop
  | expr (valued : Bool) {e e' : Expr} (h : Expr.Woven mute e e') :
    Stmt.Woven mute valued (.expr e) (.expr e')
  | declare (valued : Bool) (name : String) (constant : Bool) {e e' : Option Expr}
    (h : Option.Rel (Expr.Woven mute) e e') (p q : Pos) :
    Stmt.Woven mute valued (.declare name constant e p) (.declare name constant e' q)
  | assign (valued : Bool) (op : String) {t t' e e' : Expr} (ht : Expr.Woven mute t t')
    (h : Expr.Woven mute e e') (p q : Pos) :
    Stmt.Woven mute valued (.assign op t e p) (.assign op t' e' q)
  | block (valued : Bool) {ss ss' : List Stmt} (h : Stmts.Woven mute valued ss ss') (p q : Pos) :
    Stmt.Woven mute valued (.block ss p) (.block ss' q)
  | ifElse (valued : Bool) {e e' : Expr} {yes yes' no no' : List Stmt} (he : Expr.Woven mute e e')
    (hy : Stmts.Woven mute valued yes yes') (hn : Stmts.Woven mute valued no no') (p q : Pos) :
    Stmt.Woven mute valued (.ifElse e yes no p) (.ifElse e' yes' no' q)
  | whileLoop (valued : Bool) {e e' : Option Expr} {ss ss' : List Stmt}
    (he : Option.Rel (Expr.Woven mute) e e') (h : Stmts.Woven mute false ss ss') (p q : Pos) :
    Stmt.Woven mute valued (.whileLoop e ss p) (.whileLoop e' ss' q)
  | doLoop (valued : Bool) {e e' : Expr} {ss ss' : List Stmt} (h : Stmts.Woven mute false ss ss')
    (he : Expr.Woven mute e e') (until_ : Bool) (p q : Pos) :
    Stmt.Woven mute valued (.doLoop ss e until_ p) (.doLoop ss' e' until_ q)
  | forLoop (valued : Bool) (name : String) (counter : Option String) {e e' : Expr} {ss ss' : List Stmt}
    (he : Expr.Woven mute e e') (h : Stmts.Woven mute false ss ss') (p q : Pos) :
    Stmt.Woven mute valued (.forLoop name counter e ss p) (.forLoop name counter e' ss' q)
  | switch (valued : Bool) {e e' : Expr} {cs cs' : List Case} {d d' : Option Stmt}
    (he : Expr.Woven mute e e') (hc : Cases.Woven mute valued cs cs')
    (hd : Default.Woven mute valued d d') (p q : Pos) :
    Stmt.Woven mute valued (.switch e cs d p) (.switch e' cs' d' q)
  | tryCatch (valued : Bool) (name : Option String) {ss ss' hs hs' : List Stmt}
    (h : Stmts.Woven mute false ss ss') (hh : Stmts.Woven mute false hs hs') (p q : Pos) :
    Stmt.Woven mute valued (.tryCatch ss name hs p) (.tryCatch ss' name hs' q)
  | leave (valued : Bool) (how : Leave) {e e' : Option Expr} (h : Option.Rel (Expr.Woven mute) e e') (p q : Pos) :
    Stmt.Woven mute valued (.leave how e p) (.leave how e' q)
  | break (valued : Bool) (p q : Pos) : Stmt.Woven mute valued (.breakLoop none p) (.breakLoop none q)
  | breakWith (valued : Bool) {e e' : Expr} (hb : mute = false) (h : Expr.Woven mute e e') (p q : Pos) :
    Stmt.Woven mute valued (.breakLoop (some e) p) (.breakLoop (some e') q)
  | continue (valued : Bool) (p q : Pos) : Stmt.Woven mute valued (.continueLoop p) (.continueLoop q)
  | importModule (valued : Bool) {e e' : Expr} (h : Expr.Woven mute e e') (p q : Pos) :
    Stmt.Woven mute valued (.importModule e p) (.importModule e' q)

/-- Statements with hooks put between them and into them.  A hook stands last only where nobody
looks at a value, or where the value was the empty one. -/
inductive Stmts.Woven (mute : Bool) : Bool → List Stmt → List Stmt → Prop
  | nil (valued : Bool) : Stmts.Woven mute valued [] []
  | hook {valued : Bool} {h : Stmt} {ss ss' : List Stmt} (hh : h.Hook) (hs : Stmts.Woven mute valued ss ss') :
    Stmts.Woven mute valued ss (h :: ss')
  | last {valued : Bool} {s s' : Stmt} (h : Stmt.Woven mute valued s s') : Stmts.Woven mute valued [s] [s']
  | hooked {valued : Bool} {s s' h : Stmt} {hs : List Stmt} (hv : valued = true → s.isSilent mute = true)
    (h₁ : Stmt.Woven mute false s s') (hh : h.Hook) (h₂ : Stmts.Woven mute valued [] hs) :
    Stmts.Woven mute valued [s] (s' :: h :: hs)
  | cons {valued : Bool} {s s' t : Stmt} {ss ss' : List Stmt} (h : Stmt.Woven mute false s s')
    (hs : Stmts.Woven mute valued (t :: ss) ss') : Stmts.Woven mute valued (s :: t :: ss) (s' :: ss')

/-- The cases of a switch with hooks put into them. -/
inductive Cases.Woven (mute : Bool) : Bool → List Case → List Case → Prop
  | nil (valued : Bool) : Cases.Woven mute valued [] []
  | cons {valued : Bool} {ps ps' : List Pattern} {e e' : Option Expr} {s s' : Stmt} {cs cs' : List Case}
    (hp : List.Forall₂ (Pattern.Woven mute) ps ps') (he : Option.Rel (Expr.Woven mute) e e')
    (hs : Stmt.Woven mute valued s s') (hc : Cases.Woven mute valued cs cs') :
    Cases.Woven mute valued (.mk ps e s :: cs) (.mk ps' e' s' :: cs')

/-- What a switch does by default with hooks put into it. -/
inductive Default.Woven (mute : Bool) : Bool → Option Stmt → Option Stmt → Prop
  | none (valued : Bool) : Default.Woven mute valued none none
  | some {valued : Bool} {s s' : Stmt} (h : Stmt.Woven mute valued s s') :
    Default.Woven mute valued (some s) (some s')

/-- A pattern with hooks put into it. -/
inductive Pattern.Woven (mute : Bool) : Pattern → Pattern → Prop
  | value {e e' : Expr} (h : Expr.Woven mute e e') : Pattern.Woven mute (.value e) (.value e')
  | range (low high : Int) (inclusive : Bool) :
    Pattern.Woven mute (.range low high inclusive) (.range low high inclusive)

end

/-- A function with hooks put into its body. -/
structure Function.Woven (mute : Bool) (f f' : Function) : Prop where
  name : f'.name = f.name
  params : f'.params = f.params
  body : Stmts.Woven mute true f.body f'.body

/-- A script with hooks put into it, none of which a function of its own is called for. -/
structure Program.Woven (mute : Bool) (p p' : Program) : Prop where
  functions : List.Forall₂ (Function.Woven mute) p.functions p'.functions
  body : Stmts.Woven mute true p.body p'.body

/-- No function of a script has the name of a hook. -/
def Program.Unshadowed (p : Program) : Prop :=
  ∀ f ∈ p.functions, f.name ∉ hookNames

/-! ### A tree without hooks -/

mutual

theorem Expr.Woven.refl : ∀ e : Expr, e.Woven false e
  | .lit v p => .lit v p p
  | .template es p => .template (Expr.Woven.refls es) p p
  | .array es p => .array (Expr.Woven.refls es) p p
  | .map es p => .map (Entries.Woven.refl es) p p
  | .var name p => .var name p p
  | .this p => .this p p
  | .call name es p => .call name (Expr.Woven.refls es) p p
  | .unary op e p => .unary op (Expr.Woven.refl e) p p
  | .binary op l r p => .binary op (Expr.Woven.refl l) (Expr.Woven.refl r) p p
  | .and l r p => .and (Expr.Woven.refl l) (Expr.Woven.refl r) p p
  | .or l r p => .or (Expr.Woven.refl l) (Expr.Woven.refl r) p p
  | .coalesce l r p => .coalesce (Expr.Woven.refl l) (Expr.Woven.refl r) p p
  | .chain e links => .chain (Expr.Woven.refl e) (Link.Woven.refls links)
  | .closure index _ p => .closure index rfl p p
  | .stmt s p => .stmt (Stmt.Woven.refl true s) p p

theorem Expr.Woven.refls : ∀ es : List Expr, List.Forall₂ (Expr.Woven false) es es
  | [] => .nil
  | e :: es => .cons (Expr.Woven.refl e) (Expr.Woven.refls es)

theorem Expr.Woven.reflOption : ∀ e : Option Expr, Option.Rel (Expr.Woven false) e e
  | none => .none
  | some e => .some (Expr.Woven.refl e)

theorem Entries.Woven.refl : ∀ es : List (String × Expr), Entries.Woven false es es
  | [] => .nil
  | (key, e) :: es => .cons key (Expr.Woven.refl e) (Entries.Woven.refl es)

theorem Link.Woven.refl : ∀ l : Link, l.Woven false l
  | .property name p q safe => .property name p p q q safe
  | .method name es p q safe => .method name (Expr.Woven.refls es) p p q q safe
  | .index e p safe => .index (Expr.Woven.refl e) p p safe

theorem Link.Woven.refls : ∀ ls : List Link, List.Forall₂ (Link.Woven false) ls ls
  | [] => .nil
  | l :: ls => .cons (Link.Woven.refl l) (Link.Woven.refls ls)

theorem Stmt.Woven.refl (valued : Bool) : ∀ s : Stmt, Stmt.Woven false valued s s
  | .noop => .noop valued
  | .expr e => .expr valued (Expr.Woven.refl e)
  | .declare name constant e p => .declare valued name constant (Expr.Woven.reflOption e) p p
  | .assign op t e p => .assign valued op (Expr.Woven.refl t) (Expr.Woven.refl e) p p
  | .block ss p => .block valued (Stmts.Woven.refl valued ss) p p
  | .ifElse e yes no p =>
    .ifElse valued (Expr.Woven.refl e) (Stmts.Woven.refl valued yes) (Stmts.Woven.refl valued no) p p
  | .whileLoop e ss p => .whileLoop valued (Expr.Woven.reflOption e) (Stmts.Woven.refl false ss) p p
  | .doLoop ss e until_ p => .doLoop valued (Stmts.Woven.refl false ss) (Expr.Woven.refl e) until_ p p
  | .forLoop name counter e ss p =>
    .forLoop valued name counter (Expr.Woven.refl e) (Stmts.Woven.refl false ss) p p
  | .switch e cs d p =>
    .switch valued (Expr.Woven.refl e) (Cases.Woven.refl valued cs) (Default.Woven.refl valued d) p p
  | .tryCatch ss name hs p =>
    .tryCatch valued name (Stmts.Woven.refl false ss) (Stmts.Woven.refl false hs) p p
  | .leave how e p => .leave valued how (Expr.Woven.reflOption e) p p
  | .breakLoop none p => .break valued p p
  | .breakLoop (some e) p => .breakWith valued rfl (Expr.Woven.refl e) p p
  | .continueLoop p => .continue valued p p
  | .importModule e p => .importModule valued (Expr.Woven.refl e) p p

theorem Stmts.Woven.refl (valued : Bool) : ∀ ss : List Stmt, Stmts.Woven false valued ss ss
  | [] => .nil valued
  | [s] => .last (Stmt.Woven.refl valued s)
  | s :: t :: ss => .cons (Stmt.Woven.refl false s) (Stmts.Woven.refl valued (t :: ss))

theorem Cases.Woven.refl (valued : Bool) : ∀ cs : List Case, Cases.Woven false valued cs cs
  | [] => .nil valued
  | .mk ps e s :: cs =>
    .cons (Pattern.Woven.refls ps) (Expr.Woven.reflOption e) (Stmt.Woven.refl valued s)
      (Cases.Woven.refl valued cs)

theorem Default.Woven.refl (valued : Bool) : ∀ d : Option Stmt, Default.Woven false valued d d
  | none => .none valued
  | some s => .some (Stmt.Woven.refl valued s)

theorem Pattern.Woven.refl : ∀ p : Pattern, p.Woven false p
  | .value e => .value (Expr.Woven.refl e)
  | .range low high inclusive => .range low high inclusive

theorem Pattern.Woven.refls : ∀ ps : List Pattern, List.Forall₂ (Pattern.Woven false) ps ps
  | [] => .nil
  | p :: ps => .cons (Pattern.Woven.refl p) (Pattern.Woven.refls ps)

end

theorem Program.Woven.refl (p : Program) : p.Woven false p :=
  ⟨List.forall₂_same.mpr fun f _ => ⟨rfl, rfl, Stmts.Woven.refl true f.body⟩, Stmts.Woven.refl true p.body⟩

end ScriptAgent.Script
