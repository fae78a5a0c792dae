import ScriptAgent.Script.Token

/-!
# Syntax trees of scripts

Expressions, statements and function definitions, each with the places that errors name.  A run of
property accesses, method calls and indexings is one chain from its root.
-/

namespace ScriptAgent.Script

/-- A constant of the language. -/
inductive Literal where
  | unit
  | bool (b : Bool)
  | int (n : Int)
  | float (x : Float)
  | char (c : Char)
  | str (s : String)

/-- How a statement hands a value out of a function. -/
inductive Leave where
  | return
  | throw
deriving DecidableEq

mutual

/-- An expression. -/
inductive Expr where
  | lit (value : Literal) (pos : Pos)
  /-- A text with interpolated blocks. -/
  | template (parts : List Expr) (pos : Pos)
  | array (items : List Expr) (pos : Pos)
  | map (entries : List (String × Expr)) (pos : Pos)
  | var (name : String) (pos : Pos)
  | this (pos : Pos)
  | call (name : String) (args : List Expr) (pos : Pos)
  | unary (op : String) (operand : Expr) (pos : Pos)
  | binary (op : String) (left right : Expr) (pos : Pos)
  | and (left right : Expr) (pos : Pos)
  | or (left right : Expr) (pos : Pos)
  | coalesce (left right : Expr) (pos : Pos)
  | chain (root : Expr) (links : List Link)
  /-- A function without a name, with the outer variables it uses. -/
  | closure (index : Nat) (captured : List (String × Pos)) (pos : Pos)
  | stmt (body : Stmt) (pos : Pos)

/-- One step of a chain; a safe step gives the empty value on an empty value. -/
inductive Link where
  | property (name : String) (pos opPos : Pos) (safe : Bool)
  | method (name : String) (args : List Expr) (pos opPos : Pos) (safe : Bool)
  | index (at_ : Expr) (opPos : Pos) (safe : Bool)

/-- A statement. -/
inductive Stmt where
  | noop
  | expr (e : Expr)
  | declare (name : String) (constant : Bool) (value : Option Expr) (pos : Pos)
  /-- An assignment, through an operator if `op` is not empty. -/
  | assign (op : String) (target value : Expr) (pos : Pos)
  | block (body : List Stmt) (pos : Pos)
  | ifElse (condition : Expr) (yes no : List Stmt) (pos : Pos)
  | whileLoop (condition : Option Expr) (body : List Stmt) (pos : Pos)
  | doLoop (body : List Stmt) (condition : Expr) (until_ : Bool) (pos : Pos)
  | forLoop (name : String) (counter : Option String) (subject : Expr) (body : List Stmt) (pos : Pos)
  | switch (subject : Expr) (cases : List Case) (default : Option Stmt) (pos : Pos)
  | tryCatch (body : List Stmt) (name : Option String) (handler : List Stmt) (pos : Pos)
  | leave (how : Leave) (value : Option Expr) (pos : Pos)
  | breakLoop (value : Option Expr) (pos : Pos)
  | continueLoop (pos : Pos)
  | importModule (path : Expr) (pos : Pos)

/-- A case of a switch: its constants, a condition, and what it does. -/
inductive Case where
  | mk (patterns : List Pattern) (condition : Option Expr) (action : Stmt)

/-- A constant, or a range of integers, that a case covers. -/
inductive Pattern where
  | value (v : Expr)
  | range (low high : Int) (inclusive : Bool)

end

/-- A function of a script. -/
structure Function where
  /-- Empty for a function without a name. -/
  name : String
  params : List String
  body : List Stmt

/-- A script: its functions and its statements. -/
structure Program where
  functions : List Function
  body : List Stmt

instance : Inhabited Expr := ⟨.lit .unit Pos.none⟩
instance : Inhabited Stmt := ⟨.noop⟩

namespace Expr

/-- The place an expression is named by. -/
def pos : Expr → Pos
  | .lit _ p | .template _ p | .array _ p | .map _ p | .var _ p | .this p | .call _ _ p | .unary _ _ p
  | .binary _ _ _ p | .and _ _ p | .or _ _ p | .coalesce _ _ p | .closure _ _ p | .stmt _ p => p
  | .chain _ (.property _ _ p _ :: _) => p
  | .chain _ (.method _ _ _ p _ :: _) => p
  | .chain _ (.index _ p _ :: _) => p
  | .chain root [] => root.pos

/-- The place of the first token of an expression. -/
def startPos : Expr → Pos
  | .template (part :: _) _ => part.pos
  | .and l _ _ | .or l _ _ | .coalesce l _ _ => l.startPos
  | .chain root _ => root.startPos
  | e => e.pos

end Expr

mutual

/-- Whether an expression is built of constants only. -/
def Expr.isConstant : Expr → Bool
  | .lit _ _ => true
  | .template parts _ => Expr.allConstant parts
  | .array items _ => Expr.allConstant items
  | .map entries _ => Expr.allConstantEntries entries
  | _ => false

/-- Whether all expressions are built of constants only. -/
def Expr.allConstant : List Expr → Bool
  | [] => true
  | e :: es => e.isConstant && Expr.allConstant es

/-- Whether all entries are built of constants only. -/
def Expr.allConstantEntries : List (String × Expr) → Bool
  | [] => true
  | (_, e) :: es => e.isConstant && Expr.allConstantEntries es

end

mutual

/-- Whether evaluating an expression for nothing but its value is of no use. -/
def Expr.isIdle : Expr → Bool
  | .lit _ _ => true
  | .var _ _ => true
  | .template parts _ => Expr.allIdle parts
  | .array items _ => Expr.allIdle items
  | .map entries _ => Expr.allIdleEntries entries
  | .and l r _ | .or l r _ | .coalesce l r _ => l.isIdle && r.isIdle
  | .stmt body _ => body.isIdle
  | _ => false

/-- Whether all expressions are idle. -/
def Expr.allIdle : List Expr → Bool
  | [] => true
  | e :: es => e.isIdle && Expr.allIdle es

/-- Whether all entries are idle. -/
def Expr.allIdleEntries : List (String × Expr) → Bool
  | [] => true
  | (_, e) :: es => e.isIdle && Expr.allIdleEntries es

/-- Whether running a statement for nothing but its value is of no use. -/
def Stmt.isIdle : Stmt → Bool
  | .noop => true
  | .expr e => e.isIdle
  | .block body _ => Stmt.allIdle body
  | .ifElse condition yes no _ => condition.isIdle && Stmt.allIdle yes && Stmt.allIdle no
  | _ => false

/-- Whether all statements are idle. -/
def Stmt.allIdle : List Stmt → Bool
  | [] => true
  | s :: rest => s.isIdle && Stmt.allIdle rest

end

mutual

/-- A statement whose value nobody looks at, without its idle parts. -/
def Stmt.discard : Stmt → Stmt
  | .expr e => if e.isIdle then .noop else .expr e
  | .block body pos => .block (Stmt.discardAll body) pos
  | .ifElse condition yes no pos => .ifElse condition (Stmt.discardAll yes) (Stmt.discardAll no) pos
  | s => s

/-- Statements of which nobody looks at a value, without their idle parts. -/
def Stmt.discardAll : List Stmt → List Stmt
  | [] => []
  | s :: rest => if s.isIdle then Stmt.discardAll rest else s.discard :: Stmt.discardAll rest

end

/-- Statements of which only the last gives a value, without the idle ones before it. -/
def Stmt.keepLast : List Stmt → List Stmt
  | [] => []
  | [s] => [s]
  | s :: rest => if s.isIdle then Stmt.keepLast rest else s.discard :: Stmt.keepLast rest

/-- Whether a statement ends without a semicolon. -/
def Stmt.endsItself : Stmt → Bool
  | .ifElse .. | .switch .. | .block .. | .whileLoop .. | .forLoop .. | .tryCatch .. => true
  | _ => false

end ScriptAgent.Script
