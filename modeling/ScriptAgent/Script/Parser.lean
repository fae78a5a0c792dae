import ScriptAgent.Number.Text
import ScriptAgent.Script.Ast
import ScriptAgent.Script.Lexer
import ScriptAgent.Script.ParseError

/-!
# From tokens to syntax trees

A recursive-descent parser over placed tokens.  It bounds the depth of expressions, inside functions
more tightly than outside, knows which variables are constants, and records for every function
without a name which outer variables it uses.  The fuel of the parsing functions is more than the
tokens of a script can use up.
-/

namespace ScriptAgent.Script

/-- What the parser refuses as too large. -/
structure ParseLimits where
  depth : Nat := 32
  functionDepth : Nat := 16
  text : Option Nat := none
  array : Option Nat := none
  map : Option Nat := none

/-- The parser between two tokens. -/
structure ParseState where
  tokens : List Placed
  /-- Variables in scope inside the function being read, the latest first, and whether each is
  constant. -/
  scope : List (String × Bool) := []
  /-- Outer variables used by the function being read. -/
  outer : List (String × Pos) := []
  functions : List Function := []

/-- Where the parser stands. -/
structure ParseSettings where
  level : Nat := 0
  maxLevel : Nat
  pos : Pos := Pos.start
  isGlobal : Bool := false
  inFunction : Bool := false
  inLoop : Bool := false
  /-- Whether a vertical bar ends the expression. -/
  barEnds : Bool := false

/-- A parser that may fail. -/
abbrev Parser := StateT ParseState (Except ParseError)

namespace Parser

/-- Fails at a place. -/
def fail (fault : ParseFault) (pos : Pos) : Parser α :=
  throw ⟨fault, pos⟩

/-- The next token, not taken. -/
def peek : Parser Placed := do
  match (← get).tokens with
  | t :: _ => return t
  | [] => return ⟨.eof, Pos.start⟩

/-- Takes the next token; the end of the script and a bad token stay. -/
def next : Parser Placed := do
  match (← get).tokens with
  | t :: rest =>
    match t.token with
    | .eof | .bad _ => return t
    | _ =>
      modify ({ · with tokens := rest })
      return t
  | [] => return ⟨.eof, Pos.start⟩

/-- Whether the next token is the mark. -/
def sees (mark : String) : Parser Bool := do
  match (← peek).token with
  | .mark m => return m == mark
  | _ => return false

/-- Takes the next token if it is the mark. -/
def accept (mark : String) : Parser Bool := do
  if ← sees mark then
    let _ ← next
    return true
  else return false

/-- Fails on a bad token, otherwise because a mark is missing. -/
def missing (t : Placed) (mark purpose : String) : Parser α :=
  match t.token with
  | .bad e => fail (.lex e) t.pos
  | _ => fail (.missing mark purpose) t.pos

/-- Takes the given mark or fails. -/
def expect (mark purpose : String) : Parser Pos := do
  let t ← next
  match t.token with
  | .mark m => if m == mark then return t.pos else missing t mark purpose
  | _ => missing t mark purpose

/-- One level deeper. -/
def deeper (s : ParseSettings) : Parser ParseSettings :=
  if s.level ≥ s.maxLevel then fail .tooDeep s.pos else return { s with level := s.level + 1 }

/-- The name of a variable. -/
def variableName : Parser (String × Pos) := do
  let t ← next
  match t.token with
  | .ident name => return (name, t.pos)
  | .reserved text =>
    if isNameShaped text then fail (.reserved text) t.pos else fail .variableExpected t.pos
  | .bad e => fail (.lex e) t.pos
  | _ => fail .variableExpected t.pos

/-- Brings a variable into scope. -/
def declare (name : String) (constant : Bool) : Parser Unit :=
  modify fun st => { st with scope := (name, constant) :: st.scope }

/-- Runs a parser and forgets the variables it brought into scope. -/
def inScope (p : Parser α) : Parser α := do
  let scope := (← get).scope
  let a ← p
  modify ({ · with scope := scope })
  return a

/-- Notes a use of a variable. -/
def use (name : String) (pos : Pos) : Parser Unit := do
  let st ← get
  if (st.scope.lookup name).isNone && (st.outer.lookup name).isNone then
    set { st with outer := st.outer ++ [(name, pos)] }

/-- Adds a function and gives its index. -/
def addFunction (f : Function) : Parser Nat := do
  let st ← get
  set { st with functions := st.functions ++ [f] }
  return st.functions.length

end Parser

/-- The spelling of a token in messages. -/
def Token.spelling : Token → String
  | .int n => toString n
  | .float x => Number.scriptStyle.render x
  | .char c => String.singleton c
  | .str s => s
  | .template s => s
  | .ident name => name
  | .reserved text => text
  | .mark text => text
  | .bad e => e.message
  | .eof => ""

/-- How tightly an operator binds; zero for what is no operator. -/
def precedence (mark : String) : Nat :=
  if mark == "||" || mark == "|" || mark == "^" then 30
  else if mark == "&&" || mark == "&" then 60
  else if mark == "==" || mark == "!=" then 90
  else if mark == "in" || mark == "!in" then 110
  else if mark == "<" || mark == "<=" || mark == ">" || mark == ">=" then 130
  else if mark == "??" then 135
  else if mark == ".." || mark == "..=" then 140
  else if mark == "+" || mark == "-" then 150
  else if mark == "*" || mark == "/" || mark == "%" then 180
  else if mark == "**" then 190
  else if mark == "<<" || mark == ">>" then 210
  else 0

/-- Whether a mark assigns through an operator. -/
def isOpAssign (mark : String) : Bool :=
  ["+=", "-=", "*=", "/=", "%=", "**=", "&=", "|=", "^=", "<<=", ">>="].contains mark

namespace Expr

/-- What an expression that can be no condition is called. -/
def nonBoolean? : Expr → Option String
  | .lit .unit _ => some "()"
  | .lit (.bool _) _ => none
  | .lit (.int _) _ => some "a number"
  | .lit (.float _) _ => some "a floating-point number"
  | .lit (.char _) _ => some "a character"
  | .lit (.str _) _ => some "a string"
  | .template .. => some "a string"
  | .array .. => some "an array"
  | .map .. => some "an object map"
  | _ => none

/-- What an expression that can be no sequence is called. -/
def nonIterable? : Expr → Option String
  | .lit .unit _ => some "()"
  | .lit (.bool _) _ => some "a boolean"
  | .lit (.int _) _ => some "a number"
  | .lit (.float _) _ => some "a floating-point number"
  | .lit (.char _) _ => some "a character"
  | .and .. | .or .. => some "a boolean"
  | .map .. => some "an object map"
  | _ => none

/-- What an index that counts nothing is called. -/
def nonIndex? : Expr → Option String
  | .lit .unit _ => some "()"
  | .lit (.bool _) _ => some "a boolean"
  | .lit (.float _) _ => some "a float"
  | .lit (.char _) _ => some "a character"
  | .and .. | .or .. => some "a boolean"
  | _ => none

/-- Why one literal cannot index another. -/
def badIndexing? (root index : Expr) : Option (String × Pos) :=
  match root with
  | .map .. =>
    match index with
    | .lit (.int _) _ => some ("Object map expects string index, not a number", index.startPos)
    | _ => index.nonIndex?.map fun what => ("Object map expects string index, not " ++ what, index.startPos)
  | .lit (.int _) _ | .array .. | .lit (.str _) _ | .template .. =>
    match index with
    | .lit (.str _) _ | .template .. =>
      some ("Array, string or bit-field expects numeric index, not a string", index.startPos)
    | .lit (.float _) _ =>
      some ("Array, string or bit-field expects integer index, not a float", index.startPos)
    | _ =>
      index.nonIndex?.map fun what =>
        ("Array, string or bit-field expects numeric index, not " ++ what, index.startPos)
  | .lit (.float _) _ | .lit (.char _) _ | .lit (.bool _) _ | .lit .unit _ | .and .. | .or .. =>
    some ("Only arrays, object maps and strings can be indexed", root.startPos)
  | _ => none

/-- The sign of a constant turned. -/
def negate (operand : Expr) (pos : Pos) : Expr :=
  match operand with
  | .lit (.int n) _ => if fitsInt (-n) then .lit (.int (-n)) pos else .unary "-" operand pos
  | .lit (.float x) _ => .lit (.float (-x)) pos
  | e => .unary "-" e pos

/-- A constant range of integers. -/
def range? : Expr → Option Pattern
  | .binary ".." (.lit (.int a) _) (.lit (.int b) _) _ => some (.range a b false)
  | .binary "..=" (.lit (.int a) _) (.lit (.int b) _) _ => some (.range a b true)
  | _ => none

/-- An expression with one more step. -/
def link (e : Expr) (l : Link) : Expr :=
  match e with
  | .chain root links => .chain root (links ++ [l])
  | e => .chain e [l]

/-- A link of a chain that is no place to assign to, and where it stands. -/
def firstCall? : List Link → Option Pos
  | [] => none
  | .method _ _ pos _ _ :: _ => some pos
  | _ :: rest => firstCall? rest

end Expr

/-- Fails if a block follows where a condition should. -/
def notBlock : Parser Unit := do
  let t ← Parser.peek
  match t.token with
  | .mark "\x7b" => Parser.fail (.expressionExpected "a boolean") t.pos
  | _ => return

/-- Fails if an assignment follows a condition. -/
def notAssignment : Parser Unit := do
  let t ← Parser.peek
  match t.token with
  | .mark "=" => Parser.fail (.lex (.improper "Possibly a typo of '=='?")) t.pos
  | .mark m =>
    if isOpAssign m then
      Parser.fail (.lex (.improper "Expecting a boolean expression, not an assignment")) t.pos
    else return
  | _ => return

/-- The expression, unless it can be no condition. -/
def asCondition (e : Expr) : Parser Expr :=
  match e.nonBoolean? with
  | some what => Parser.fail (.mismatched "a boolean expression" what) e.startPos
  | none => return e

/-- The assignment of a value to a target, if the target can be assigned to. -/
def assignment (op : String) (target value : Expr) (pos : Pos) : Parser Stmt := do
  match target with
  | .this _ => return .assign op target value pos
  | .var name at_ =>
    if ((← get).scope.lookup name).getD false then Parser.fail (.assignToConstant name) at_
    else return .assign op target value pos
  | .chain root links =>
    match Expr.firstCall? links with
    | some place => Parser.fail .badTarget place
    | none =>
      match root with
      | .var .. | .this _ => return .assign op target value pos
      | e => Parser.fail .badTarget e.pos
  | .and .. | .or .. | .coalesce .. =>
    if op.isEmpty then Parser.fail (.lex (.improper "Possibly a typo of '=='?")) pos
    else Parser.fail .badTarget target.pos
  | e =>
    if e.isConstant then Parser.fail (.assignToConstant "") e.startPos else Parser.fail .badTarget e.pos

mutual

/-- An expression. -/
def parseExpr (lim : ParseLimits) : Nat → ParseSettings → Parser Expr
  | 0, s => Parser.fail .tooDeep s.pos
  | fuel + 1, s => do
    let s := { s with pos := (← Parser.peek).pos }
    let left ← parseUnary lim fuel s
    parseBinary lim fuel { s with pos := left.pos } 1 left

/-- The operators that bind at least as tightly as `parent`, from a left operand on. -/
def parseBinary (lim : ParseLimits) : Nat → ParseSettings → Nat → Expr → Parser Expr
  | 0, s, _, _ => Parser.fail .tooDeep s.pos
  | fuel + 1, s, parent, left => do
    let t ← Parser.peek
    if s.barEnds && t.token == .mark "|" then return left
    let p ← operatorPrecedence t
    let bindsRight := t.token == .mark "**"
    if p < parent || (p == parent && !bindsRight) then return left
    let _ ← Parser.next
    let right ← parseUnary lim fuel s
    let following ← Parser.peek
    let q ← operatorPrecedence following
    let right ←
      if (p == q && bindsRight) || p < q then parseBinary lim fuel s p right else pure right
    let s ← Parser.deeper s
    let s := { s with pos := t.pos }
    let joined ← join t left right
    parseBinary lim fuel s parent joined
where
  /-- The precedence of a token, symbols without a meaning being refused. -/
  operatorPrecedence (t : Placed) : Parser Nat :=
    match t.token with
    | .reserved text =>
      if isNameShaped text then return 0 else Parser.fail (.unknownOperator text) t.pos
    | .mark m => return precedence m
    | _ => return 0
  /-- Two operands joined by an operator. -/
  join (t : Placed) (left right : Expr) : Parser Expr := do
    match t.token with
    | .mark "||" =>
      let right ← asCondition right
      let left ← asCondition left
      return .or left right t.pos
    | .mark "&&" =>
      let right ← asCondition right
      let left ← asCondition left
      return .and left right t.pos
    | .mark "??" => return .coalesce left right t.pos
    | .mark op => return .binary op left right t.pos
    | _ => return left

/-- An operand with its signs. -/
def parseUnary (lim : ParseLimits) : Nat → ParseSettings → Parser Expr
  | 0, s => Parser.fail .tooDeep s.pos
  | fuel + 1, s => do
    let t ← Parser.peek
    let s := { s with pos := t.pos }
    match t.token with
    | .mark "-" =>
      let _ ← Parser.next
      let operand ← parseUnary lim fuel (← Parser.deeper s)
      return operand.negate t.pos
    | .mark "+" =>
      let _ ← Parser.next
      let operand ← parseUnary lim fuel (← Parser.deeper s)
      match operand with
      | .lit (.int _) _ | .lit (.float _) _ => return operand
      | e => return .unary "+" e t.pos
    | .mark "!" =>
      let _ ← Parser.next
      let operand ← parseUnary lim fuel (← Parser.deeper s)
      return .unary "!" operand t.pos
    | .eof => Parser.fail .incomplete t.pos
    | _ => parsePrimary lim fuel s

/-- An operand without signs, with what is applied to it. -/
def parsePrimary (lim : ParseLimits) : Nat → ParseSettings → Parser Expr
  | 0, s => Parser.fail .tooDeep s.pos
  | fuel + 1, s => do
    let t ← Parser.peek
    let s := { s with pos := t.pos }
    let literal (v : Literal) : Parser Expr := do
      let _ ← Parser.next
      parsePostfix lim fuel s (.lit v t.pos)
    if s.barEnds && t.token == .mark "|" then Parser.fail (.lex (.unexpected "|")) t.pos
    match t.token with
    | .int n => literal (.int n)
    | .float x => literal (.float x)
    | .char c => literal (.char c)
    | .str text => literal (.str text)
    | .mark "true" => literal (.bool true)
    | .mark "false" => literal (.bool false)
    | .mark "()" => literal .unit
    | .mark "\x7b" =>
      let (body, pos) ← parseBlock lim fuel (← Parser.deeper s)
      parsePostfix lim fuel s (.stmt (.block body pos) pos)
    | .mark "(" =>
      let inner ← Parser.deeper s
      let _ ← Parser.next
      if ← Parser.accept ")" then parsePostfix lim fuel s (.lit .unit t.pos)
      else
        let e ← parseExpr lim fuel (← Parser.deeper inner)
        let _ ← Parser.expect ")" "for a matching ( in this expression"
        parsePostfix lim fuel s e
    | .mark "if" =>
      let body ← parseIf lim fuel (← Parser.deeper s)
      parsePostfix lim fuel s (.stmt body t.pos)
    | .mark "while" | .mark "loop" =>
      let body ← parseWhile lim fuel (← Parser.deeper s)
      parsePostfix lim fuel s (.stmt body t.pos)
    | .mark "do" =>
      let body ← parseDo lim fuel (← Parser.deeper s)
      parsePostfix lim fuel s (.stmt body t.pos)
    | .mark "for" =>
      let body ← parseFor lim fuel (← Parser.deeper s)
      parsePostfix lim fuel s (.stmt body t.pos)
    | .mark "switch" =>
      let body ← parseSwitch lim fuel (← Parser.deeper s)
      parsePostfix lim fuel s (.stmt body t.pos)
    | .mark "|" | .mark "||" =>
      let e ← parseClosure lim fuel (← Parser.deeper s)
      parsePostfix lim fuel s e
    | .template text =>
      let inner ← Parser.deeper s
      let _ ← Parser.next
      let first := if text.isEmpty then [] else [Expr.lit (.str text) t.pos]
      let parts ← parseTemplate lim fuel inner first
      if parts.isEmpty then parsePostfix lim fuel s (.lit (.str "") t.pos)
      else parsePostfix lim fuel s (.template parts t.pos)
    | .mark "[" =>
      let inner ← Parser.deeper (← Parser.deeper s)
      let _ ← Parser.next
      let items ← parseItems lim fuel { inner with pos := t.pos } []
      parsePostfix lim fuel s (.array items t.pos)
    | .mark "#\x7b" =>
      let inner ← Parser.deeper (← Parser.deeper s)
      let _ ← Parser.next
      let entries ← parseEntries lim fuel { inner with pos := t.pos } []
      parsePostfix lim fuel s (.map entries t.pos)
    | .ident name =>
      let _ ← Parser.next
      match (← Parser.peek).token with
      | .mark "(" | .mark "()" | .mark "!" =>
        let e ← parseCall lim fuel s name t.pos
        parsePostfix lim fuel s e
      | _ =>
        Parser.use name t.pos
        parsePostfix lim fuel s (.var name t.pos)
    | .reserved text =>
      let _ ← Parser.next
      let callable := callableReserved.contains text
      match (← Parser.peek).token with
      | .mark "(" | .mark "()" | .mark "!" =>
        if callable then
          let e ← parseCall lim fuel s text t.pos
          parsePostfix lim fuel s e
        else reservedUse lim fuel s text t.pos
      | _ => reservedUse lim fuel s text t.pos
    | .bad e => Parser.fail (.lex e) t.pos
    | .eof => Parser.fail .incomplete t.pos
    | other => Parser.fail (.lex (.unexpected other.spelling)) t.pos

/-- A reserved word that is not called: only the object of a method call may be used. -/
def reservedUse (lim : ParseLimits) : Nat → ParseSettings → String → Pos → Parser Expr
  | 0, s, _, _ => Parser.fail .tooDeep s.pos
  | fuel + 1, s, text, pos =>
    if text == "this" then
      if s.inFunction then parsePostfix lim fuel s (.this pos)
      else Parser.fail (.lex (.improper "'this' can only be used in functions")) pos
    else Parser.fail (.reserved text) pos

/-- The blocks and texts of an interpolated text after its first piece. -/
def parseTemplate (lim : ParseLimits) : Nat → ParseSettings → List Expr → Parser (List Expr)
  | 0, s, _ => Parser.fail .tooDeep s.pos
  | fuel + 1, s, parts => do
    let (body, pos) ← parseBlock lim fuel s
    let parts := parts ++ [.stmt (.block body pos) pos]
    let t ← Parser.next
    match t.token with
    | .str text => return if text.isEmpty then parts else parts ++ [.lit (.str text) t.pos]
    | .template text =>
      parseTemplate lim fuel s (if text.isEmpty then parts else parts ++ [.lit (.str text) t.pos])
    | .bad e => Parser.fail (.lex e) t.pos
    | _ => Parser.fail (.lex .unterminated) t.pos

/-- The items of an array, up to its bracket. -/
def parseItems (lim : ParseLimits) : Nat → ParseSettings → List Expr → Parser (List Expr)
  | 0, s, _ => Parser.fail .tooDeep s.pos
  | fuel + 1, s, items => do
    let t ← Parser.peek
    if let some limit := lim.array then
      if items.length ≥ limit then Parser.fail (.tooLarge "Size of array literal" limit) t.pos
    match t.token with
    | .mark "]" =>
      let _ ← Parser.next
      return items
    | .eof => Parser.fail (.missing "]" "to end this array literal") t.pos
    | _ =>
      let e ← parseExpr lim fuel (← Parser.deeper s)
      let items := items ++ [e]
      let t ← Parser.peek
      match t.token with
      | .mark "," =>
        let _ ← Parser.next
        parseItems lim fuel s items
      | .mark "]" => parseItems lim fuel s items
      | .eof => Parser.fail (.missing "]" "to end this array literal") t.pos
      | _ => Parser.missing t "," "to separate the items of this array literal"

/-- The entries of an object map, up to its brace. -/
def parseEntries (lim : ParseLimits) :
    Nat → ParseSettings → List (String × Expr) → Parser (List (String × Expr))
  | 0, s, _ => Parser.fail .tooDeep s.pos
  | fuel + 1, s, entries => do
    let ending := "to end this object map literal"
    let t ← Parser.peek
    match t.token with
    | .mark "\x7d" =>
      let _ ← Parser.next
      return entries
    | .eof => Parser.fail (.missing "\x7d" ending) t.pos
    | _ =>
      let t ← Parser.next
      let named (name : String) : Parser String :=
        if entries.any (·.1 == name) then Parser.fail (.duplicateProperty name) t.pos else return name
      let name ← match t.token with
        | .ident name => named name
        | .str name => named name
        | .template _ => Parser.fail .propertyExpected t.pos
        | .bad e => Parser.fail (.lex e) t.pos
        | .reserved text =>
          if isNameShaped text then Parser.fail (.reserved text) t.pos
          else if entries.isEmpty then Parser.fail (.missing "\x7d" ending) t.pos
          else Parser.fail .propertyExpected t.pos
        | _ =>
          if entries.isEmpty then Parser.fail (.missing "\x7d" ending) t.pos
          else Parser.fail .propertyExpected t.pos
      let _ ← Parser.expect ":" ("to follow the property '" ++ name ++ "' in this object map literal")
      if let some limit := lim.map then
        if entries.length ≥ limit then
          Parser.fail (.tooLarge "Number of properties in object map literal" limit) (← Parser.peek).pos
      let e ← parseExpr lim fuel (← Parser.deeper s)
      let entries := entries ++ [(name, e)]
      let t ← Parser.peek
      match t.token with
      | .mark "," =>
        let _ ← Parser.next
        parseEntries lim fuel s entries
      | .mark "\x7d" => parseEntries lim fuel s entries
      | .ident _ => Parser.fail (.missing "," "to separate the items of this object map literal") t.pos
      | _ => Parser.missing t "\x7d" ending

/-- A call of a function whose name was read. -/
def parseCall (lim : ParseLimits) : Nat → ParseSettings → String → Pos → Parser Expr
  | 0, s, _, _ => Parser.fail .tooDeep s.pos
  | fuel + 1, s, name, pos => do
    let args ← parseCallArgs lim fuel s name
    return .call name args pos

/-- The arguments of a call, with their parentheses. -/
def parseCallArgs (lim : ParseLimits) : Nat → ParseSettings → String → Parser (List Expr)
  | 0, s, _ => Parser.fail .tooDeep s.pos
  | fuel + 1, s, name => do
    if ← Parser.accept "!" then
      let t ← Parser.peek
      match t.token with
      | .mark "(" | .mark "()" => pure ()
      | _ => Parser.fail (.missing "(" "to start arguments list of function call") t.pos
    if ← Parser.accept "()" then return []
    let _ ← Parser.next
    let t ← Parser.peek
    match t.token with
    | .eof =>
      Parser.fail (.missing ")" ("to close the arguments list of this function call '" ++ name ++ "'")) t.pos
    | .bad e => Parser.fail (.lex e) t.pos
    | .mark ")" =>
      let _ ← Parser.next
      return []
    | _ => parseArgs lim fuel (← Parser.deeper s) name []

/-- Arguments up to the closing parenthesis. -/
def parseArgs (lim : ParseLimits) : Nat → ParseSettings → String → List Expr → Parser (List Expr)
  | 0, s, _, _ => Parser.fail .tooDeep s.pos
  | fuel + 1, s, name, args => do
    if ← Parser.accept ")" then return args
    let e ← parseExpr lim fuel s
    let args := args ++ [e]
    let t ← Parser.peek
    match t.token with
    | .mark ")" =>
      let _ ← Parser.next
      return args
    | .mark "," =>
      let _ ← Parser.next
      parseArgs lim fuel s name args
    | .eof =>
      Parser.fail (.missing ")" ("to close the arguments list of this function call '" ++ name ++ "'")) t.pos
    | _ => Parser.missing t "," ("to separate the arguments to function call '" ++ name ++ "'")

/-- The steps applied to an operand. -/
def parsePostfix (lim : ParseLimits) : Nat → ParseSettings → Expr → Parser Expr
  | 0, s, _ => Parser.fail .tooDeep s.pos
  | fuel + 1, s, e => do
    let t ← Parser.peek
    match t.token with
    | .mark "[" =>
      let _ ← Parser.next
      let e ← parseIndex lim fuel (← Parser.deeper s) e t.pos false true
      parsePostfix lim fuel s e
    | .mark "?[" =>
      let _ ← Parser.next
      let e ← parseIndex lim fuel (← Parser.deeper s) e t.pos true true
      parsePostfix lim fuel s e
    | .mark "." =>
      let _ ← Parser.next
      parseMember lim fuel s e t.pos false
    | .mark "?." =>
      let _ ← Parser.next
      parseMember lim fuel s e t.pos true
    | _ => return e

/-- An index, its bracket taken, and the indices that follow at once. -/
def parseIndex (lim : ParseLimits) : Nat → ParseSettings → Expr → Pos → Bool → Bool → Parser Expr
  | 0, s, _, _, _, _ => Parser.fail .tooDeep s.pos
  | fuel + 1, s, e, opPos, safe, checked => do
    let index ← parseExpr lim fuel (← Parser.deeper { s with pos := opPos })
    if checked then
      if let some (message, pos) := e.badIndexing? index then Parser.fail (.badIndex message) pos
    let _ ← Parser.expect "]" "for a matching [ in this index expression"
    let e := e.link (.index index opPos safe)
    let t ← Parser.peek
    match t.token with
    | .mark "[" =>
      let _ ← Parser.next
      parseIndex lim fuel (← Parser.deeper { s with pos := t.pos }) e t.pos false false
    | .mark "?[" =>
      let _ ← Parser.next
      parseIndex lim fuel (← Parser.deeper { s with pos := t.pos }) e t.pos true false
    | _ => return e

/-- A property or a method, its dot taken. -/
def parseMember (lim : ParseLimits) : Nat → ParseSettings → Expr → Pos → Bool → Parser Expr
  | 0, s, _, _, _ => Parser.fail .tooDeep s.pos
  | fuel + 1, s, e, opPos, safe => do
    let t ← Parser.peek
    let name ← match t.token with
      | .ident name => pure name
      | .reserved text =>
        if methodReserved.contains text then pure text else Parser.fail (.reserved text) t.pos
      | _ => Parser.fail .propertyExpected t.pos
    let inner ← Parser.deeper s
    let inner := { inner with pos := t.pos }
    let _ ← Parser.next
    match (← Parser.peek).token with
    | .mark "(" | .mark "()" | .mark "!" =>
      let args ← parseCallArgs lim fuel inner name
      parsePostfix lim fuel inner (e.link (.method name args t.pos opPos safe))
    | _ =>
      match t.token with
      | .reserved text => Parser.fail (.reserved text) t.pos
      | _ => parsePostfix lim fuel inner (e.link (.property name t.pos opPos safe))

/-- A function without a name. -/
def parseClosure (lim : ParseLimits) : Nat → ParseSettings → Parser Expr
  | 0, s => Parser.fail .tooDeep s.pos
  | fuel + 1, s => do
    let t ← Parser.next
    let before ← get
    set { before with scope := [], outer := [] }
    let params ← if t.token == .mark "||" then pure [] else do
      if ← Parser.accept "|" then pure [] else closureParams lim fuel []
    modify ({ · with scope := params.reverse.map (·, false) })
    let body ← parseStmt lim fuel
      { s with isGlobal := false, inFunction := true, inLoop := false, barEnds := false }
    let after ← get
    set { after with scope := before.scope, outer := before.outer }
    for (name, pos) in after.outer do
      Parser.use name pos
    let body := match body with
      | .block stmts _ => stmts
      | other => [other]
    let index ← Parser.addFunction ⟨"", params, body⟩
    return .closure index after.outer t.pos

/-- The parameters of a function without a name, up to the closing bar. -/
def closureParams (lim : ParseLimits) : Nat → List String → Parser (List String)
  | 0, _ => Parser.fail .tooDeep Pos.start
  | fuel + 1, params => do
    let t ← Parser.next
    match t.token with
    | .mark "|" => return params
    | .ident name =>
      if params.contains name then Parser.fail (.duplicateParam "" name) t.pos
      let params := params ++ [name]
      let t ← Parser.next
      match t.token with
      | .mark "|" => return params
      | .mark "," => closureParams lim fuel params
      | _ => Parser.missing t "," "to separate the parameters of anonymous function"
    | _ => Parser.missing t "|" "to close the parameters list of anonymous function or closure"

/-- A block of statements in braces. -/
def parseBlock (lim : ParseLimits) : Nat → ParseSettings → Parser (List Stmt × Pos)
  | 0, s => Parser.fail .tooDeep s.pos
  | fuel + 1, s => do
    let pos ← Parser.expect "\x7b" "to start a statement block"
    let inner ← Parser.deeper { s with pos := pos }
    let body ← Parser.inScope (parseBody lim fuel { inner with isGlobal := false } [])
    return (Stmt.keepLast body, pos)

/-- The statements of a block, up to its brace. -/
def parseBody (lim : ParseLimits) : Nat → ParseSettings → List Stmt → Parser (List Stmt)
  | 0, s, _ => Parser.fail .tooDeep s.pos
  | fuel + 1, s, body => do
    let t ← Parser.peek
    match t.token with
    | .mark "\x7d" =>
      let _ ← Parser.next
      return body
    | .eof => Parser.fail (.missing "\x7d" "to terminate this block") t.pos
    | _ =>
      let stmt ← parseStmt lim fuel s
      match stmt with
      | .noop => parseBody lim fuel s body
      | _ =>
        let body := body ++ [stmt]
        let t ← Parser.peek
        match t.token with
        | .mark "\x7d" => parseBody lim fuel s body
        | .mark ";" =>
          let _ ← Parser.next
          parseBody lim fuel s body
        | _ =>
          if stmt.endsItself then parseBody lim fuel s body
          else Parser.missing t ";" "to terminate this statement"

/-- A statement. -/
def parseStmt (lim : ParseLimits) : Nat → ParseSettings → Parser Stmt
  | 0, s => Parser.fail .tooDeep s.pos
  | fuel + 1, s => do
    let t ← Parser.peek
    let s := { s with pos := t.pos }
    match t.token with
    | .eof => return .noop
    | .mark ";" =>
      let _ ← Parser.next
      return .noop
    | .mark "\x7b" =>
      let (body, pos) ← parseBlock lim fuel s
      return .block body pos
    | .mark "fn" => if s.isGlobal then parseFunction lim fuel s else Parser.fail .strayFunction t.pos
    | .mark "private" => if s.isGlobal then parseFunction lim fuel s else Parser.fail .strayFunction t.pos
    | .mark "if" => parseIf lim fuel (← Parser.deeper s)
    | .mark "switch" => parseSwitch lim fuel (← Parser.deeper s)
    | .mark "while" | .mark "loop" => parseWhile lim fuel (← Parser.deeper s)
    | .mark "do" => parseDo lim fuel (← Parser.deeper s)
    | .mark "for" => parseFor lim fuel (← Parser.deeper s)
    | .mark "continue" =>
      if s.inLoop then
        let _ ← Parser.next
        return .continueLoop t.pos
      else Parser.fail .strayBreak t.pos
    | .mark "break" =>
      if s.inLoop then
        let _ ← Parser.next
        match (← Parser.peek).token with
        | .eof | .mark "\x7d" | .mark ";" => return .breakLoop none t.pos
        | _ => return .breakLoop (some (← parseExpr lim fuel (← Parser.deeper s))) t.pos
      else Parser.fail .strayBreak t.pos
    | .mark "return" => parseLeave lim fuel s .return t.pos
    | .mark "throw" => parseLeave lim fuel s .throw t.pos
    | .mark "try" => parseTry lim fuel (← Parser.deeper s)
    | .mark "let" => parseLet lim fuel (← Parser.deeper s) false
    | .mark "const" => parseLet lim fuel (← Parser.deeper s) true
    | .mark "import" =>
      let _ ← Parser.next
      let path ← parseExpr lim fuel (← Parser.deeper (← Parser.deeper s))
      if ← Parser.accept "as" then
        let _ ← Parser.variableName
      return .importModule path t.pos
    | .mark "export" =>
      if s.isGlobal then parseExport lim fuel (← Parser.deeper s) else Parser.fail .strayExport t.pos
    | _ => parseExprStmt lim fuel (← Parser.deeper s)

/-- An expression that stands as a statement, or an assignment. -/
def parseExprStmt (lim : ParseLimits) : Nat → ParseSettings → Parser Stmt
  | 0, s => Parser.fail .tooDeep s.pos
  | fuel + 1, s => do
    let e ← parseExpr lim fuel s
    let t ← Parser.peek
    match t.token with
    | .mark m =>
      if m == "=" || isOpAssign m then
        let _ ← Parser.next
        let value ← parseExpr lim fuel (← Parser.deeper { s with pos := t.pos })
        assignment (if m == "=" then "" else String.ofList (m.toList.dropLast)) e value t.pos
      else return .expr e
    | _ => return .expr e

/-- A way out of a function, with or without a value. -/
def parseLeave (lim : ParseLimits) : Nat → ParseSettings → Leave → Pos → Parser Stmt
  | 0, s, _, _ => Parser.fail .tooDeep s.pos
  | fuel + 1, s, how, pos => do
    let _ ← Parser.next
    match (← Parser.peek).token with
    | .eof | .mark ";" => return .leave how none pos
    | .mark "\x7d" =>
      if s.isGlobal then return .leave how (some (← parseExpr lim fuel (← Parser.deeper s))) pos
      else return .leave how none pos
    | _ => return .leave how (some (← parseExpr lim fuel (← Parser.deeper s))) pos

/-- A declaration of a variable or a constant. -/
def parseLet (lim : ParseLimits) : Nat → ParseSettings → Bool → Parser Stmt
  | 0, s, _ => Parser.fail .tooDeep s.pos
  | fuel + 1, s, constant => do
    let t ← Parser.next
    let (name, pos) ← Parser.variableName
    let value ←
      if ← Parser.accept "=" then
        pure (some (← parseExpr lim fuel (← Parser.deeper { s with pos := t.pos })))
      else pure none
    Parser.declare name constant
    return .declare name constant value pos

/-- An export, which declares a variable or names one. -/
def parseExport (lim : ParseLimits) : Nat → ParseSettings → Parser Stmt
  | 0, s => Parser.fail .tooDeep s.pos
  | fuel + 1, s => do
    let t ← Parser.next
    match (← Parser.peek).token with
    | .mark "let" => parseLet lim fuel (← Parser.deeper { s with pos := t.pos }) false
    | .mark "const" => parseLet lim fuel (← Parser.deeper { s with pos := t.pos }) true
    | _ =>
      let (name, pos) ← Parser.variableName
      if ← Parser.accept "as" then
        let _ ← Parser.variableName
      return .expr (.call "export" [.var name pos] pos)

/-- A conditional. -/
def parseIf (lim : ParseLimits) : Nat → ParseSettings → Parser Stmt
  | 0, s => Parser.fail .tooDeep s.pos
  | fuel + 1, s => do
    let t ← Parser.next
    notBlock
    let condition ← asCondition (← parseExpr lim fuel s)
    notAssignment
    let (yes, _) ← parseBlock lim fuel s
    let no ←
      if ← Parser.accept "else" then
        if ← Parser.sees "if" then pure [← parseIf lim fuel s]
        else pure (← parseBlock lim fuel s).1
      else pure []
    return .ifElse condition yes no t.pos

/-- A loop with its condition in front, or without one. -/
def parseWhile (lim : ParseLimits) : Nat → ParseSettings → Parser Stmt
  | 0, s => Parser.fail .tooDeep s.pos
  | fuel + 1, s => do
    let t ← Parser.next
    let condition ←
      if t.token == .mark "while" then do
        notBlock
        let e ← asCondition (← parseExpr lim fuel s)
        notAssignment
        pure (some e)
      else pure none
    let (body, _) ← parseBlock lim fuel { s with pos := t.pos, inLoop := true }
    return .whileLoop condition (Stmt.discardAll body) t.pos

/-- A loop with its condition behind. -/
def parseDo (lim : ParseLimits) : Nat → ParseSettings → Parser Stmt
  | 0, s => Parser.fail .tooDeep s.pos
  | fuel + 1, s => do
    let start ← Parser.next
    let (body, _) ← parseBlock lim fuel { s with pos := start.pos, inLoop := true }
    let t ← Parser.next
    let until_ ← match t.token with
      | .mark "while" => pure false
      | .mark "until" => pure true
      | _ => Parser.fail (.missing "while" "for the do statement") t.pos
    notBlock
    let condition ← asCondition (← parseExpr lim fuel s)
    notAssignment
    return .doLoop (Stmt.discardAll body) condition until_ start.pos

/-- A loop over a sequence. -/
def parseFor (lim : ParseLimits) : Nat → ParseSettings → Parser Stmt
  | 0, s => Parser.fail .tooDeep s.pos
  | fuel + 1, s => do
    let start ← Parser.next
    let (name, counter) ←
      if ← Parser.accept "(" then do
        let (name, _) ← Parser.variableName
        let t ← Parser.peek
        if !(← Parser.accept ",") then
          Parser.fail (.missing "," "after the iteration variable name") t.pos
        let (counter, pos) ← Parser.variableName
        if counter == name then Parser.fail (.duplicateVariable counter) pos
        let t ← Parser.peek
        if !(← Parser.accept ")") then Parser.fail (.missing ")" "to close the iteration variable") t.pos
        pure (name, some counter)
      else do
        let (name, _) ← Parser.variableName
        pure (name, none)
    let _ ← Parser.expect "in" "after the iteration variable"
    notBlock
    let subject ← parseExpr lim fuel s
    if let some what := subject.nonIterable? then
      Parser.fail (.mismatched "an iterable value" what) subject.startPos
    let body ← Parser.inScope do
      if let some counter := counter then Parser.declare counter false
      Parser.declare name false
      let (body, _) ← parseBlock lim fuel { s with pos := start.pos, inLoop := true }
      pure body
    return .forLoop name counter subject (Stmt.discardAll body) start.pos

/-- A choice among constants. -/
def parseSwitch (lim : ParseLimits) : Nat → ParseSettings → Parser Stmt
  | 0, s => Parser.fail .tooDeep s.pos
  | fuel + 1, s => do
    let start ← Parser.next
    let subject ← parseExpr lim fuel s
    let _ ← Parser.expect "\x7b" "to start a switch block"
    let (cases, default) ← parseCases lim fuel s [] none Pos.none
    return .switch subject cases default start.pos

/-- The cases of a switch, up to its brace. -/
def parseCases (lim : ParseLimits) :
    Nat → ParseSettings → List Case → Option Stmt → Pos → Parser (List Case × Option Stmt)
  | 0, s, _, _, _ => Parser.fail .tooDeep s.pos
  | fuel + 1, s, cases, default, defaultPos => do
    let t ← Parser.peek
    match t.token with
    | .mark "\x7d" =>
      let _ ← Parser.next
      return (cases, default)
    | .eof => Parser.fail (.missing "\x7d" "to end this switch block") t.pos
    | _ =>
      let isDefault := t.token == .mark "_" && defaultPos.isNone
      if !isDefault && !defaultPos.isNone then Parser.fail .defaultNotLast defaultPos
      let (patterns, condition) ←
        if isDefault then do
          let _ ← Parser.next
          let t ← Parser.peek
          if ← Parser.sees "if" then Parser.fail .defaultCondition t.pos
          pure ([], none)
        else do
          let patterns ← parsePatterns lim fuel { s with barEnds := true } []
          let condition ←
            if ← Parser.accept "if" then do
              notBlock
              let e ← asCondition (← parseExpr lim fuel s)
              notAssignment
              pure (some e)
            else pure none
          pure (patterns, condition)
      let _ ← Parser.expect "=>" "in this switch case"
      let action ← parseStmt lim fuel s
      let needsComma := !action.endsItself
      let mut patternList : List Pattern := []
      for e in patterns do
        match e.range? with
        | some range => patternList := patternList ++ [range]
        | none =>
          if !e.isConstant then Parser.fail (.expressionExpected "a literal") e.startPos
          let isInt := match e with
            | .lit (.int _) _ => true
            | _ => false
          if isInt && (cases.any hasRange || patternList.any isRange) then
            Parser.fail .integerAfterRange e.startPos
          patternList := patternList ++ [.value e]
      let cases := if isDefault then cases else cases ++ [.mk patternList condition action]
      let default := if isDefault then some action else default
      let defaultPos := if isDefault then t.pos else defaultPos
      let t ← Parser.peek
      match t.token with
      | .mark "," =>
        let _ ← Parser.next
        parseCases lim fuel s cases default defaultPos
      | .mark "\x7d" => parseCases lim fuel s cases default defaultPos
      | .eof => Parser.fail (.missing "\x7d" "to end this switch block") t.pos
      | _ =>
        if needsComma then Parser.missing t "," "to separate the items in this switch block"
        else parseCases lim fuel s cases default defaultPos
where
  /-- A pattern that is a range. -/
  isRange : Pattern → Bool
    | .range .. => true
    | _ => false
  /-- A case that covers a range. -/
  hasRange : Case → Bool
    | .mk patterns _ _ => patterns.any isRange

/-- The constants of a case, parted by bars. -/
def parsePatterns (lim : ParseLimits) : Nat → ParseSettings → List Expr → Parser (List Expr)
  | 0, s, _ => Parser.fail .tooDeep s.pos
  | fuel + 1, s, patterns => do
    let st ← get
    match (parseExpr lim fuel s).run st with
    | .error e => Parser.fail (.expressionExpected "literal") e.pos
    | .ok (e, st) =>
      set st
      let patterns := patterns ++ [e]
      if ← Parser.accept "|" then parsePatterns lim fuel s patterns else return patterns

/-- A block with a handler for what goes wrong in it. -/
def parseTry (lim : ParseLimits) : Nat → ParseSettings → Parser Stmt
  | 0, s => Parser.fail .tooDeep s.pos
  | fuel + 1, s => do
    let start ← Parser.next
    let (body, _) ← parseBlock lim fuel { s with pos := start.pos }
    let t ← Parser.peek
    if !(← Parser.accept "catch") then
      match t.token with
      | _ => Parser.fail (.missing "catch" "for the 'try' statement") t.pos
    let name ←
      if ← Parser.accept "(" then do
        let (name, _) ← Parser.variableName
        let t ← Parser.peek
        if !(← Parser.accept ")") then Parser.fail (.missing ")" "to enclose the catch variable") t.pos
        pure (some name)
      else pure none
    let handler ← Parser.inScope do
      if let some name := name then Parser.declare name false
      let (handler, _) ← parseBlock lim fuel s
      pure handler
    return .tryCatch (Stmt.discardAll body) name (Stmt.discardAll handler) start.pos

/-- A function definition at the outermost level. -/
def parseFunction (lim : ParseLimits) : Nat → ParseSettings → Parser Stmt
  | 0, s => Parser.fail .tooDeep s.pos
  | fuel + 1, _ => do
    if ← Parser.accept "private" then
      let t ← Parser.peek
      if !(← Parser.sees "fn") then Parser.fail (.missing "fn" "following 'private'") t.pos
    let start ← Parser.next
    let inner : ParseSettings :=
      { level := 0, maxLevel := lim.functionDepth, pos := start.pos, inFunction := true }
    let inner ← Parser.deeper inner
    let before ← get
    set { before with scope := [], outer := [] }
    let t ← Parser.next
    let name ← match t.token with
      | .ident name => pure name
      | .reserved text => Parser.fail (.reserved text) t.pos
      | _ => Parser.fail .functionName t.pos
    let p ← Parser.peek
    let params ← match p.token with
      | .mark "()" => do
        let _ ← Parser.next
        pure []
      | .mark "(" => do
        let _ ← Parser.next
        functionParams lim fuel name []
      | _ => Parser.fail (.functionParams name) p.pos
    modify ({ · with scope := params.reverse.map (·, false) })
    let b ← Parser.peek
    if !(← Parser.sees "\x7b") then Parser.fail (.functionBody name) b.pos
    let (body, pos) ← parseBlock lim fuel inner
    modify ({ · with scope := before.scope, outer := before.outer })
    if (← get).functions.any fun f => f.name == name && f.params.length == params.length then
      Parser.fail (.duplicateFunction name params.length) pos
    let _ ← Parser.addFunction ⟨name, params, body⟩
    return .noop

/-- The parameters of a function, up to the closing parenthesis. -/
def functionParams (lim : ParseLimits) : Nat → String → List String → Parser (List String)
  | 0, _, _ => Parser.fail .tooDeep Pos.start
  | fuel + 1, name, params => do
    let t ← Parser.next
    match t.token with
    | .mark ")" => return params
    | .ident param =>
      if params.contains param then Parser.fail (.duplicateParam name param) t.pos
      let params := params ++ [param]
      let t ← Parser.next
      match t.token with
      | .mark ")" => return params
      | .mark "," => functionParams lim fuel name params
      | _ => Parser.missing t "," ("to separate the parameters of function '" ++ name ++ "'")
    | _ => Parser.missing t ")" ("to close the parameters list of function '" ++ name ++ "'")

end

/-- The statements of a script. -/
def parseGlobal (lim : ParseLimits) (depth : Nat) : Nat → List Stmt → Parser (List Stmt)
  | 0, _ => Parser.fail .tooDeep Pos.start
  | fuel + 1, body => do
    if (← Parser.peek).token == .eof then return body
    let stmt ← parseStmt lim depth { maxLevel := lim.depth, isGlobal := true }
    match stmt with
    | .noop => parseGlobal lim depth fuel body
    | _ =>
      let body := body ++ [stmt]
      let t ← Parser.peek
      match t.token with
      | .eof => return body
      | .mark ";" =>
        let _ ← Parser.next
        parseGlobal lim depth fuel body
      | _ =>
        if stmt.endsItself then parseGlobal lim depth fuel body
        else Parser.missing t ";" "to terminate this statement"

/-- The script a text stands for, inside the given limits. -/
def parse (source : String) (lim : ParseLimits) : Except ParseError Program :=
  let ts := tokens source lim.text
  let fuel := 8 * ts.length + 400
  match (parseGlobal lim fuel (ts.length + 2) []).run { tokens := ts } with
  | .error e => .error e
  | .ok (body, st) => .ok ⟨st.functions, Stmt.keepLast body⟩

end ScriptAgent.Script
