import ScriptAgent.Sandbox.Chain

/-!
# Evaluation

One step evaluates a task, given what evaluates its parts; the evaluator is that step iterated as
often as its fuel says.  Whatever every step keeps, the evaluator keeps, by one induction.
-/

namespace ScriptAgent

open Script (Value Fault Pos Expr Stmt Case Pattern)

namespace Exec

/-- The value of a condition. -/
def condition (run : Runner) (e : Expr) : Exec Bool := do
  match ← run (.expr e) with
  | .bool b => return b
  | v => fault (.mismatch "bool" v.typeName) e.pos

/-- The values of arguments, from left to right. -/
def arguments (run : Runner) : List Expr → Exec (List Value)
  | [] => return []
  | e :: rest => do return (← run (.expr e)) :: (← arguments run rest)

/-- The items of an array, which may not grow too large on the way. -/
def items (env : Env) (run : Runner) : List Value → List Expr → Exec (List Value)
  | done, [] => return done.reverse
  | done, e :: rest => do
    let v ← run (.expr e)
    checkSize env (.array (v :: done)) e.pos
    items env run (v :: done) rest

/-- The entries of a map, which may not grow too large on the way. -/
def entries (env : Env) (run : Runner) : Dict Value → List (String × Expr) → Exec (Dict Value)
  | done, [] => return done
  | done, (k, e) :: rest => do
    let v ← run (.expr e)
    let done := Dict.insert done k v
    checkSize env (.map done) e.pos
    entries env run done rest

/-- The text of a template. -/
def template (env : Env) (run : Runner) : String → List Expr → Exec String
  | done, [] => return done
  | done, e :: rest => do
    let v ← run (.expr e)
    let m ← get
    let done := done ++ m.text env.backend v
    checkSize env (.str done) e.pos
    template env run done rest

/-- Applies a function by name.  A variable that is the first argument is read last, and is handed
over in place unless it is constant or shared. -/
def applyNamed (env : Env) (run : Runner) (name : String) (args : List Expr) (pos : Pos) : Exec Value := do
  match args with
  | .var first at_ :: rest =>
    let values ← arguments run rest
    let m ← get
    let inPlace : Bool := match m.scope.find? (·.name == first) with
      | some ⟨_, false, .cell _⟩ | some ⟨_, true, _⟩ | none => false
      | some _ => true
    if inPlace && (scriptFunction? env name args.length).isNone then
      return (← Place.onVariable env first at_ fun _ =>
        Place.native env run name values false true pos).1
    else callByName env run name ((← readVariable env first at_) :: values) none pos
  | _ => callByName env run name (← arguments run args) none pos

/-- A function value of a name, if that is shaped like one. -/
def functionNamed (v : Value) (pos : Pos) : Exec Value :=
  match v with
  | .str name =>
    if Script.isNameShaped name then return .fn (.named name) [] else fault (.functionNotFound name) pos
  | v => fault (.mismatch "string" v.typeName) pos

/-- A call of a function by name; some names are not functions but ways to call them. -/
def call (env : Env) (run : Runner) (name : String) (args : List Expr) (pos : Pos) : Exec Value := do
  match name, args with
  | "Fn", [e] => functionNamed (← run (.expr e)) e.pos
  | "call", e :: rest =>
    match ← run (.expr e) with
    | .fn callee given => run (.apply callee (given ++ (← arguments run rest)) none pos)
    | v => fault (.mismatch "Fn" v.typeName) e.pos
  | "curry", e :: f :: rest =>
    match ← run (.expr e) with
    | .fn callee given => return .fn callee (given ++ (← arguments run (f :: rest)))
    | v => fault (.mismatch "Fn" v.typeName) e.pos
  | "is_shared", [.var name at_] =>
    noteRead env at_
    match (← get).scope.find? (·.name == name) with
    | some ⟨_, _, .cell _⟩ => return .bool true
    | some _ => return .bool false
    | none => fault (.variableNotFound name) at_
  | "is_shared", [e] =>
    let _ ← run (.expr e)
    return .bool false
  | "is_def_var", [e] =>
    match ← run (.expr e) with
    | .str name => return .bool ((← get).find? name).isSome
    | v => fault (.mismatch "string" v.typeName) e.pos
  | "is_def_fn", [e, f] =>
    match ← run (.expr e), ← run (.expr f) with
    | .str name, .int n => return .bool (n ≥ 0 && (scriptFunction? env name n.toNat).isSome)
    | .str _, v => fault (.mismatch "i64" v.typeName) f.pos
    | v, _ => fault (.mismatch "string" v.typeName) e.pos
  | _, _ => applyNamed env run name args pos

/-- Follows a chain from its root, and assigns to its end if there is something to assign. -/
def chain (env : Env) (run : Runner) (root : Expr) (links : List Script.Link)
    (write : Option (String × Value × Pos)) : Exec Value := do
  let moves ← links.mapM (Move.ofLink run)
  let opPos := (moves.head?.map Move.opPos).getD Pos.none
  let writeTo (name : String) (at_ : Pos) : Option Write :=
    write.map fun (op, value, pos) => ⟨op, value, pos, name, at_⟩
  match root with
  | .var name pos =>
    tick env pos
    let follow := Place.onVariable env name pos fun constant =>
      Place.walk env run moves constant true (writeTo name pos)
    return (← at_ opPos follow).1
  | .this pos =>
    match (← get).this with
    | some id => return (← at_ opPos (Place.onCell id (Place.walk env run moves false true (writeTo "this" pos)))).1
    | none => fault .thisUnbound pos
  | e =>
    let v ← run (.expr e)
    return (← at_ opPos (Place.onValue v (Place.walk env run moves false false none))).1.1

/-- Evaluates an expression. -/
def expr (env : Env) (run : Runner) : Expr → Exec Value
  | .lit v _ => return Value.ofLiteral v
  | .template parts _ => do return .str (← template env run "" parts)
  | .array es _ => do return .array (← items env run [] es)
  | .map es _ => do return .map (← entries env run [] es)
  | .var name pos => readVariable env name pos
  | .this pos => do
    let m ← get
    match m.this with
    | some id => return m.contents (.cell id)
    | none => fault .thisUnbound pos
  | .call name args pos => call env run name args pos
  | .unary op e pos => do
    let v ← run (.expr e)
    ofExcept (Script.Operator.unary op v) pos
  | .binary "in" left right pos => applyNamed env run "contains" [right, left] pos
  | .binary "!in" left right pos => do
    let v ← applyNamed env run "contains" [right, left] pos
    ofExcept (Script.Operator.unary "!" v) pos
  | .binary op left right pos => do
    let a ← run (.expr left)
    let b ← run (.expr right)
    let m ← get
    let v ← ofExcept (Script.Operator.binary (m.text env.backend) op a b) pos
    sized env v pos
  | .and left right _ => do
    if ← condition run left then return .bool (← condition run right) else return .bool false
  | .or left right _ => do
    if ← condition run left then return .bool true else return .bool (← condition run right)
  | .coalesce left right _ => do
    let v ← run (.expr left)
    if v.isUnit then run (.expr right) else return v
  | .chain root links => chain env run root links none
  | .closure index captured _ => do
    let cells ← captured.mapM fun (name, pos) => share env name pos
    return .fn (.closure index (captured.map (·.1))) cells
  | .stmt body _ => scoped_ (run (.stmt body))

/-- One turn of a loop: none if the loop goes on. -/
def turn (body : Exec Value) : Exec (Option Value) :=
  tryCatch (do
    let _ ← body
    return none) fun
    | .broken v => return some v
    | .continued => return none
    | s => throw s

/-- Repeats a turn until it gives a value, at most so often. -/
def repeatTurns (turn : Exec (Option Value)) : Nat → Exec Value
  | 0 => throw (.halted .timedOut Pos.none)
  | n + 1 => fun m =>
    match turn m with
    | (.ok none, m) => repeatTurns turn n m
    | (.ok (some v), m) => (.ok v, m)
    | (.error s, m) => (.error s, m)

/-- A turn for each item, as long as there are items and the turns do not give a value. -/
def eachItem (item : Nat → Option Value) (turn : Nat → Value → Exec (Option Value)) : Nat → Nat → Exec Value
  | 0, _ => throw (.halted .timedOut Pos.none)
  | n + 1, i => fun m =>
    match item i with
    | none => (.ok .unit, m)
    | some v =>
      match turn i v m with
      | (.ok none, m) => eachItem item turn n (i + 1) m
      | (.ok (some v), m) => (.ok v, m)
      | (.error s, m) => (.error s, m)

/-- How many steps are left. -/
def stepsLeft (env : Env) : Exec Nat := do
  return (env.deadline - (← get).micros) / microsPerStep + 2

/-- Writes the variable at a place in scope. -/
def writeSlot (i : Nat) (v : Value) : Exec Unit := do
  let m ← get
  match m.scope[i]? with
  | some ⟨_, _, .cell id⟩ => set { m with cells := m.cells.setIfInBounds id v }
  | some slot => set { m with scope := m.scope.set i { slot with value := v } }
  | none => return

/-- The items a loop runs over. -/
def itemsOf (v : Value) (pos : Pos) : Exec (Nat → Option Value) :=
  match v with
  | .array items =>
    let items := items.toArray
    return fun i => items[i]?
  | .str s =>
    let cs := s.toList.toArray
    return fun i => cs[i]?.map .char
  | .range low high inclusive =>
    return fun i =>
      let n := low + i
      if n < high || (inclusive && n == high) then some (.int n) else none
  | _ => fault .notIterable pos

/-- A loop over the items of a value. -/
def forLoop (env : Env) (run : Runner) (name : String) (counter : Option String) (subject : Expr)
    (body : List Stmt) (pos : Pos) : Exec Value := do
  let item ← itemsOf (← run (.expr subject)) subject.startPos
  let fuel ← stepsLeft env
  scoped_ do
    if let some counter := counter then declare counter false (.int 0)
    declare name false .unit
    eachItem item (fun i v => do
      if counter.isSome then writeSlot 1 (.int i)
      writeSlot 0 v
      tick env pos
      turn (scoped_ (runAll run body))) fuel 0

/-- Whether a value is one of the constants of a case. -/
def matchesValue (run : Runner) (v : Value) : List Pattern → Exec Bool
  | [] => return false
  | .value e :: rest => do
    if v.same false (← run (.expr e)) then return true else matchesValue run v rest
  | .range .. :: rest => matchesValue run v rest

/-- Whether a value lies in one of the ranges of a case. -/
def matchesRange (v : Value) (patterns : List Pattern) : Bool :=
  patterns.any fun
    | .range low high inclusive =>
      match v with
      | .int n => low ≤ n && (if inclusive then n ≤ high else n < high)
      | _ => false
    | .value _ => false

/-- The first case whose condition holds. -/
def firstCase (run : Runner) : List Case → Exec (Option Stmt)
  | [] => return none
  | .mk _ none action :: _ => return some action
  | .mk _ (some e) action :: rest => do
    if ← condition run e then return some action else firstCase run rest

/-- The cases that name a value. -/
def casesOf (run : Runner) (v : Value) : List Case → Exec (List Case)
  | [] => return []
  | .mk patterns condition action :: rest => do
    let here ← matchesValue run v patterns
    let others ← casesOf run v rest
    return if here then .mk patterns condition action :: others else others

/-- A choice: the cases that name the value, or else those whose ranges it lies in. -/
def switch (run : Runner) (subject : Expr) (cases : List Case) (default : Option Stmt) : Exec Value := do
  let v ← run (.expr subject)
  let named ← casesOf run v cases
  let candidates := if named.isEmpty then
      cases.filter fun
        | .mk patterns _ _ => matchesRange v patterns
    else named
  match (← firstCase run candidates).or default with
  | some action => scoped_ (run (.stmt action))
  | none => return .unit

/-- Statements with a handler for what goes wrong in them; a handler that throws the empty value
lets the failure go on. -/
def tryStmt (env : Env) (run : Runner) (body : List Stmt) (name : Option String) (handler : List Stmt) :
    Exec Value :=
  tryCatch (do
    let _ ← scoped_ (runAll run body)
    return .unit) fun
    | .fault cause pos =>
      scoped_ do
        if let some name := name then
          match env.describe cause pos with
          | .ok v => declare name false v
          | .error s => throw s
        tryCatch (do
          let _ ← scoped_ (runAll run handler)
          return .unit) fun
          | .fault (.thrown .unit) again => fault cause again
          | s => throw s
    | s => throw s

/-- Carries out an assignment. -/
def assign (env : Env) (run : Runner) (op : String) (target value : Expr) (pos : Pos) : Exec Value := do
  let v ← run (.expr value)
  match target with
  | .var name at_ =>
    tick env pos
    Place.onVariable env name at_ fun constant => Place.assign env constant ⟨op, v, pos, name, at_⟩
    return .unit
  | .this at_ =>
    match (← get).this with
    | some id =>
      Place.onCell id (Place.assign env false ⟨op, v, pos, "this", at_⟩)
      return .unit
    | none => fault .thisUnbound at_
  | .chain root links =>
    let _ ← chain env run root links (some (op, v, pos))
    return .unit
  | _ => return .unit

/-- Executes a statement. -/
def stmt (env : Env) (run : Runner) : Stmt → Exec Value
  | .noop => return .unit
  | .expr e => run (.expr e)
  | .declare name constant value pos => do
    tick env pos
    let v ← match value with
      | some e => run (.expr e)
      | none => pure .unit
    declare name constant v
    return .unit
  | .assign op target value pos => assign env run op target value pos
  | .block body pos => do
    tick env pos
    scoped_ (runAll run body)
  | .ifElse e yes no pos => do
    tick env pos
    if ← condition run e then scoped_ (runAll run yes) else scoped_ (runAll run no)
  | .whileLoop e body pos => do
    let fuel ← stepsLeft env
    repeatTurns (do
      tick env pos
      let goOn ← match e with
        | some e => condition run e
        | none => pure true
      if goOn then turn (scoped_ (runAll run body)) else return some .unit) fuel
  | .doLoop body e until_ pos => do
    let fuel ← stepsLeft env
    repeatTurns (tryCatch (do
      tick env pos
      let _ ← scoped_ (runAll run body)
      if (← condition run e) == until_ then return some .unit else return none) fun
        | .broken v => return some v
        | .continued => return none
        | s => throw s) fuel
  | .forLoop name counter subject body pos => forLoop env run name counter subject body pos
  | .switch subject cases default pos => do
    tick env pos
    switch run subject cases default
  | .tryCatch body name handler pos => do
    tick env pos
    tryStmt env run body name handler
  | .leave .return value _ => do
    match value with
    | some e => throw (.returned (← run (.expr e)))
    | none => throw (.returned .unit)
  | .leave .throw value pos => do
    match value with
    | some e => fault (.thrown (← run (.expr e))) pos
    | none => fault (.thrown .unit) pos
  | .breakLoop value _ => do
    match value with
    | some e => throw (.broken (← run (.expr e)))
    | none => throw (.broken .unit)
  | .continueLoop _ => throw .continued
  | .importModule path _ => do
    match ← run (.expr path) with
    | .str name => fault (.moduleNotFound name) path.startPos
    | v => fault (.mismatch "string" v.typeName) path.pos

end Exec

/-- Evaluates a task, given what evaluates its parts. -/
def step (env : Env) (run : Runner) : Task → Exec Value
  | .expr e => do
    Exec.tick env e.pos
    Exec.expr env run e
  | .stmt s => Exec.stmt env run s
  | .apply callee args this pos => Exec.callFn env run callee args this pos

/-- Evaluates a task whose parts are nested no deeper than the fuel. -/
def evaluate (env : Env) : Nat → Runner
  | 0, _ => throw (.tooDeep Pos.none)
  | n + 1, t => step env (evaluate env n) t

end ScriptAgent
