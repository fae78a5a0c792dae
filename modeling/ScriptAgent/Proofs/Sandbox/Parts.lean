import ScriptAgent.Sandbox.Step

/-!
# Named parts of the evaluator

Where several branches of a function go on alike, what they go on with has a name here, so that it is
looked at once.
-/

namespace ScriptAgent

open Script (Value Fault Pos Callee Expr Stmt Case)

namespace Place

/-- Takes the contents of a cell as the value in place. -/
def readBack (id : Nat) : Place Unit := do
  let m : Machine ← liftM (m := StateM Machine) get
  set (m.contents (.cell id))

/-- Calls a function of the script on the value in place, which is shared while the function runs. -/
def callBound (run : Runner) (target : Value) (callee : Callee) (args : List Value) (pos : Pos) :
    Place (Value × Bool) := do
  let id ← lift (Exec.newCell target)
  let v ← tryCatch (lift (run (.apply callee args (some id) pos))) fun s => do
    readBack id
    throw s
  readBack id
  return (v, false)

/-- Writes into a part that the value in place has. -/
def writeStored (env : Env) (key : Value) (constant : Bool) (w : Write) (pos opPos : Pos) : Place Unit := do
  let target ← get
  let (old, put) ← (match part target key pos opPos with
    | .ok r => pure r
    | .error s => throw s : Place (Value × (Value → Value → Value)))
  match target with
  | .str _ | .int _ =>
    let wanted := old.typeName
    inside old put do
      assign env constant w
      let new ← get
      if new.typeName != wanted then fault (.mismatch wanted new.typeName) w.pos
  | _ =>
    inside old put do
      assign env constant w
      lift (Exec.checkSize env (← get) w.pos)

theorem writePart_eq (env : Env) (key : Value) (constant : Bool) (w : Write) (pos opPos : Pos) :
    writePart env key constant w pos opPos = (do
      if let .map entries := ← get then
        if let .str k := key then
          if !Dict.contains entries k then set (Value.map (Dict.insert entries k .unit))
      writeStored env key constant w pos opPos) :=
  rfl

end Place

namespace Exec

variable {run : Runner}

/-- Runs what the first of some cases does, or else the default. -/
def runCase (run : Runner) (candidates : List Case) (default : Option Stmt) : Exec Value := do
  match (← firstCase run candidates).or default with
  | some action => scoped_ (run (.stmt action))
  | none => return .unit

theorem switch_eq (subject : Expr) (cases : List Case) (default : Option Stmt) :
    switch run subject cases default = (do
      let v ← run (.expr subject)
      let named ← casesOf run v cases
      runCase run (if named.isEmpty then
          cases.filter fun
            | .mk patterns _ _ => matchesRange v patterns
        else named) default) :=
  rfl

/-- The value that a declaration gives its variable. -/
def initial (env : Env) (run : Runner) (value : Option Expr) (pos : Pos) : Exec Value := do
  tick env pos
  match value with
  | some e => run (.expr e)
  | none => return .unit

theorem declare_eq (env : Env) (name : String) (constant : Bool) (value : Option Expr) (pos : Pos) :
    stmt env run (.declare name constant value pos) = (do
      let v ← initial env run value pos
      declare name constant v
      return .unit) := by
  unfold initial stmt
  cases value <;> simp only [bind_assoc]

/-- Statements for their effects. -/
def runEmptied (run : Runner) (ss : List Stmt) : Exec Value := do
  let _ ← scoped_ (runAll run ss)
  return .unit

/-- Runs a handler, which lets a failure go on by throwing the empty value. -/
def handle (run : Runner) (handler : List Stmt) (cause : Fault) : Exec Value :=
  tryCatch (runEmptied run handler) fun
    | .fault (.thrown .unit) again => fault cause again
    | s => throw s

theorem tryStmt_eq (env : Env) (body : List Stmt) (name : Option String) (handler : List Stmt) :
    tryStmt env run body name handler = tryCatch (runEmptied run body) fun
      | .fault cause pos =>
        scoped_ do
          if let some name := name then
            match env.describe cause pos with
            | .ok v => declare name false v
            | .error s => throw s
          handle run handler cause
      | s => throw s :=
  rfl

end Exec

end ScriptAgent
