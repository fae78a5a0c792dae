import ScriptAgent.Sandbox.HostCall
import ScriptAgent.Script.Library

/-!
# Applying functions

A name reaches, in this order: a function of the script, a function for exactly these types of
arguments, a tool, a function for values of every type.  What evaluates the parts of a function is
handed in, so that nothing here refers to itself.
-/

namespace ScriptAgent

open Script (Value Fault Pos Callee Builtin)

/-- What is left to evaluate. -/
inductive Task where
  | expr (e : Script.Expr)
  | stmt (s : Script.Stmt)
  /-- A function value applied to all its arguments, and what `this` stands for in it. -/
  | apply (callee : Callee) (args : List Value) (this : Option Nat) (pos : Pos)

/-- What evaluates the parts of a task. -/
abbrev Runner := Task → Exec Value

/-- Statements one after the other; the last one gives the value. -/
def runAll (run : Runner) : List Script.Stmt → Exec Value
  | [] => return .unit
  | [s] => run (.stmt s)
  | s :: rest => do
    let _ ← run (.stmt s)
    runAll run rest

namespace Exec

/-- What a failure inside a function is outside of it. -/
def leaveFunction (name : String) (closure : Bool) (pos : Pos) : Stop → Exec Value
  | .returned v => return v
  | .fault cause p => fault (.inside name closure cause p) pos
  | .halted why _ => throw (.halted why pos)
  | .tooLarge what _ => throw (.tooLarge what pos)
  | .tooDeep _ => throw (.tooDeep pos)
  | s => throw s

/-- Runs a function of the script, which sees its arguments and nothing else. -/
def invoke (env : Env) (run : Runner) (f : Script.Function) (name : String) (args : List Value)
    (this : Option Nat) (pos : Pos) : Exec Value := do
  if f.body.isEmpty then return .unit
  tick env pos
  let before ← get
  if before.level ≥ env.sizes.calls then throw (.tooDeep pos)
  let params := List.zipWith (fun name v => (⟨name, false, v⟩ : Slot)) f.params args
  set { before with scope := params.reverse, this := this, level := before.level + 1 }
  let leave : Exec Unit :=
    modify fun m => { m with scope := before.scope, this := before.this, level := before.level }
  let v ← tryCatch (runAll run f.body) fun s => do
    leave
    leaveFunction name f.name.isEmpty pos s
  leave
  return v

/-- A function that does not exist for its arguments. -/
def noFunction (name : String) (args : List Value) (pos : Pos) : Exec α :=
  fault (Script.Operator.missing name args) pos

/-- The function of the script with a name and a number of arguments. -/
def scriptFunction? (env : Env) (name : String) (arity : Nat) : Option Script.Function :=
  env.functions.find? fun f => f.name == name && f.params.length == arity && !name.isEmpty

/-- How many arguments a function value still takes. -/
def arity? (env : Env) (callee : Callee) (given : Nat) (candidates : List Nat) : Option Nat :=
  match callee with
  | .closure index captured =>
    (env.functions[index]?.map fun f => captured.length + f.params.length - given).filter candidates.contains
  | .named name => candidates.find? fun n => (scriptFunction? env name (given + n)).isSome

/-- Applies a function value to an item with its place: the result, and the item afterwards.  A
function without parameters finds the item in `this`. -/
def onItem (env : Env) (run : Runner) (caller : String) (f : Value) (item : Value) (extras : List Value)
    (pos : Pos) : Exec (Value × Value) := do
  match f with
  | .fn callee given =>
    let outcome : Exec (Value × Value) := do
      match arity? env callee given.length [0, 1, 1 + extras.length] with
      | some 0 =>
        let id ← newCell item
        let v ← run (.apply callee given (some id) Pos.none)
        return (v, (← get).contents (.cell id))
      | some 1 => return (← run (.apply callee (given ++ [item]) none Pos.none), item)
      | some _ => return (← run (.apply callee (given ++ item :: extras) none Pos.none), item)
      | none => return (← run (.apply callee (given ++ [item]) none Pos.none), item)
    tryCatch outcome fun
      | .fault cause p => fault (.inside caller false cause p) pos
      | s => throw s
  | other => fault (.mismatch "Fn" other.typeName) pos

/-- Applies a function value to arguments, with more of them if it takes more. -/
def onArgs (env : Env) (run : Runner) (caller : String) (f : Value) (args extras : List Value) (pos : Pos) :
    Exec Value := do
  match f with
  | .fn callee given =>
    let all := match arity? env callee given.length [args.length, args.length + extras.length] with
      | some n => if n == args.length then args else args ++ extras
      | none => args
    tryCatch (run (.apply callee (given ++ all) none Pos.none)) fun
      | .fault cause p => fault (.inside caller false cause p) pos
      | s => throw s
  | other => fault (.mismatch "Fn" other.typeName) pos

end Exec

namespace Callback

/-- Whether a value is true. -/
def holds : Value → Bool
  | .bool b => b
  | _ => false

/-- Every item with its result and what became of it. -/
def each (f : Nat → Value → Exec (Value × Value)) : Nat → List Value → Exec (List (Value × Value × Value))
  | _, [] => return []
  | i, v :: rest => do
    let (r, after) ← f i v
    return (v, r, after) :: (← each f (i + 1) rest)

/-- The first item whose result is accepted, with its place and its result. -/
def first (f : Nat → Value → Exec (Value × Value)) (accept : Value → Bool) :
    Nat → List Value → Exec (Option (Nat × Value × Value))
  | _, [] => return none
  | i, v :: rest => do
    let (r, _) ← f i v
    if accept r then return some (i, v, r) else first f accept (i + 1) rest

/-- An item put into a list in order, behind the items that do not come after it. -/
def insertBy (after : Value → Value → Exec Bool) (v : Value) : List Value → Exec (List Value)
  | [] => return [v]
  | w :: rest => do
    if ← after w v then return v :: w :: rest else return w :: (← insertBy after v rest)

/-- Items in the order of a comparison; items that compare as equal keep their order. -/
def sortBy (after : Value → Value → Exec Bool) : List Value → List Value → Exec (List Value)
  | done, [] => return done
  | done, v :: rest => do sortBy after (← insertBy after v done) rest

/-- Items folded into a value. -/
def fold (f : Nat → Value → Value → Exec Value) : Nat → Value → List Value → Exec Value
  | _, acc, [] => return acc
  | i, acc, v :: rest => do fold f (i + 1) (← f i acc v) rest

/-- A function of arrays or maps that takes a function: its result and its first argument
afterwards. -/
structure Applied where
  access : Script.Access
  run : Exec (Value × Value)

/-- The functions of arrays that take a function. -/
def ofArray? (env : Env) (run : Runner) (name : String) (items : List Value) (rest : List Value)
    (pos : Pos) : Option Applied :=
  let onItem (f : Value) (i : Nat) (v : Value) : Exec (Value × Value) :=
    Exec.onItem env run name f v [.int i] pos
  let kept (rs : List (Value × Value × Value)) : Value :=
    .array (rs.filterMap fun (v, r, _) => if holds r then some v else none)
  let dropped (rs : List (Value × Value × Value)) : Value :=
    .array (rs.filterMap fun (v, r, _) => if holds r then none else some v)
  let reads (x : Exec Value) : Option Applied :=
    some ⟨.reads, do return (← x, .array items)⟩
  match name, rest with
  | "map", [.fn c g] => some ⟨.reads, do
      let rs ← each (onItem (.fn c g)) 0 items
      return (.array (rs.map (·.2.1)), .array (rs.map (·.2.2)))⟩
  | "filter", [.fn c g] => reads do return kept (← each (onItem (.fn c g)) 0 items)
  | "for_each", [.fn c g] => some ⟨.changes, do
      let rs ← each (onItem (.fn c g)) 0 items
      return (.unit, .array (rs.map (·.2.2)))⟩
  | "retain", [.fn c g] => some ⟨.changes, do
      let rs ← each (onItem (.fn c g)) 0 items
      return (dropped rs, kept rs)⟩
  | "drain", [.fn c g] => some ⟨.changes, do
      let rs ← each (onItem (.fn c g)) 0 items
      return (kept rs, dropped rs)⟩
  | "find", [.fn c g] => reads do return ((← first (onItem (.fn c g)) holds 0 items).map (·.2.1)).getD .unit
  | "find_map", [.fn c g] => reads do
      return ((← first (onItem (.fn c g)) (!·.isUnit) 0 items).map (·.2.2)).getD .unit
  | "some", [.fn c g] => reads do return .bool (← first (onItem (.fn c g)) holds 0 items).isSome
  | "all", [.fn c g] => reads do return .bool (← first (onItem (.fn c g)) (!holds ·) 0 items).isNone
  | "index_of", [.fn c g] => reads do
      return .int (((← first (onItem (.fn c g)) holds 0 items).map fun r => (r.1 : Int)).getD (-1))
  | "reduce", [.fn c g] => reads (fold (reducing (.fn c g)) 0 .unit items)
  | "reduce", [.fn c g, initial] => reads (fold (reducing (.fn c g)) 0 initial items)
  | "reduce_rev", [.fn c g] => reads (fold (reducing (.fn c g)) 0 .unit items.reverse)
  | "reduce_rev", [.fn c g, initial] => reads (fold (reducing (.fn c g)) 0 initial items.reverse)
  | "sort", [.fn c g] => some ⟨.changes, do return (.unit, .array (← sortBy (after (.fn c g)) [] items))⟩
  | _, _ => none
where
  /-- One step of a fold. -/
  reducing (f : Value) (i : Nat) (acc v : Value) : Exec Value :=
    Exec.onArgs env run name f [acc, v] [.int i] pos
  /-- Whether an item comes after another; a comparison that fails says nothing. -/
  after (f : Value) (a b : Value) : Exec Bool := do
    let order ← tryCatch (Exec.onArgs env run name f [a, b] [] pos) fun
      | .fault _ _ => return .int 0
      | s => throw s
    match order with
    | .int n => return n > 0
    | _ => return false

/-- The functions of maps that take a function. -/
def ofMap? (env : Env) (run : Runner) (name : String) (entries : Dict Value) (rest : List Value) (pos : Pos) :
    Option Applied :=
  match name, rest with
  | "filter", [.fn c g] => some ⟨.reads, do
      let kept ← keep (.fn c g) entries
      return (.map kept, .map entries)⟩
  | "retain", [.fn c g] => some ⟨.changes, do
      let kept ← keep (.fn c g) entries
      return (.map (entries.filter fun e => !Dict.contains kept e.1), .map kept)⟩
  | "drain", [.fn c g] => some ⟨.changes, do
      let kept ← keep (.fn c g) entries
      return (.map kept, .map (entries.filter fun e => !Dict.contains kept e.1))⟩
  | _, _ => none
where
  /-- The entries for which a function of the name and the value holds. -/
  keep (f : Value) : Dict Value → Exec (Dict Value)
    | [] => return []
    | (k, v) :: rest => do
      let r ← Exec.onArgs env run name f [.str k, v] [] pos
      let others ← keep f rest
      return if holds r then (k, v) :: others else others

/-- A function that takes a function. -/
def find? (env : Env) (run : Runner) (name : String) (target : Value) (rest : List Value) (pos : Pos) :
    Option Applied :=
  match target with
  | .array items => ofArray? env run name items rest pos
  | .map entries => ofMap? env run name entries rest pos
  | _ => none

end Callback

namespace Place

/-- The text of a value is shown to the host. -/
def show_ (name : String) (target : Value) (env : Env) : Exec Value := do
  let m ← get
  let text := if name == "debug" then
      (match target with
        | .record _ | .object _ => target.inner Value.typeName
        | v => v.inner Value.typeName)
    else m.text env.backend target
  Exec.trace fun now => .log now text []
  return .unit

/-- Applies a function that is not of the script to the value in place and more arguments: the
result, and whether the value may have changed. -/
def native (env : Env) (run : Runner) (name : String) (rest : List Value) (constant inPlace : Bool)
    (pos : Pos) : Place (Value × Bool) := do
  let target ← get
  let m : Machine ← liftM (m := StateM Machine) get
  let guard (changes : Bool) : Place Unit :=
    if changes && constant then fault (.constantTarget name) pos else pure ()
  let finish (v : Value) (method : Bool) : Place (Value × Bool) := do
    lift (Exec.checkSize env v pos)
    if inPlace then lift (Exec.checkSize env (← get) pos)
    return (v, method)
  let hosted (h : HostCall.Hosted) : Place (Value × Bool) := do
    guard h.inPlace
    finish (← lift (Exec.at_ pos h.run)) h.inPlace
  let builtin (b : Builtin) : Place (Value × Bool) := do
    guard (b.access == .changes)
    let (v, after) ← lift (Exec.ofExcept b.outcome pos)
    if b.access != .takes then set after
    finish v (b.access != .takes)
  match Callback.find? env run name target rest pos with
  | some applied =>
    guard (applied.access == .changes)
    let (v, after) ← lift applied.run
    set after
    finish v true
  | none =>
    match HostCall.hosted? env m.drafts name (target :: rest) with
    | some h => hosted h
    | none =>
      match Script.Library.find? name target rest with
      | some b => builtin b
      | none =>
        match HostCall.tool? env name (target :: rest) with
        | some h => hosted h
        | none =>
          if (name == "print" || name == "debug") && rest.isEmpty then
            return (← lift (show_ name target env), false)
          match Script.Library.anyType? (m.text env.backend) name target rest with
          | some b => builtin b
          | none => lift (Exec.noFunction name (target :: rest) pos)

end Place

namespace Exec

/-- Applies a function that is not of the script to no arguments. -/
def nativeNone (env : Env) (name : String) (pos : Pos) : Exec Value := do
  match (HostCall.hosted? env #[] name []).or (HostCall.tool? env name []) with
  | some h =>
    let v ← at_ pos h.run
    sized env v pos
  | none =>
    if name == "print" || name == "debug" then
      trace fun now => .log now "" []
      return .unit
    else noFunction name [] pos

/-- Applies a function by name to values. -/
def callByName (env : Env) (run : Runner) (name : String) (args : List Value) (this : Option Nat)
    (pos : Pos) : Exec Value := do
  match scriptFunction? env name args.length with
  | some f => invoke env run f name args this pos
  | none =>
    match args with
    | [] =>
      match this with
      | some id => return (← Place.onCell id (Place.native env run name [] false true pos)).1
      | none => nativeNone env name pos
    | target :: rest => return (← Place.onValue target (Place.native env run name rest false false pos)).1.1

/-- Applies a function value to all its arguments. -/
def callFn (env : Env) (run : Runner) (callee : Callee) (args : List Value) (this : Option Nat) (pos : Pos) :
    Exec Value := do
  match callee with
  | .named name => callByName env run name args this pos
  | .closure index captured =>
    match env.functions[index]? with
    | some f =>
      let params := captured ++ f.params
      if params.length == args.length then
        invoke env run { f with params := params } (Value.calleeName callee) args this pos
      else noFunction (Value.calleeName callee) args pos
    | none => noFunction (Value.calleeName callee) args pos

end Exec

namespace Place

/-- Calls a method on the value in place: the result, and whether the value may have changed. -/
def callMethod (env : Env) (run : Runner) (name : String) (args : List Value) (argPos : Pos)
    (constant inPlace : Bool) (pos : Pos) : Place (Value × Bool) := do
  let target ← get
  let bound (callee : Callee) (args : List Value) : Place (Value × Bool) := do
    let id ← lift (Exec.newCell target)
    let readBack : Place Unit := do
      let m : Machine ← liftM (m := StateM Machine) get
      set (m.contents (.cell id))
    let v ← tryCatch (lift (run (.apply callee args (some id) pos))) fun s => do
      readBack
      throw s
    readBack
    return (v, false)
  if name == "call" then
    match target, args with
    | .fn callee given, _ => return (← lift (run (.apply callee (given ++ args) none pos)), false)
    | _, .fn callee given :: rest => bound callee (given ++ rest)
    | _, [] => fault (.mismatch "Fn" target.typeName) pos
    | _, other :: _ => fault (.mismatch "Fn" other.typeName) argPos
  else if name == "curry" then
    match target with
    | .fn callee given => return (.fn callee (given ++ args), false)
    | _ => fault (.mismatch "Fn" target.typeName) pos
  else if name == "is_shared" && args.isEmpty then return (.bool false, false)
  else
    let stored : Option Value := match target with
      | .map entries => Dict.get? entries name
      | _ => none
    match stored with
    | some (.fn callee given) => bound callee (given ++ args)
    | _ =>
      if (Exec.scriptFunction? env name args.length).isSome then bound (.named name) args
      else native env run name args constant inPlace pos

end Place

end ScriptAgent
