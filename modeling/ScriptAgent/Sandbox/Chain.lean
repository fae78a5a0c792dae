import ScriptAgent.Sandbox.Apply

/-!
# Chains

A chain of properties, methods and indices is followed from its root in place, so that what a method
or an assignment at its end changes is changed in the root.  Parts of records and host objects are
copies, written back after a change.
-/

namespace ScriptAgent

open Script (Value Fault Pos)

/-- One step of a chain, its arguments evaluated. -/
inductive Move where
  | property (name : String) (pos opPos : Pos) (safe : Bool)
  | method (name : String) (args : List Value) (argPos pos opPos : Pos) (safe : Bool)
  | index (key : Value) (pos opPos : Pos) (safe : Bool)

/-- An assignment at the end of a chain, through an operator if `op` is not empty. -/
structure Write where
  op : String
  value : Value
  pos : Pos
  /-- The variable the chain starts from, and its place. -/
  root : String
  rootPos : Pos

namespace Move

/-- Whether a step gives the empty value on the empty value. -/
def isSafe : Move → Bool
  | .property _ _ _ safe | .method _ _ _ _ _ safe | .index _ _ _ safe => safe

/-- The place of the operator of a step. -/
def opPos : Move → Pos
  | .property _ _ p _ | .method _ _ _ _ p _ | .index _ _ p _ => p

/-- Evaluates the arguments of a step. -/
def ofLink (run : Runner) : Script.Link → Exec Move
  | .property name pos opPos safe => return .property name pos opPos safe
  | .method name args pos opPos safe => do
    let values ← args.mapM fun a => run (.expr a)
    return .method name values ((args.head?.map Script.Expr.pos).getD Pos.none) pos opPos safe
  | .index key opPos safe => return .index (← run (.expr key)) key.startPos opPos safe

end Move

namespace Place

/-- Whether a value of the host can be indexed. -/
def isIndexed : Value → Bool
  | .record _ | .object _ => true
  | _ => false

/-- Carries out an assignment. -/
def assign (env : Env) (constant : Bool) (w : Write) : Place Unit := do
  if constant then fault (.constantAssigned w.root) w.rootPos
  if w.op.isEmpty then set w.value
  else
    let m : Machine ← liftM (m := StateM Machine) get
    let old ← get
    let new ← lift (Exec.ofExcept (Script.Operator.assigned (m.text env.backend) w.op old w.value) w.pos)
    match new with
    | .str _ =>
      lift (Exec.checkSize env new w.pos)
      set new
    | _ =>
      set new
      lift (Exec.checkSize env new w.pos)

/-- The value an assignment leaves in a place that holds `old`. -/
def assigned (env : Env) (w : Write) (old : Value) : Place Value := do
  return (← lift (onValue old (assign env false w))).2

/-- A word with one bit written. -/
def withBit (n : Int) (bit : Nat) (on : Bool) : Int :=
  let mask := (1 : UInt64) <<< bit.toUInt64
  let word := (Int64.ofInt n).toUInt64
  (if on then word ||| mask else word &&& ~~~mask).toInt64.toInt

/-- The part of a value under a key, and how it is put back. -/
def part (target key : Value) (pos opPos : Pos) : Except Stop (Value × (Value → Value → Value)) :=
  let fault (f : Fault) (pos : Pos) : Except Stop (Value × (Value → Value → Value)) := .error (.fault f pos)
  match target, key with
  | .map entries, .str k =>
    .ok ((Dict.get? entries k).getD .unit, fun t v =>
      match t with
      | .map es => if Dict.contains es k then .map (Dict.insert es k v) else t
      | _ => t)
  | .map _, k => fault (.mismatch "string" k.typeName) pos
  | .array items, .int i =>
    match Script.Library.place? items.length i with
    | some n => .ok (items[n]?.getD .unit, fun t v =>
        match t with
        | .array items => .array (items.set n v)
        | _ => t)
    | none => fault (.arrayBounds items.length i) pos
  | .str s, .int i =>
    let cs := s.toList
    match Script.Library.place? cs.length i with
    | some n => .ok (.char (cs[n]?.getD ' '), fun t v =>
        match v with
        | .char c => .str (String.ofList (cs.set n c))
        | _ => t)
    | none => fault (.stringBounds cs.length i) pos
  | .str s, .range low high inclusive =>
    .ok (.str (String.ofList (Script.Library.slice s.toList low (high - low + (if inclusive then 1 else 0)))),
      fun t _ => t)
  | .int n, .int i =>
    match Script.Library.place? 64 i with
    | some bit => .ok (.bool ((Int64.ofInt n).toUInt64 >>> bit.toUInt64 &&& 1 == 1), fun t v =>
        match v with
        | .bool on => .int (withBit n bit on)
        | _ => t)
    | none => fault (.bitBounds i) pos
  | .array _, k | .str _, k | .int _, k => fault (.mismatch "i64" k.typeName) pos
  | t, k => fault (.notIndexable (t.typeName ++ " [" ++ k.typeName ++ "]")) opPos

/-- Writes the part of a value under a key. -/
def writePart (env : Env) (key : Value) (constant : Bool) (w : Write) (pos opPos : Pos) : Place Unit := do
  let target ← get
  if let .map entries := target then
    if let .str k := key then
      if !Dict.contains entries k then set (Value.map (Dict.insert entries k .unit))
  let target ← get
  let (old, put) ← (match part target key pos opPos with
    | .ok r => pure r
    | .error s => throw s : Place (Value × (Value → Value → Value)))
  match target with
  | .str _ | .int _ =>
    let wanted := old.typeName
    inside old put do
      assign env constant w
      let new ← get
      if new.typeName != wanted then fault (.mismatch wanted new.typeName) w.pos
  | _ =>
    inside old put do
      assign env constant w
      lift (Exec.checkSize env (← get) w.pos)

/-- What a property of a value is. -/
def readProperty (env : Env) (name : String) (pos opPos : Pos) : Place Value := do
  let target ← get
  match Script.Library.property? name target with
  | some v => return v
  | none =>
    if isIndexed target then lift (Exec.at_ opPos (Exec.hostedGet env target (.str name)))
    else
      fault (.noProperty ("Unknown property '" ++ name ++ "' - a getter is not registered for type '" ++
        target.typeName ++ "'")) pos

/-- Writes a property of a value that is no map. -/
def writeProperty (env : Env) (name : String) (w : Write) (pos opPos : Pos) : Place Unit := do
  let target ← get
  let new ← if w.op.isEmpty then pure w.value
    else assigned env w (← readProperty env name pos opPos)
  if isIndexed target then lift (Exec.at_ opPos (Exec.hostedSet env target (.str name) new))
  else
    fault (.noProperty ("No writable property '" ++ name ++ "' - a setter is not registered for type '" ++
      target.typeName ++ "' to handle '" ++ new.typeName ++ "'")) pos

/-- Writes what a value of the host holds under a key. -/
def writeIndexed (env : Env) (key : Value) (w : Write) (opPos : Pos) : Place Unit := do
  let target ← get
  let new ←
    if w.op.isEmpty then pure w.value
    else do
      let old ← tryCatch (return some (← lift (Exec.hostedGet env target key))) fun
        | .fault _ _ => return none
        | s => throw s
      match old with
      | some old => assigned env w old
      | none => pure w.value
  lift (Exec.at_ opPos (Exec.hostedSet env target key new))

/-- Follows a chain from the value in place: the value at its end, and whether what it was reached
through may have changed. -/
def walk (env : Env) (run : Runner) : List Move → Bool → Bool → Option Write → Place (Value × Bool)
  | [], _, _, _ => return (← get, false)
  | move :: rest, constant, inPlace, write => do
    let target ← get
    if move.isSafe && target.isUnit then return (.unit, false)
    let copied (v : Value) (inPlace : Bool) : Place ((Value × Bool) × Value) :=
      lift (onValue v (walk env run rest false inPlace write))
    match move with
    | .method name args argPos pos _ _ =>
      let (v, changed) ← callMethod env run name args argPos constant inPlace pos
      if rest.isEmpty then return (v, changed) else return (← copied v false).1
    | .property name pos opPos _ =>
      match target with
      | .map _ =>
        if rest.isEmpty then
          match write with
          | some w =>
            writePart env (.str name) constant w pos opPos
            lift (Exec.checkSize env (← get) w.pos)
            return (.unit, true)
          | none => followPart (.str name) pos opPos (return (← get, false))
        else followPart (.str name) pos opPos (walk env run rest constant true write)
      | _ =>
        match rest.isEmpty, write with
        | true, some w =>
          writeProperty env name w pos opPos
          return (.unit, true)
        | true, none => return (← readProperty env name pos opPos, false)
        | false, _ =>
          let ((v, changed), after) ← copied (← readProperty env name pos opPos) true
          if changed && isIndexed target then
            lift (Exec.at_ opPos (Exec.hostedSet env target (.str name) after))
          return (v, changed)
    | .index key pos opPos _ =>
      if isIndexed target then
        match rest.isEmpty, write with
        | true, some w =>
          writeIndexed env key w opPos
          return (.unit, true)
        | true, none => return (← lift (Exec.at_ opPos (Exec.hostedGet env target key)), false)
        | false, _ =>
          let ((v, changed), after) ← copied (← lift (Exec.at_ opPos (Exec.hostedGet env target key))) false
          if changed then lift (Exec.at_ opPos (Exec.hostedSet env target key after))
          return (v, changed)
      else if rest.isEmpty then
        match write with
        | some w =>
          writePart env key constant w pos opPos
          return (.unit, true)
        | none => followPart key pos opPos (return (← get, false))
      else followPart key pos opPos (walk env run rest constant true write)
where
  /-- Goes on inside the part under a key. -/
  followPart (key : Value) (pos opPos : Pos) (x : Place (Value × Bool)) : Place (Value × Bool) := do
    match part (← get) key pos opPos with
    | .ok (v, put) => inside v put x
    | .error s => throw s

end Place

end ScriptAgent
