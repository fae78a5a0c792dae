import ScriptAgent.Sandbox.Machine
import ScriptAgent.Text.Find

/-!
# What the host offers to scripts

Hooks, signals, the console, tools, records and host objects.  Everything a script does to the
world outside of its variables happens here; once a signal was raised none of it happens any more.
-/

namespace ScriptAgent

open Script (Value Fault Pos)

namespace Exec

/-- Leaves a trace. -/
def trace (f : Millis → Trace) : Exec Unit :=
  modify fun m => { m with host := m.host.trace (f m.host.millis) }

/-- Fails with a text, as if the script had thrown it. -/
def failText (message : String) : Exec α :=
  fault (.thrown (.str message)) Pos.none

/-- Fails because a write was refused. -/
def refuseWrite (e : ObjectError) : Exec α := do
  modify fun m => { m with refusedWrite := some e.message }
  failText e.message

/-- Ends the script with a signal; the first one counts. -/
def suspend (s : Signal) : Exec α := do
  modify fun m => { m with raised := m.raised.or (some s) }
  throw (.halted .suspended Pos.none)

/-- Refuses to go on once a signal was raised. -/
def unlessRaised (x : Exec α) : Exec α := do
  if (← get).raised.isSome then throw (.halted .suspended Pos.none)
  x

/-- Raises a signal of the script's own and leaves a trace of it. -/
def raise (s : Signal) : Exec α :=
  unlessRaised do
    let line := (← get).line
    trace fun now => .signal now line s
    suspend s

/-- The announcement of the call that is being made, if it belongs to this tool. -/
def takeAssignment (env : Env) (t : Tool) : Exec (Option Assignment) := do
  match (← get).pendingCall with
  | none => return none
  | some id =>
    match env.calls.lookup id with
    | none => return none
    | some a =>
      if t.answersTo ((Text.splitOn a.callee ".").getLastD a.callee) then
        modify fun m => { m with pendingCall := none }
        return some a
      else return none

/-- Calls a tool, as a method if there is an object. -/
def callTool (env : Env) (t : Tool) (object : Option String) (input : Value) : Exec Value :=
  unlessRaised do
    let assignment ← takeAssignment env t
    let m ← get
    let request : ToolRequest := { object, input := m.toJson env.backend input, assignment, line := m.line }
    let elapsed := m.steps * microsPerStep
    let (invocation, host) := Bridge.invoke m.host env.slowTool (some (env.deadline - elapsed)) t request
    modify fun m => { m with host := host }
    match invocation with
    | .ended (.value v) => return env.backend.toScript v
    | .ended (.signal s) => suspend s
    | .ended (.failed message) => failText message
    | .timedOut => throw (.halted .timedOut Pos.none)
    | .aborted reason => throw (.halted (.aborted reason) Pos.none)

/-- Leaves a trace of a value that the script gives out on its way. -/
def giveOut (env : Env) (v : Value) : Exec Unit :=
  unlessRaised do
    let m ← get
    trace fun now => .yield now (m.toJson env.backend v)

/-- Logs a message and its arguments. -/
def log (env : Env) (message : Value) (args : List Value) : Exec Unit := do
  let m ← get
  let text := match m.toJson env.backend message with
    | .str s => s
    | v => v.compact
  trace fun now => .log now text (args.map (m.toJson env.backend))

/-- Calls a tool of a host object. -/
def callMethod (env : Env) (id : Nat) (name : String) (input : Value) : Exec Value := do
  let d := (← get).drafts[id]?.getD ⟨"", [], [], [], []⟩
  match d.tool? name with
  | some t => callTool env t (some d.name) input
  | none => failText ("Object " ++ d.name ++ " has no tool " ++ name)

/-- A value of the host that cannot be indexed this way. -/
def notIndexable (target index : Value) (assigned : Option Value) : Exec α :=
  fault (.notIndexable (target.typeName ++ " [" ++ index.typeName ++ "]" ++
    (assigned.map fun v => " = " ++ v.typeName).getD "")) Pos.none

/-- What a value of the host holds under an index; none if it has no index at all. -/
def hostedGet (env : Env) (target index : Value) : Exec Value := do
  let m : Machine ← get
  match target, index with
  | .record id, .str key =>
    return (m.records[id]?.bind (·.get? key)).elim .unit env.backend.toScript
  | .object id, .str key =>
    match m.drafts[id]?.map (Draft.get · key) with
    | some (.ok v) => return env.backend.toScript v
    | some (.error e) => failText e.message
    | none => return .unit
  | _, _ => notIndexable target index none

/-- Writes what a value of the host holds under an index. -/
def hostedSet (env : Env) (target index v : Value) : Exec Unit := do
  let m : Machine ← get
  match target, index with
  | .record id, .str key =>
    match m.records[id]?.map (Record.set · key (m.toJson env.backend v)) with
    | some (.ok r) => set { m with records := m.records.setIfInBounds id r }
    | some (.error e) => refuseWrite e
    | none => return
  | .object id, .str key =>
    match m.drafts[id]?.map fun (d : Draft) => (d.set key (m.toJson env.backend v), d.name) with
    | some (.ok (d, stored), name) =>
      set { m with drafts := m.drafts.setIfInBounds id d }
      if let some stored := stored then
        trace fun now => .property now name key stored
    | some (.error e, _) => refuseWrite e
    | none => return
  | _, _ => notIndexable target index (some v)

end Exec

namespace HostCall

/-- A function of the host: its result, and whether it may change its first argument. -/
structure Hosted where
  inPlace : Bool := false
  run : Exec Value

/-- A function that gives nothing back. -/
def act (x : Exec Unit) : Option Hosted :=
  some { run := do
    x
    return .unit }

/-- The hooks that compiled scripts call. -/
def hook? (env : Env) (name : String) (args : List Value) : Option Hosted :=
  match name, args with
  | "__track_line", [.int n] => act (modify fun m => m.reachLine (n % 4294967296).toNat)
  | "__track_tool_call", [.int n] =>
    act (modify fun m => { m with pendingCall := some (n % 4294967296).toNat })
  | "__record_comment", [.str text, .int n] =>
    act (Exec.trace fun now => .comment now (n % 4294967296).toNat text)
  | "__yield", [v] => act (Exec.giveOut env v)
  | _, _ => none

/-- The functions that raise signals. -/
def signal? (env : Env) (name : String) (args : List Value) : Option Hosted :=
  let raise (s : Signal) : Option Hosted := some { run := Exec.raise s }
  let raiseWith (f : Json → Signal) (v : Value) : Option Hosted :=
    some { run := do
      let m ← get
      Exec.raise (f (m.toJson env.backend v)) }
  match name, args with
  | "think", [] => raise (.think "Script asked to think" none)
  | "think", [.str reason] => raise (.think reason none)
  | "think", [.str reason, v] => raiseWith (fun context => .think reason (some context)) v
  | "listen", [] => raise (.listen none)
  | "listen", [.str reason] => raise (.listen (some reason))
  | "transition", [.str target] => raise (.transition target none)
  | "transition", [.str target, .str reason] => raise (.transition target (some reason))
  | "execute", [.str target] => raise (.execute target .null)
  | "execute", [.str target, v] => raiseWith (.execute target) v
  | "interrupt", [.str reason] => raise (.interrupt { reason })
  | _, _ => none

/-- The methods of the console. -/
def consoleMethods : List String :=
  ["log", "info", "warn", "error"]

/-- The functions of records. -/
def ofRecord? (env : Env) (id : Nat) (name : String) (args : List Value) : Option Hosted :=
  let on (f : Record → Value) : Option Hosted :=
    some { inPlace := true, run := do return ((← get).records[id]?.map f).getD .unit }
  match name, args with
  | "keys", [] => on fun r => .array (r.keys.map .str)
  | "len", [] => on fun r => .int r.fields.length
  | "contains", [.str key] => on fun r => .bool (r.contains key)
  | "to_map", [] => on fun r => env.backend.toScript r.toJson
  | "to_string", [] => on fun r => .str r.toJson.compact
  | _, _ => none

/-- The functions of host objects: their own tools and those of all other objects, for which a call
fails. -/
def ofObject? (env : Env) (objects : Array Draft) (id : Nat) (name : String) (args : List Value) :
    Option Hosted :=
  let known := objects.any fun d => d.tools.any (·.answersTo name)
  match args with
  | [] =>
    if known then some { inPlace := true, run := Exec.callMethod env id name .unit }
    else if name == "to_string" then
      some { inPlace := true, run := do
        let m ← get
        return .str (m.text env.backend (.object id)) }
    else none
  | [v] => if known then some { inPlace := true, run := Exec.callMethod env id name v } else none
  | _ => none

/-- A function of the host for exactly these types of arguments. -/
def hosted? (env : Env) (objects : Array Draft) (name : String) (args : List Value) : Option Hosted :=
  match args with
  | .console :: message :: rest =>
    if consoleMethods.contains name && rest.length ≤ 2 then
      some { inPlace := true, run := do
        Exec.log env message rest
        return .unit }
    else (hook? env name args).or (signal? env name args)
  | .record id :: rest => (ofRecord? env id name rest).or ((hook? env name args).or (signal? env name args))
  | .object id :: rest =>
    (ofObject? env objects id name rest).or ((hook? env name args).or (signal? env name args))
  | _ => (hook? env name args).or (signal? env name args)

/-- The tool that a call by name reaches: of tools with one name the latest. -/
def tool? (env : Env) (name : String) (args : List Value) : Option Hosted :=
  match args with
  | [] => (latest name).map fun t => { run := Exec.callTool env t none .unit }
  | [v] => (latest name).map fun t => { run := Exec.callTool env t none v }
  | _ => none
where
  /-- The latest tool that answers to a name. -/
  latest (name : String) : Option Tool :=
    env.tools.reverse.find? (·.answersTo name)

end HostCall

end ScriptAgent
