import ScriptAgent.Object.Draft
import ScriptAgent.Sandbox.Binding
import ScriptAgent.Sandbox.Record
import ScriptAgent.Script.Fault
import ScriptAgent.Tool.Bridge

/-!
# The machine

All that a running script can change: its variables, the records and drafts it was handed, what it
leaves for the host.  A computation on the machine ends with a value or with a reason to stop, and
gives the machine back either way.
-/

namespace ScriptAgent

open Script (Value Fault Pos)

/-- A variable; one that functions share holds a cell. -/
structure Slot where
  name : String
  constant : Bool := false
  value : Value
deriving Inhabited

/-- The state of a run. -/
structure Machine where
  /-- The variables of the running function, the latest first. -/
  scope : List Slot
  /-- What `this` stands for, as a cell. -/
  this : Option Nat := none
  cells : Array Value := #[]
  records : Array Record := #[]
  drafts : Array Draft := #[]
  host : Host
  /-- How many steps were made. -/
  steps : Nat := 0
  /-- How often a variable was read. -/
  reads : Nat := 0
  /-- The line of the latest statement. -/
  line : Option Nat := none
  /-- How often each line was reached. -/
  lineHits : List (Nat × Nat) := []
  /-- The announced call that was not made yet. -/
  pendingCall : Option Nat := none
  /-- The first signal that was raised. -/
  raised : Option Signal := none
  /-- The text of the latest write that was refused. -/
  refusedWrite : Option String := none
  /-- How deep calls of functions are nested. -/
  level : Nat := 0

/-- Why a run is ended from outside the script. -/
inductive Halt where
  | timedOut
  | outOfMemory
  | aborted (reason : String)
  | suspended
deriving DecidableEq, Repr

/-- Why a computation does not go on. -/
inductive Stop where
  | fault (cause : Fault) (pos : Pos)
  | halted (why : Halt) (pos : Pos)
  | tooLarge (what : String) (pos : Pos)
  | tooDeep (pos : Pos)
  /-- A function is left with a value. -/
  | returned (value : Value)
  /-- A loop is left with a value. -/
  | broken (value : Value)
  /-- The rest of a turn of a loop is left out. -/
  | continued

/-- A computation on the machine. -/
abbrev Exec (α : Type) := ExceptT Stop (StateM Machine) α

/-- What does not change during a run. -/
structure Env where
  backend : Backend
  sizes : SizeLimits
  slowTool : Millis
  /-- When the run is over, in microseconds. -/
  deadline : Nat
  tools : List Tool
  /-- The announced calls by number. -/
  calls : List (Nat × Assignment)
  functions : Array Script.Function
  /-- What a handler is given for a fault. -/
  describe : Fault → Pos → Except Stop Value := fun cause pos => .ok (cause.caught pos)

namespace Stop

/-- The stop with a place, if it had none. -/
def fillPos (pos : Pos) : Stop → Stop
  | .fault cause p => .fault cause (if p.isNone then pos else p)
  | .halted why p => .halted why (if p.isNone then pos else p)
  | .tooLarge what p => .tooLarge what (if p.isNone then pos else p)
  | .tooDeep p => .tooDeep (if p.isNone then pos else p)
  | s => s

end Stop

namespace Exec

/-- Fails with a fault. -/
def fault (f : Fault) (pos : Pos) : Exec α :=
  throw (.fault f pos)

/-- The outcome of a computation of the language. -/
def ofExcept (r : Except Fault α) (pos : Pos) : Exec α :=
  match r with
  | .ok v => pure v
  | .error f => fault f pos

/-- A computation whose failures get a place if they have none. -/
def at_ (pos : Pos) (x : Exec α) : Exec α :=
  tryCatch x fun s => throw (s.fillPos pos)

end Exec

/-- How much time a step takes, in microseconds. -/
def microsPerStep : Nat := 5

namespace Machine

/-- The time, in microseconds. -/
def micros (m : Machine) : Nat :=
  m.host.micros + m.steps * microsPerStep

/-- The value a variable holds. -/
def contents (m : Machine) : Value → Value
  | .cell id => m.cells[id]?.getD .unit
  | v => v

/-- The JSON value of a value of the host. -/
def hostedJson (m : Machine) : Value → Json
  | .record id => (m.records[id]?.map Record.toJson).getD .null
  | .object id => (m.drafts[id]?.map fun d => Json.obj d.values).getD .null
  | _ => .null

/-- A script value as a JSON value. -/
def toJson (m : Machine) (backend : Backend) (v : Value) : Json :=
  backend.ofScript m.hostedJson v

/-- The text of a value on its own; a record or an object is shown as JSON. -/
def text (m : Machine) (backend : Backend) (v : Value) : String :=
  match v with
  | .record _ => (m.hostedJson v).compact
  | .object _ => (m.toJson backend v).compact
  | v => v.text Value.typeName

mutual

/-- How many bytes a value is taken to hold. -/
def estimate (m : Machine) : Value → Nat
  | .str s => 16 + s.utf8ByteSize
  | .array items => 16 + estimateAll m items
  | .map entries => 16 + estimateEntries m entries
  | .record id => 16 + (m.hostedJson (.record id)).compact.utf8ByteSize
  | _ => 16

/-- The bytes that items hold. -/
def estimateAll (m : Machine) : List Value → Nat
  | [] => 0
  | v :: rest => estimate m v + estimateAll m rest

/-- The bytes that entries and their names hold. -/
def estimateEntries (m : Machine) : List (String × Value) → Nat
  | [] => 0
  | (k, v) :: rest => k.utf8ByteSize + estimate m v + estimateEntries m rest

end

/-- How many bytes the variables in scope hold. -/
def scopeSize (m : Machine) : Nat :=
  (m.scope.map fun slot => m.estimate (m.contents slot.value)).foldr (· + ·) 0

/-- The place of a variable in scope. -/
def find? (m : Machine) (name : String) : Option Nat :=
  m.scope.findIdx? (·.name == name)

/-- The machine after a line was reached. -/
def reachLine (m : Machine) (line : Nat) : Machine :=
  let hits := (m.lineHits.lookup line).getD 0 + 1
  { m with line := if line == 0 then none else some line, pendingCall := none
           lineHits := (line, hits) :: m.lineHits.filter (·.1 != line) }

end Machine

namespace Exec

/-- One step: nothing is done any more once a signal was raised or the time is up. -/
def tick (env : Env) (pos : Pos) : Exec Unit := do
  modify fun m => { m with steps := m.steps + 1 }
  let m ← get
  if m.raised.isSome then throw (.halted .suspended pos)
  if m.micros ≥ env.deadline then throw (.halted .timedOut pos)

/-- How many reads of variables lie between two measurements. -/
def readsPerCheck : Nat := 256

/-- Notes that a variable is read; every now and then what is in scope is measured. -/
def noteRead (env : Env) (pos : Pos) : Exec Unit := do
  let m ← get
  set { m with reads := m.reads + 1 }
  if m.reads % readsPerCheck == 0 && m.scopeSize > env.sizes.budget then
    throw (.halted .outOfMemory pos)

/-- Fails if a value is larger than values may be. -/
def checkSize (env : Env) (v : Value) (pos : Pos) : Exec Unit := do
  match v with
  | .str _ | .array _ | .map _ =>
    let (items, entries, text) := v.sizes
    if text > env.sizes.text then throw (.tooLarge "Length of string" pos)
    if items > env.sizes.items then throw (.tooLarge "Size of array/BLOB" pos)
    if entries > env.sizes.entries then throw (.tooLarge "Size of object map" pos)
  | _ => return

/-- A value of the right size. -/
def sized (env : Env) (v : Value) (pos : Pos) : Exec Value := do
  checkSize env v pos
  return v

/-- Declares a variable. -/
def declare (name : String) (constant : Bool) (v : Value) : Exec Unit :=
  modify fun m => { m with scope := ⟨name, constant, v⟩ :: m.scope }

/-- A computation whose variables are gone afterwards, however it ends. -/
def scoped_ (x : Exec α) : Exec α := do
  let size := (← get).scope.length
  let rewind : Exec Unit := modify fun m => { m with scope := m.scope.drop (m.scope.length - size) }
  let v ← tryCatch x fun s => do
    rewind
    throw s
  rewind
  return v

/-- A new cell that holds a value. -/
def newCell (v : Value) : Exec Nat := do
  let id := (← get).cells.size
  modify fun m => { m with cells := m.cells.push v }
  return id

/-- The variable with a name as a cell, made one if it was none. -/
def share (env : Env) (name : String) (pos : Pos) : Exec Value := do
  let m ← get
  match m.find? name with
  | none => fault (.variableNotFound name) pos
  | some i =>
    noteRead env pos
    let slot := m.scope[i]!
    match slot.value with
    | .cell id => return .cell id
    | v =>
      let id ← newCell v
      modify fun m => { m with scope := m.scope.set i { slot with value := .cell id } }
      return .cell id

/-- The value of a variable. -/
def readVariable (env : Env) (name : String) (pos : Pos) : Exec Value := do
  noteRead env pos
  let m ← get
  match m.scope.find? (·.name == name) with
  | some slot => return m.contents slot.value
  | none => fault (.variableNotFound name) pos

end Exec

/-- A computation on a value in place: whatever happens, what the place holds is given back. -/
abbrev Place (α : Type) := ExceptT Stop (StateT Value (StateM Machine)) α

namespace Place

/-- A computation that leaves the place alone. -/
def lift (x : Exec α) : Place α := fun v m =>
  let (r, m) := x m
  ((r, v), m)

/-- A computation on a part of the place, which is put back afterwards. -/
def inside (part : Value) (put : Value → Value → Value) (x : Place α) : Place α := fun v m =>
  let ((r, part), m) := x part m
  ((r, put v part), m)

/-- A computation on a value of its own: the outcome and what became of the value. -/
def onValue (v : Value) (x : Place α) : Exec (α × Value) := fun m =>
  let ((r, v), m) := x v m
  (r.map (·, v), m)

/-- A computation on a cell. -/
def onCell (id : Nat) (x : Place α) : Exec α := fun m =>
  let ((r, v), m) := x (m.cells[id]?.getD .unit) m
  (r, { m with cells := m.cells.setIfInBounds id v })

/-- A computation on a variable, told whether that is constant. -/
def onVariable (env : Env) (name : String) (pos : Pos) (x : Bool → Place α) : Exec α := do
  Exec.noteRead env pos
  let m ← get
  match m.find? name with
  | none => Exec.fault (.variableNotFound name) pos
  | some i =>
    let slot := m.scope[i]!
    match slot.value with
    | .cell id => onCell id (x slot.constant)
    | v => fun m =>
      let ((r, v), m) := x slot.constant v m
      (r, { m with scope := m.scope.set i { slot with value := v } })

/-- Fails with a fault. -/
def fault (f : Fault) (pos : Pos) : Place α :=
  throw (.fault f pos)

/-- A computation whose failures get a place in the script if they have none. -/
def at_ (pos : Pos) (x : Place α) : Place α :=
  tryCatch x fun s => throw (s.fillPos pos)

end Place

end ScriptAgent
