import ScriptAgent.Digest
import ScriptAgent.Json.Printer
import ScriptAgent.Json.Reader
import ScriptAgent.RunError
import ScriptAgent.Signal
import ScriptAgent.Trace

/-!
# Snapshots

An interrupted run leaves a snapshot: the interrupt, the variables and the part of the script that
ran.  It is settled once, with the value or the error that the interrupted call should have had, and
a new run goes on from there.
-/

namespace ScriptAgent

/-- How far a snapshot is settled. -/
inductive SnapshotStatus where
  | pending
  | resolved (value : Json)
  | rejected (error : String)

namespace SnapshotStatus

/-- The JSON form of a status. -/
def toJson : SnapshotStatus → Json
  | pending => .object [("status", .str "pending")]
  | resolved value => .object [("status", .str "resolved"), ("value", value)]
  | rejected error => .object [("status", .str "rejected"), ("error", .str error)]

/-- Reads a status. -/
def ofJson? (v : Json) : Option SnapshotStatus := do
  let kind ← v.required "status" Json.str?
  if kind == "pending" then return pending
  else if kind == "resolved" then return resolved (← v.required "value" Json.any?)
  else if kind == "rejected" then return rejected (← v.required "error" Json.str?)
  else none

end SnapshotStatus

/-- A suspended run. -/
structure Snapshot where
  id : String
  reason : String
  signal : Interrupt
  «variables» : Dict Json := []
  /-- The script up to the place of the interrupt. -/
  stack : String := ""
  /-- What tells the script apart from others. -/
  fingerprint : Option String := none
  status : SnapshotStatus
  createdAt : Millis

namespace Snapshot

/-- The snapshot of an interrupt. -/
def ofInterrupt (id : String) (now : Millis) (d : Interrupt) (code : Option String) : Snapshot where
  id
  reason := d.reason
  signal := d
  «variables» := d.variables
  stack := d.stack.getD ""
  fingerprint := code.map Digest.fingerprint
  status := .pending
  createdAt := now

/-- The snapshot of a signal; only an interrupt has one. -/
def create (id : String) (now : Millis) (s : Signal) (code : Option String) : Except RunError Snapshot :=
  match s with
  | .interrupt d => .ok (ofInterrupt id now d code)
  | other => .error (.snapshot ("Cannot snapshot a " ++ other.kind ++ " signal"))

/-- The call that was interrupted. -/
def toolCall (s : Snapshot) : Option ToolCallInfo :=
  s.signal.toolCall

/-- Whether the snapshot has its value or its error. -/
def isSettled (s : Snapshot) : Bool :=
  match s.status with
  | .pending => false
  | _ => true

/-- The snapshot with a status, unless it is settled already. -/
def settle (s : Snapshot) (status : SnapshotStatus) : Except RunError Snapshot :=
  if s.isSettled then .error (.snapshot ("Snapshot " ++ s.id ++ " is already settled"))
  else .ok { s with status }

/-- Settles a snapshot with a value. -/
def resolve (s : Snapshot) (value : Json) : Except RunError Snapshot :=
  s.settle (.resolved value)

/-- Settles a snapshot with an error. -/
def reject (s : Snapshot) (error : String) : Except RunError Snapshot :=
  s.settle (.rejected error)

/-- What ties a run that goes on from here to the snapshot. -/
def correlation (s : Snapshot) : Correlation where
  snapshotId := s.id
  toolCall := s.toolCall
  resolved := match s.status with
    | .resolved _ => true
    | _ => false
  value := match s.status with
    | .resolved value => some value
    | _ => none
  error := match s.status with
    | .rejected error => some error
    | _ => none

/-- The JSON form of a snapshot. -/
def toJson (s : Snapshot) : Json :=
  .recordOf [("id", some (.str s.id)), ("reason", some (.str s.reason)), ("signal", some s.signal.toJson),
    ("variables", some (.obj s.variables)), ("stack", some (.str s.stack)),
    ("code_fingerprint", s.fingerprint.map .str), ("status", some s.status.toJson),
    ("created_at", some (.nat s.createdAt))]

/-- Reads a snapshot. -/
def ofJson? (v : Json) : Option Snapshot := do
  return {
    id := ← v.required "id" Json.str?
    reason := ← v.required "reason" Json.str?
    signal := ← v.required "signal" Interrupt.ofJson?
    «variables» := ← v.withDefault "variables" (Json.dict? Json.any?) []
    stack := ← v.withDefault "stack" Json.str? ""
    fingerprint := ← v.optional "code_fingerprint" Json.str?
    status := ← v.required "status" SnapshotStatus.ofJson?
    createdAt := ← v.required "created_at" Json.word64? }

/-- The text a snapshot is kept as. -/
def write (s : Snapshot) : String :=
  s.toJson.compact

/-- The snapshot that a text keeps. -/
def read? (text : String) : Option Snapshot :=
  (Json.parse? text).bind ofJson?

end Snapshot

end ScriptAgent
