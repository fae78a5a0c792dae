import ScriptAgent.Instrument.Compile
import ScriptAgent.Sandbox.Step

/-!
# Running a script

A machine is made of the variables, the objects and the host; the script runs on it, and what is
left on the machine is read off.  A signal that was raised decides the outcome, whatever the script
did after it.
-/

namespace ScriptAgent

open Script (Value Fault Pos)

/-- What a run needs. -/
structure Job where
  backend : Backend := .inline
  compiled : Compiled
  «variables» : Dict Json := []
  tools : List Tool := []
  objects : List ObjectInstance := []
  limits : Limits := {}

/-- The kind of a failure. -/
inductive FailureKind where
  | execution
  | assignment
  | timedOut
  | outOfMemory
  | aborted
deriving DecidableEq, Repr

/-- A failure at a place in the text that ran. -/
structure Failure where
  kind : FailureKind
  message : String
  line : Option Nat := none
  column : Option Nat := none
deriving DecidableEq, Repr

/-- How a script ended. -/
inductive Ending where
  | completed (value : Json)
  | suspended (signal : Signal)
  | failed (failure : Failure)

/-- The end of a run and the variables it left. -/
structure Report where
  ending : Ending
  «variables» : Dict Json := []
  machine : Machine

namespace Job

/-- What does not change during a run. -/
def env (j : Job) (host : Host) (functions : List Script.Function) : Env where
  backend := j.backend
  sizes := j.backend.sizeLimits j.limits.memory
  slowTool := j.limits.slowTool
  deadline := host.micros + j.limits.timeout * 1000
  tools := j.tools
  calls := j.compiled.calls
  functions := functions.toArray

/-- The variables a script finds, the earliest first, and the records among them. -/
def globals (b : Backend) : Nat → Dict Json → List Slot × List Record
  | _, [] => ([], [])
  | id, (name, .obj fields) :: rest =>
    let (slots, records) := globals b (id + 1) rest
    (⟨name, false, .record id⟩ :: slots, ⟨name, fields⟩ :: records)
  | id, (name, v) :: rest =>
    let (slots, records) := globals b id rest
    (⟨name, false, b.toScript v⟩ :: slots, records)

/-- The names of the objects and of the console. -/
def hidden (j : Job) : List String :=
  j.objects.map (·.name) ++ ["console"]

/-- The machine a script starts on. -/
def machine (j : Job) (host : Host) : Machine :=
  let (slots, records) := globals j.backend 0 j.variables
  let objects : List Slot := j.objects.mapIdx fun i o => { name := o.name, value := .object i }
  let console : Slot := { name := "console", value := .console }
  { scope := (slots ++ objects ++ [console]).reverse
    records := records.toArray
    drafts := (j.objects.map Draft.ofInstance).toArray
    host }

end Job

namespace Machine

/-- The variables at the end of a run, without functions and without the names that are not the
script's. -/
def «variables» (m : Machine) (backend : Backend) (hidden : List String) : Dict Json :=
  m.scope.reverse.foldl (fun d slot =>
    let v := m.contents slot.value
    if hidden.contains slot.name || v.isFn then d else Dict.insert d slot.name (m.toJson backend v)) []

/-- A failure as it is reported: at its own line, or at the line of the latest statement. -/
def failureAt (m : Machine) (kind : FailureKind) (message : String) (pos : Pos) : Failure where
  kind
  message
  line := if pos.isNone then m.line else some pos.line
  column := if pos.isNone || pos.column == 0 then none else some pos.column

/-- The failure that a stop is outside of the script. -/
def failure (m : Machine) : Stop → Failure
  | .fault cause pos =>
    let (cause, pos) := cause.root pos
    let kind : FailureKind := match cause with
      | .thrown v => if m.refusedWrite == some v.thrownText then .assignment else .execution
      | _ => .execution
    m.failureAt kind cause.message pos
  | .halted .timedOut pos => m.failureAt .timedOut "Execution timed out" pos
  | .halted .outOfMemory pos => m.failureAt .outOfMemory "Memory limit exceeded" pos
  | .halted (.aborted reason) pos => m.failureAt .aborted reason pos
  | .halted .suspended pos => m.failureAt .aborted "Execution was stopped" pos
  | .tooLarge what pos => m.failureAt .outOfMemory (what ++ " exceeds the memory limit") pos
  | .tooDeep pos => m.failureAt .execution "Stack overflow" pos
  | .returned _ | .broken _ | .continued => m.failureAt .execution "" Pos.none

end Machine

/-- How deep the parts of a script may be nested while it runs; scripts within the limits of the
parser and of calls stay far below. -/
def nestingFuel : Nat := 1000000

/-- The ending of a run that did not raise a signal. -/
def Machine.ending (m : Machine) (backend : Backend) : Except Stop Value → Ending
  | .ok v => .completed (m.toJson backend v)
  | .error (.returned v) => .completed (m.toJson backend v)
  | .error s => .failed (m.failure s)

/-- Runs a script to its end. -/
def Job.run (j : Job) (host : Host) : Report :=
  let m := j.machine host
  match Script.parse j.compiled.code (j.backend.parseLimits (j.backend.sizeLimits j.limits.memory)) with
  | .error e =>
    let failure : Failure :=
      ⟨.execution, e.fault.message, if e.pos.isNone then none else some e.pos.line,
        if e.pos.isNone || e.pos.column == 0 then none else some e.pos.column⟩
    { ending := .failed failure, machine := m }
  | .ok program =>
    let env := j.env host program.functions
    let (result, m) := runAll (evaluate env nestingFuel) program.body m
    let m := { m with host := { m.host with micros := m.micros } }
    { ending := match m.raised with
        | some s => .suspended s
        | none => m.ending j.backend result
      «variables» := m.variables j.backend j.hidden
      machine := m }

end ScriptAgent
