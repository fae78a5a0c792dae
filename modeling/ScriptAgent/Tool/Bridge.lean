import ScriptAgent.Abort
import ScriptAgent.Ids
import ScriptAgent.Schema.Check
import ScriptAgent.Tool.Basic

/-!
# Calling tools

Every call of a tool goes through the bridge, which leaves exactly one trace of a call that ended,
one more for a call that ran long, and one for a signal that it raised.
-/

namespace ScriptAgent

/-- What outlives a single script: the clock, the abort latch, the counts of calls, the traces. -/
structure Host where
  /-- The clock, in microseconds. -/
  micros : Nat := 0
  /-- How many identifiers were made. -/
  made : Nat := 0
  /-- How often each tool was called. -/
  counts : List (Nat × Nat) := []
  abort : AbortLatch := {}
  traces : List Trace := []

namespace Host

/-- The clock, in milliseconds. -/
def millis (h : Host) : Millis :=
  h.micros / 1000

/-- One more trace. -/
def trace (h : Host) (t : Trace) : Host :=
  { h with traces := h.traces ++ [t] }

/-- A new identifier. -/
def freshId (h : Host) (kind : String) : String × Host :=
  (Ids.make kind h.millis (h.made % 65536), { h with made := h.made + 1 })

/-- How often a tool was called. -/
def callCount (h : Host) (key : Nat) : Nat :=
  (h.counts.lookup key).getD 0

/-- One more call of a tool. -/
def countCall (h : Host) (key : Nat) : Host :=
  { h with counts := (key, h.callCount key + 1) :: h.counts.filter (·.1 != key) }

end Host

/-- A call as a script makes it. -/
structure ToolRequest where
  object : Option String := none
  input : Json := .null
  /-- Where the result is assigned, if the call was announced. -/
  assignment : Option Assignment := none
  line : Option Nat := none

/-- How a call left the bridge. -/
inductive Invocation where
  | ended (outcome : ToolOutcome)
  /-- The time was up while the tool ran. -/
  | timedOut
  /-- The abort latch fired while the tool ran. -/
  | aborted (reason : String)

namespace Bridge

/-- The input as it is recorded: with defaults filled in, if that satisfies the schema. -/
def recordedInput (t : Tool) (input : Json) : Json :=
  match t.inputSchema with
  | none => input
  | some schema =>
    match parseWith schema input with
    | .ok v => v
    | .error _ => input

/-- An interrupt with the call that raised it; other signals stay as they are. -/
def attachCall (s : Signal) (t : Tool) (id : String) (r : ToolRequest) : Signal :=
  match s with
  | .interrupt d =>
    let info : ToolCallInfo := ⟨id, t.name, r.object, t.inputSchema, t.outputSchema, r.input, r.assignment⟩
    .interrupt { d with toolCall := d.toolCall.or (some info), line := d.line.or r.line }
  | other => other

/-- The trace of a call that ended. -/
def callTrace (t : Tool) (id : String) (r : ToolRequest) (started ended : Millis) (o : ToolOutcome) :
    ToolCallTrace :=
  let trace : ToolCallTrace :=
    { id, tool := t.name, object := r.object, input := recordedInput t r.input, success := true
      startedAt := started, endedAt := ended }
  match o with
  | .value v => { trace with output := some v }
  | .signal _ => trace
  | .failed message => { trace with success := false, error := some message }

/-- Calls a tool.  A call that takes at least `slow` milliseconds leaves a trace of that first; a
call that is still running at the deadline, or that fires the abort latch, leaves no trace of its
end. -/
def invoke (h : Host) (slow : Millis) (deadline : Option Nat) (t : Tool) (r : ToolRequest) :
    Invocation × Host :=
  let (id, h) := h.freshId "tcall"
  let run := t.handler r.input ⟨id, t.name, r.object⟩ (h.callCount t.key)
  let h := h.countCall t.key
  let started := h.millis
  let micros := run.duration * 1000
  -- the time the call is watched for
  let left := (deadline.map (· - h.micros)).getD (max micros (slow * 1000))
  let watched := if run.outcome.isSome then min micros left else left
  let late := watched ≥ slow * 1000 && (run.fires.isNone || micros ≥ slow * 1000)
  let h := if late then
      ({ h with micros := h.micros + slow * 1000 } : Host).trace
        (.toolSlow (started + slow) id t.name r.object (recordedInput t r.input) slow)
    else h
  let h := { h with micros := max h.micros (h.micros + watched - (if late then slow * 1000 else 0)) }
  match run.fires, run.outcome with
  | some reason, _ =>
    let h := { h with abort := h.abort.fire reason }
    (.aborted (h.abort.reason.getD reason), h)
  | none, none => (.timedOut, h)
  | none, some outcome =>
    if deadline.isSome && micros ≥ left && micros > 0 then (.timedOut, h)
    else
      let outcome := match outcome with
        | .signal s => .signal (attachCall s t id r)
        | other => other
      let h := h.trace (.toolCall (callTrace t id r started h.millis outcome))
      match outcome with
      | .signal s => (.ended outcome, h.trace (.signal h.millis r.line s))
      | _ => (.ended outcome, h)

end Bridge

end ScriptAgent
