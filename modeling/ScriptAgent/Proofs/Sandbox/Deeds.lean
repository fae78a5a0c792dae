import ScriptAgent.Proofs.Sandbox.Computation
import ScriptAgent.Sandbox.HostCall

/-!
# What a script does to the outside

The outside of a machine is all of it but the script's own variables and counters.  A script changes
the outside by single deeds, each made while no signal is raised.  The conduct of a computation is
the list of its deeds in order: what a run leaves is read off it.
-/

namespace ScriptAgent

open Script (Value)

/-- What of a machine is not the script's own. -/
structure Outside where
  records : Array Record
  drafts : Array Draft
  host : Host
  line : Option Nat
  lineHits : List (Nat × Nat)
  pendingCall : Option Nat
  raised : Option Signal
  refusedWrite : Option String

/-- The outside of a machine. -/
def Machine.outside (m : Machine) : Outside :=
  ⟨m.records, m.drafts, m.host, m.line, m.lineHits, m.pendingCall, m.raised, m.refusedWrite⟩

/-- One change of the outside. -/
inductive Deed where
  /-- A line is reached. -/
  | reach (line : Nat)
  /-- A call is announced. -/
  | announce (call : Nat)
  /-- A comment or a message is recorded. -/
  | note (t : Trace)
  /-- A value is given out on the way. -/
  | giveOut (v : Json)
  /-- A field of a record is written. -/
  | record (id : Nat) (key : String) (v : Json)
  /-- A property of an object is written. -/
  | write (id : Nat) (key : String) (v : Json)
  /-- A write is refused. -/
  | refuse (e : ObjectError)
  /-- A tool is called, with a time at which the call is given up. -/
  | call (t : Tool) (r : ToolRequest) (deadline : Nat)
  /-- The script raises a signal of its own. -/
  | raise (s : Signal)

/-- The announcement that a call of a tool takes, given what is pending. -/
def announced (env : Env) (t : Tool) (pending : Option Nat) : Option Assignment :=
  (pending.bind (env.calls.lookup ·)).filter fun a => t.answersTo ((Text.splitOn a.callee ".").getLastD a.callee)

theorem announced_eq_some {env : Env} {t : Tool} {pending : Option Nat} {a : Assignment} :
    announced env t pending = some a ↔ ∃ id, pending = some id ∧ env.calls.lookup id = some a ∧
      t.answersTo ((Text.splitOn a.callee ".").getLastD a.callee) = true := by
  simp only [announced, Option.filter_eq_some_iff, Option.bind_eq_some_iff]
  exact ⟨fun ⟨⟨id, hp, hl⟩, ha⟩ => ⟨id, hp, hl, ha⟩, fun ⟨id, hp, hl, ha⟩ => ⟨⟨id, hp, hl⟩, ha⟩⟩

/-- What is pending after a call that took an announcement or none. -/
def stillPending (taken : Option Assignment) (pending : Option Nat) : Option Nat :=
  match taken with
  | some _ => none
  | none => pending

/-- Whether a trace only tells what the script said. -/
def Trace.isNote : Trace → Bool
  | .comment .. | .log .. => true
  | _ => false

/-- The signal whose raising a trace records. -/
def Trace.signal? : Trace → Option Signal
  | .signal _ _ s => some s
  | _ => none

/-- The call of a tool that a trace tells of. -/
def Trace.call? : Trace → Option ToolCallTrace
  | .toolCall call => some call
  | _ => none

/-- The calls of tools of which there are traces, in order. -/
def Host.calls (h : Host) : List ToolCallTrace :=
  h.traces.filterMap Trace.call?

theorem Host.calls_trace (h : Host) (t : Trace) : (h.trace t).calls = h.calls ++ t.call?.toList := by
  cases t <;> simp [Host.calls, Host.trace, Trace.call?, List.filterMap_append]

/-- The signal that a call of a tool raises. -/
def Invocation.signal? : Invocation → Option Signal
  | .ended (.signal s) => some s
  | _ => none

/-- Why a call of a tool was given up, if it was. -/
def Invocation.givenUp? : Invocation → Option Halt
  | .ended _ => none
  | .timedOut => some .timedOut
  | .aborted reason => some (.aborted reason)

/-- What a script gets from a call of a tool. -/
def Invocation.reply (b : Backend) : Invocation → Except Stop Value
  | .ended (.value v) => .ok (b.toScript v)
  | .ended (.signal _) => .error (.halted .suspended .none)
  | .ended (.failed message) => .error (.fault (.thrown (.str message)) .none)
  | .timedOut => .error (.halted .timedOut .none)
  | .aborted reason => .error (.halted (.aborted reason) .none)

/-- The request that a call of a tool sends. -/
def Machine.request (m : Machine) (env : Env) (t : Tool) (object : Option String) (input : Value) :
    ToolRequest where
  object
  input := m.toJson env.backend input
  assignment := announced env t m.pendingCall
  line := m.line

namespace Deed

/-- How a deed changes the outside. -/
def Makes (env : Env) (o : Outside) : Deed → Outside → Prop
  | reach n, o' =>
    o' = { o with
      line := if n == 0 then none else some n, pendingCall := none
      lineHits := (n, (o.lineHits.lookup n).getD 0 + 1) :: o.lineHits.filter (·.1 != n) }
  | announce id, o' => o' = { o with pendingCall := some id }
  | note t, o' => t.isNote ∧ o' = { o with host := o.host.trace t }
  | giveOut v, o' => o' = { o with host := o.host.trace (.yield o.host.millis v) }
  | record id key v, o' =>
    ∃ r r', o.records[id]? = some r ∧ r.set key v = .ok r' ∧
      o' = { o with records := o.records.setIfInBounds id r' }
  | write id key v, o' =>
    ∃ d d' stored, o.drafts[id]? = some d ∧ d.set key v = .ok (d', stored) ∧
      o' = { o with
        drafts := o.drafts.setIfInBounds id d'
        host := match stored with
          | some w => o.host.trace (.property o.host.millis d.name key w)
          | none => o.host }
  | refuse e, o' => o' = { o with refusedWrite := some e.message }
  | call t r deadline, o' =>
    ∃ invocation host, Bridge.invoke o.host env.slowTool (some deadline) t r = (invocation, host) ∧
      r.assignment = announced env t o.pendingCall ∧ r.line = o.line ∧
      o' = { o with
        host, pendingCall := stillPending r.assignment o.pendingCall
        raised := invocation.signal? }
  | raise s, o' => o' = { o with host := o.host.trace (.signal o.host.millis o.line s), raised := some s }

/-- Why the call that a deed makes is given up, if it is one and that happens. -/
def givenUp? (env : Env) (o : Outside) : Deed → Option Halt
  | call t r deadline => (Bridge.invoke o.host env.slowTool (some deadline) t r).1.givenUp?
  | _ => none

end Deed

/-- Deeds in order, each made while no signal is raised. -/
inductive Conduct (env : Env) : Outside → List Deed → Outside → Prop
  | none (o : Outside) : Conduct env o [] o
  | next {o o₁ o₂ : Outside} {ds : List Deed} {d : Deed} (before : Conduct env o ds o₁)
      (unraised : o₁.raised = none) (made : d.Makes env o₁ o₂) : Conduct env o (ds ++ [d]) o₂

namespace Conduct

variable {env : Env} {o o₁ o₂ : Outside} {ds ds' : List Deed} {d : Deed}

/-- What every deed keeps, a run keeps. -/
theorem invariant {P : Outside → Prop} (keep : ∀ (d : Deed) o o', o.raised = Option.none → d.Makes env o o' → P o → P o')
    (h : Conduct env o ds o₁) (hP : P o) : P o₁ := by
  induction h with
  | none => exact hP
  | next _ unraised made ih => exact keep _ _ _ unraised made ih

end Conduct

/-- Deeds in order of which none follows a call that was given up, and why the last one was, if so. -/
inductive Course (env : Env) : Outside → List Deed → Option Halt → Outside → Prop
  | none (o : Outside) : Course env o [] .none o
  | next {o o₁ o₂ : Outside} {ds : List Deed} {d : Deed} (before : Course env o ds .none o₁)
      (unraised : o₁.raised = .none) (made : d.Makes env o₁ o₂) : Course env o (ds ++ [d]) (d.givenUp? env o₁) o₂

namespace Course

variable {env : Env} {o o₁ o₂ : Outside} {ds ds' : List Deed} {d : Deed} {g : Option Halt}

theorem one (h : o.raised = .none) (made : d.Makes env o o₁) : Course env o [d] (d.givenUp? env o) o₁ :=
  .next (.none o) h made

theorem trans (h : Course env o ds .none o₁) (h' : Course env o₁ ds' g o₂) : Course env o (ds ++ ds') g o₂ := by
  induction h' with
  | none => simpa using h
  | next _ unraised made ih =>
    rw [← List.append_assoc]
    exact .next ih unraised made

theorem conduct (h : Course env o ds g o₁) : Conduct env o ds o₁ := by
  induction h with
  | none => exact .none _
  | next _ unraised made ih => exact .next ih unraised made

end Course

end ScriptAgent
