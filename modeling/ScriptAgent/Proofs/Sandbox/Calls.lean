import Mathlib.Data.List.Forall2
import ScriptAgent.Proofs.Sandbox.RunConduct
import ScriptAgent.Proofs.Tool.Invocation
import ScriptAgent.Sandbox.Execution

/-!
# Which calls leave a trace

The bridge leaves the trace of a call when the tool's handler has returned.  A call that is given up
while its handler runs leaves none, and the script does nothing to the outside after it.  So of all
calls that an execution starts each but the last has its trace, and the last one lacks it only if the
execution was stopped in it.
-/

namespace ScriptAgent

open Script (Value)

/-- A run of a handler that was started. -/
structure Started where
  id : String
  tool : Tool
  request : ToolRequest
  /-- How long it may take, in microseconds. -/
  left : Nat
  run : ToolRun

/-- What a call of a tool starts. -/
def Host.start (h : Host) (t : Tool) (r : ToolRequest) (deadline : Nat) : Started :=
  let (id, h) := h.freshId "tcall"
  ⟨id, t, r, deadline - h.micros, t.handler r.input ⟨id, t.name, r.object⟩ (h.callCount t.key)⟩

namespace Started

/-- A handler returned in time, and did not fire the abort latch. -/
def Returned (c : Started) : Prop :=
  c.run.fires = none ∧ c.run.outcome.isSome ∧ (c.run.duration = 0 ∨ c.run.duration * 1000 < c.left)

/-- A trace tells of a call whose handler returned, and that it failed just if the handler did. -/
structure Told (c : Started) (t : ToolCallTrace) : Prop where
  id : t.id = c.id
  tool : t.tool = c.tool.name
  object : t.object = c.request.object
  input : t.input = Bridge.recordedInput c.tool c.request.input
  returned : c.Returned
  failed : t.success = false ↔ ∃ message, c.run.outcome = some (.failed message)

/-- Why a call may be given up: its handler fired the abort latch, or it had not returned when the time was up. -/
def Unfinished (c : Started) : Halt → Prop
  | .aborted _ => c.run.fires.isSome
  | .timedOut => c.run.fires = none ∧ ¬ c.Returned
  | _ => False

end Started

/-! ### One call -/

theorem Started.Returned.told {c : Started} {outcome outcome' : ToolOutcome} (h : c.Returned)
    (hrun : c.run.outcome = some outcome) (hfailed : ∀ message, outcome' = .failed message ↔ outcome = .failed message)
    (started ended : Millis) : c.Told (Bridge.callTrace c.tool c.id c.request started ended outcome') := by
  have hsuccess : (Bridge.callTrace c.tool c.id c.request started ended outcome').success = false ↔
      ∃ message, c.run.outcome = some (.failed message) := by
    simp only [hrun, Option.some.injEq, ← hfailed]
    cases outcome' <;> simp [Bridge.callTrace]
  refine ⟨?_, ?_, ?_, ?_, h, hsuccess⟩ <;> cases outcome' <;> rfl

theorem Host.Watches.calls {h k : Host} (hw : h.Watches k) : k.calls = h.calls := by
  induction hw with
  | start => rfl
  | clock _ _ ih => exact ih
  | slow _ _ _ _ _ _ _ ih => simp [Host.calls_trace, Trace.call?, ih]

theorem Bridge.calls_told (h : Host) (line : Option Nat) (call : ToolCallTrace) (o : ToolOutcome) :
    (told h line call o).calls = h.calls ++ [call] := by
  cases o <;> simp [told, Host.calls_trace, Trace.call?]

/-- A call leaves one trace, or it is given up and leaves none. -/
theorem Bridge.invoke_calls {h h' : Host} {slow : Millis} {deadline : Nat} {t : Tool} {r : ToolRequest}
    {invocation : Invocation} (hi : Bridge.invoke h slow (some deadline) t r = (invocation, h')) :
    (∃ trace, invocation.givenUp? = none ∧ (h.start t r deadline).Told trace ∧ h'.calls = h.calls ++ [trace]) ∨
      ∃ why, invocation.givenUp? = some why ∧ (h.start t r deadline).Unfinished why ∧ h'.calls = h.calls := by
  cases Bridge.invoke_goes hi with
  | aborted watched fires =>
    have fired : (h.start t r deadline).run.fires.isSome := Option.isSome_of_mem fires
    exact .inr ⟨_, rfl, fired, watched.calls⟩
  | timedOut watched unfired late =>
    refine .inr ⟨_, rfl, ⟨unfired, fun ⟨_, outcome, timely⟩ => ?_⟩, watched.calls⟩
    obtain ⟨d, hd, hne, hle⟩ := late outcome
    obtain rfl := Option.some.inj hd
    exact timely.elim hne (Nat.not_lt_of_le hle)
  | @ended k _ o watched unfired outcome timely left =>
    have returned : (h.start t r deadline).Returned := ⟨unfired, Option.isSome_of_mem outcome, timely deadline rfl⟩
    have failed (message : String) : Bridge.returned t (nextId h) r o = .failed message ↔ o = .failed message := by
      cases o <;> simp [Bridge.returned]
    refine .inl ⟨_, rfl, returned.told outcome failed (begun h t).millis k.millis, ?_⟩
    rw [left, calls_told, watched.calls]
    rfl

/-! ### All calls of a script -/

/-- What a deed starts. -/
def Deed.starts (o : Outside) : Deed → List Started
  | call t r deadline => [o.host.start t r deadline]
  | _ => []

/-- Deeds in order, and the calls that they start. -/
inductive Starts (env : Env) : Outside → List Deed → List Started → Outside → Prop
  | none (o : Outside) : Starts env o [] [] o
  | next {o o₁ o₂ : Outside} {ds : List Deed} {cs : List Started} {d : Deed} (before : Starts env o ds cs o₁)
      (unraised : o₁.raised = none) (made : d.Makes env o₁ o₂) : Starts env o (ds ++ [d]) (cs ++ d.starts o₁) o₂

theorem Deed.calls_of_silent {env : Env} {d : Deed} {o o' : Outside} (hd : d.givenUp? env o = none)
    (hs : d.starts o = []) (ht : o'.host.calls = o.host.calls) :
    ∃ traces, d.givenUp? env o = none ∧ List.Forall₂ Started.Told (d.starts o) traces ∧
      o'.host.calls = o.host.calls ++ traces :=
  ⟨[], hd, hs ▸ .nil, by rw [ht, List.append_nil]⟩

/-- What a deed adds to the traces of calls. -/
theorem Deed.calls_of_makes {env : Env} {d : Deed} {o o' : Outside} (h : d.Makes env o o') :
    (∃ traces, d.givenUp? env o = none ∧ List.Forall₂ Started.Told (d.starts o) traces ∧
        o'.host.calls = o.host.calls ++ traces) ∨
      ∃ c why, d.givenUp? env o = some why ∧ d.starts o = [c] ∧ c.Unfinished why ∧
        o'.host.calls = o.host.calls ∧ o'.raised = none := by
  cases d with
  | call t r deadline =>
    obtain ⟨invocation, host, hb, -, -, rfl⟩ := h
    have hgiven : givenUp? env o (call t r deadline) = invocation.givenUp? := congrArg (fun r => r.1.givenUp?) hb
    rcases Bridge.invoke_calls hb with ⟨trace, hnone, htold, htraces⟩ | ⟨why, hwhy, hunfinished, htraces⟩
    · exact .inl ⟨[trace], hgiven.trans hnone, .cons htold .nil, htraces⟩
    · refine .inr ⟨_, why, hgiven.trans hwhy, rfl, hunfinished, htraces, ?_⟩
      cases invocation <;> first | rfl | cases hwhy
  | note t =>
    obtain ⟨ht, rfl⟩ := h
    refine .inl (calls_of_silent rfl rfl ?_)
    cases t <;> first | exact (Host.calls_trace _ _).trans (List.append_nil _) | cases ht
  | giveOut v =>
    obtain rfl := h
    exact .inl (calls_of_silent rfl rfl ((Host.calls_trace _ _).trans (List.append_nil _)))
  | write id key v =>
    obtain ⟨d, d', stored, -, -, rfl⟩ := h
    refine .inl (calls_of_silent rfl rfl ?_)
    cases stored with
    | none => rfl
    | some w => exact (Host.calls_trace _ _).trans (List.append_nil _)
  | raise s =>
    obtain rfl := h
    exact .inl (calls_of_silent rfl rfl ((Host.calls_trace _ _).trans (List.append_nil _)))
  | record id key v =>
    obtain ⟨-, -, -, -, rfl⟩ := h
    exact .inl (calls_of_silent rfl rfl rfl)
  | _ =>
    obtain rfl := h
    exact .inl (calls_of_silent rfl rfl rfl)

/-- What traces tell of calls: of all, or of all but the last, which was given up. -/
def ToldUntil (cs : List Started) (traces : List ToolCallTrace) : Option Halt → Prop
  | none => List.Forall₂ Started.Told cs traces
  | some why => ∃ before c, cs = before ++ [c] ∧ List.Forall₂ Started.Told before traces ∧ c.Unfinished why

/-- Of the calls that deeds start each has its trace, but for one at the end that is given up. -/
theorem Course.starts {env : Env} {o o' : Outside} {ds : List Deed} {g : Option Halt} (h : Course env o ds g o') :
    ∃ cs traces, Starts env o ds cs o' ∧ o'.host.calls = o.host.calls ++ traces ∧
      ToldUntil cs traces g ∧ (g.isSome → o'.raised = .none) := by
  induction h with
  | none => exact ⟨[], [], .none _, (List.append_nil _).symm, .nil, nofun⟩
  | @next o₁ o₂ ds d _ unraised made ih =>
    obtain ⟨cs, traces, hstarts, htraces, htold, -⟩ := ih
    refine ⟨cs ++ d.starts o₁, ?_⟩
    rcases Deed.calls_of_makes made with ⟨more, hnone, hmore, hadded⟩ | ⟨c, why, hwhy, hc, hunfinished, hkept, hr⟩
    · refine ⟨traces ++ more, hstarts.next unraised made, by rw [hadded, htraces, List.append_assoc], ?_⟩
      rw [hnone]
      exact ⟨List.rel_append htold hmore, nofun⟩
    · refine ⟨traces, hstarts.next unraised made, by rw [hkept, htraces], ?_⟩
      rw [hwhy, hc]
      exact ⟨⟨cs, c, rfl, htold, hunfinished⟩, fun _ => hr⟩

/-- The traces of the end of an execution tell of no call. -/
theorem Execution.endTraces_calls (o : Outcome) (started ended : Millis) (lines : Nat) :
    (endTraces o started ended lines).filterMap Trace.call? = [] := by
  cases o with
  | failed e => cases e <;> rfl
  | _ => rfl

namespace Job

theorem execute_calls (j : Job) (host : Host) :
    (j.execute host).2.calls = (j.run host).machine.host.calls := by
  unfold execute Host.calls
  dsimp only
  rw [List.filterMap_append]
  rw [Execution.endTraces_calls, List.append_nil]

/-- A script that calls a tool in which the run is aborted. -/
def stopping : Job where
  compiled := (compile "fetch(1);").toOption.getD (.plain "fetch(1);")
  tools := [{ name := "fetch", handler := fun _ _ _ => { outcome := none, fires := some "stop" } }]

end Job

end ScriptAgent
