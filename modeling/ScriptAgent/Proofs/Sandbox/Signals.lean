import ScriptAgent.Proofs.Sandbox.RunConduct
import ScriptAgent.Proofs.Tool.Invocation

/-!
# A raised signal ends the script

Traces tell which signals were raised.  A deed adds the trace of a signal exactly if it raises it, and
then as its last trace; no deed follows it.  So a run either raises no signal, or its last deed raises
the one signal that it ends with.
-/

namespace ScriptAgent

open Script (Value)

/-- Traces that record no signal. -/
def Quiet (ts : List Trace) : Prop :=
  ts.filterMap Trace.signal? = []

namespace Quiet

variable {ts ts' : List Trace}

theorem nil : Quiet [] := rfl

theorem append (h : Quiet ts) (h' : Quiet ts') : Quiet (ts ++ ts') := by
  unfold Quiet at *
  rw [List.filterMap_append, h, h', List.append_nil]

theorem one {t : Trace} (h : t.signal? = none) : Quiet [t] := by
  simp [Quiet, h]

end Quiet

/-- The trace that the raising of a signal leaves, if one was raised. -/
def raisedTrace (now : Millis) (line : Option Nat) (s : Option Signal) : List Trace :=
  (s.map (Trace.signal now line)).toList

theorem Host.Watches.quiet {h k : Host} (hw : h.Watches k) : ∃ quiet, Quiet quiet ∧ k.traces = h.traces ++ quiet := by
  induction hw with
  | start => exact ⟨[], .nil, (List.append_nil _).symm⟩
  | clock _ _ ih => exact ih
  | @slow k _ now id tool object input duration ih =>
    obtain ⟨quiet, hquiet, htraces⟩ := ih
    refine ⟨_, hquiet.append (.one (t := .toolSlow now id tool object input duration) rfl), ?_⟩
    rw [← List.append_assoc, ← htraces]
    rfl

theorem Bridge.traces_told (h : Host) (line : Option Nat) (call : ToolCallTrace) (o : ToolOutcome) :
    (told h line call o).traces =
      h.traces ++ [.toolCall call] ++ raisedTrace (told h line call o).millis line (Invocation.ended o).signal? := by
  cases o with
  | signal s => rfl
  | _ => exact (List.append_nil _).symm

/-- A call leaves the trace of a signal only if it raises that, and leaves it last. -/
theorem Bridge.invoke_traces {h h' : Host} {slow : Millis} {deadline : Option Nat} {t : Tool} {r : ToolRequest}
    {invocation : Invocation} (hi : Bridge.invoke h slow deadline t r = (invocation, h')) :
    ∃ quiet, Quiet quiet ∧
      h'.traces = h.traces ++ quiet ++ raisedTrace h'.millis r.line invocation.signal? := by
  cases Bridge.invoke_goes hi with
  | aborted watched =>
    obtain ⟨quiet, hquiet, htraces⟩ := watched.quiet
    exact ⟨quiet, hquiet, htraces.trans (List.append_nil _).symm⟩
  | timedOut watched =>
    obtain ⟨quiet, hquiet, htraces⟩ := watched.quiet
    exact ⟨quiet, hquiet, htraces.trans (List.append_nil _).symm⟩
  | @ended k _ o watched _ _ _ left =>
    obtain ⟨quiet, hquiet, htraces⟩ := watched.quiet
    generalize callTrace .. = call at left
    refine ⟨_, hquiet.append (.one (t := .toolCall call) rfl), ?_⟩
    rw [left, traces_told, htraces, ← List.append_assoc]
    rfl

namespace Deed

/-- The signal that a deed raises. -/
def signal? (env : Env) (o : Outside) : Deed → Option Signal
  | call t r deadline => (Bridge.invoke o.host env.slowTool (some deadline) t r).1.signal?
  | raise s => some s
  | _ => none

variable {env : Env} {o o' : Outside} {d : Deed}

theorem raised_of_makes (h : d.Makes env o o') (ho : o.raised = none) : o'.raised = d.signal? env o := by
  cases d with
  | note t =>
    obtain ⟨-, rfl⟩ := h
    exact ho
  | record id key v =>
    obtain ⟨-, -, -, -, rfl⟩ := h
    exact ho
  | write id key v =>
    obtain ⟨-, -, -, -, -, rfl⟩ := h
    exact ho
  | call t r deadline =>
    obtain ⟨invocation, host, hb, -, -, rfl⟩ := h
    simp [signal?, hb]
  | raise s =>
    obtain rfl := h
    rfl
  | _ =>
    obtain rfl := h
    exact ho

/-- A deed leaves the trace of the signal that it raises, if it does, and leaves it last. -/
theorem traces_of_makes (h : d.Makes env o o') :
    ∃ quiet now line, Quiet quiet ∧
      o'.host.traces = o.host.traces ++ quiet ++ raisedTrace now line (d.signal? env o) := by
  cases d with
  | note t =>
    obtain ⟨ht, rfl⟩ := h
    refine ⟨[t], 0, none, .one ?_, (List.append_nil _).symm⟩
    cases t <;> first | rfl | cases ht
  | giveOut v =>
    obtain rfl := h
    exact ⟨[_], 0, none, .one (t := .yield o.host.millis v) rfl, (List.append_nil _).symm⟩
  | write id key v =>
    obtain ⟨d, d', stored, -, -, rfl⟩ := h
    cases stored with
    | none => exact ⟨[], 0, none, .nil, by simp [raisedTrace, signal?]⟩
    | some w =>
      exact ⟨[_], 0, none, .one (t := .property o.host.millis d.name key w) rfl, (List.append_nil _).symm⟩
  | call t r deadline =>
    obtain ⟨invocation, host, hb, -, -, rfl⟩ := h
    obtain ⟨quiet, hq, ht⟩ := Bridge.invoke_traces hb
    exact ⟨quiet, host.millis, r.line, hq, by simpa [signal?, hb] using ht⟩
  | raise s =>
    obtain rfl := h
    exact ⟨[], o.host.millis, o.line, .nil, by simp [Host.trace, raisedTrace, signal?]⟩
  | record id key v =>
    obtain ⟨-, -, -, -, rfl⟩ := h
    exact ⟨[], 0, none, .nil, by simp [raisedTrace, signal?]⟩
  | _ =>
    obtain rfl := h
    exact ⟨[], 0, none, .nil, by simp [raisedTrace, signal?]⟩

end Deed

namespace Conduct

variable {env : Env} {o o₁ o₂ : Outside} {ds : List Deed}

/-- While no signal is raised, no trace records one. -/
theorem quiet_of_unraised (h : Conduct env o ds o₁) (ho : o₁.raised = Option.none) :
    ∃ quiet, Quiet quiet ∧ o₁.host.traces = o.host.traces ++ quiet := by
  induction h with
  | none => exact ⟨[], .nil, (List.append_nil _).symm⟩
  | next before unraised made ih =>
    obtain ⟨quiet, hq, hts⟩ := ih unraised
    obtain ⟨more, now, line, hm, ht⟩ := Deed.traces_of_makes made
    rw [← Deed.raised_of_makes made unraised, ho] at ht
    exact ⟨quiet ++ more, hq.append hm, by rw [ht, hts]; simp [raisedTrace]⟩

/-- The last deed raises a signal; while the others were made none was raised. -/
structure EndsWith (env : Env) (o : Outside) (ds : List Deed) (o' : Outside) (s : Signal) : Prop where
  last : ∃ before d o₁, ds = before ++ [d] ∧ Conduct env o before o₁ ∧ o₁.raised = Option.none ∧
    d.Makes env o₁ o' ∧ d.signal? env o₁ = some s
  /-- Its trace is the last one, and the only one of a signal. -/
  traced : ∃ quiet now line, Quiet quiet ∧ o'.host.traces = o.host.traces ++ quiet ++ [.signal now line s]

theorem endsWith_of_raised {s : Signal} (h : Conduct env o ds o₁) (hn : o.raised = Option.none)
    (ho : o₁.raised = some s) : EndsWith env o ds o₁ s := by
  cases h with
  | none => rw [hn] at ho; cases ho
  | next before unraised made =>
    have hs := (Deed.raised_of_makes made unraised).symm.trans ho
    obtain ⟨quiet, hq, hts⟩ := before.quiet_of_unraised unraised
    obtain ⟨more, now, line, hm, ht⟩ := Deed.traces_of_makes made
    refine ⟨⟨_, _, _, rfl, before, unraised, made, hs⟩, quiet ++ more, now, line, hq.append hm, ?_⟩
    rw [ht, hts, hs]
    simp only [List.append_assoc]
    rfl

end Conduct

namespace Job

/-- Whatever a script does, a run either raises no signal and is not suspended, or the last thing that
the script does to the outside raises the signal with which the run is suspended. -/
theorem run_ends_with_signal (j : Job) (host : Host) :
    ∃ functions ds o, Conduct (j.env host functions) (j.machine host).outside ds o ∧
      (j.run host).machine.outside = o.atTime (j.run host).machine.host.micros ∧
      ((∃ s, Conduct.EndsWith (j.env host functions) (j.machine host).outside ds o s ∧
          (j.run host).ending = .suspended s) ∨
        o.raised = none ∧ (∀ s, (j.run host).ending ≠ .suspended s) ∧
          ∃ quiet, Quiet quiet ∧ o.host.traces = host.traces ++ quiet) := by
  obtain ⟨functions, ds, o, hds, ho, hs⟩ := j.run_conduct host
  refine ⟨functions, ds, o, hds, ho, ?_⟩
  cases hr : o.raised with
  | some s => exact .inl ⟨s, hds.endsWith_of_raised rfl hr, (hs s).mpr hr⟩
  | none =>
    refine .inr ⟨rfl, fun s h => ?_, hds.quiet_of_unraised hr⟩
    rw [hs, hr] at h
    cases h

end Job

end ScriptAgent
