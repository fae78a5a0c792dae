import ScriptAgent.Proofs.Instrument.Agreement
import ScriptAgent.Proofs.Sandbox.Calls

/-!
# Ends that agree

Runs whose statements end alike are reported alike, and so are executions: the same outcome up to
places and announcements, the same variables, the same mutations and the same calls of tools.  The
value at the end may be lost; then the empty one is reported in its place.
-/

namespace ScriptAgent

open Script (Value Fault Pos)

/-! ### Failures -/

theorem Script.Fault.root_unplaced (f : Fault) (p q : Pos) : (f.unplaced.root q).1 = (f.root p).1 := by
  induction f generalizing p q with
  | inside function closure cause at_ ih => exact ih _ _
  | _ => rfl

/-- Faults that differ in places only have one cause. -/
theorem Script.Fault.root_eq {f f' : Fault} (h : f'.unplaced = f.unplaced) (p p' : Pos) :
    (f'.root p').1 = (f.root p).1 := by
  rw [← f'.root_unplaced p' p, h, f.root_unplaced p p]

/-- Failures that differ in places only. -/
structure Failure.Alike (f f' : Failure) : Prop where
  kind : f'.kind = f.kind
  message : f'.message = f.message

theorem Machine.Alike.failure {mute : Bool} {m m' : Machine} (hm : m.Alike m') {s s' : Stop} (h : s.Twin mute s') :
    (m.failure s).Alike (m'.failure s') := by
  cases h with
  | @fault f f' h p p' =>
    have hroot := Script.Fault.root_eq h p p'
    unfold Machine.failure
    dsimp only
    generalize f.root p = r at hroot ⊢
    generalize f'.root p' = r' at hroot ⊢
    obtain ⟨cause, q⟩ := r
    obtain ⟨_, q'⟩ := r'
    obtain rfl := hroot
    exact ⟨by simp only [Machine.failureAt, hm.refusedWrite], rfl⟩
  | returned | broken | continued => exact ⟨rfl, rfl⟩

/-! ### Reports -/

/-- Endings that differ in places only, or in the value if it is lost. -/
inductive Ending.Alike : Bool → Ending → Ending → Prop
  | completed (v : Json) : Ending.Alike false (.completed v) (.completed v)
  | lost (v : Json) : Ending.Alike true (.completed v) (.completed .null)
  | suspended {s s' : Signal} (h : s'.core = s.core) : Ending.Alike false (.suspended s) (.suspended s')
  | failed {f f' : Failure} (h : f.Alike f') : Ending.Alike false (.failed f) (.failed f')

/-- Reports that differ in places and notes only, or in the value if it is lost. -/
structure Report.Alike (lost : Bool) (r r' : Report) : Prop where
  ending : r.ending.Alike lost r'.ending
  «variables» : r'.variables = r.variables
  drafts : r'.machine.drafts = r.machine.drafts
  calls : r'.machine.host.calls = r.machine.host.calls

/-- What is reported when the statements of a script have ended. -/
def Job.report (j : Job) (r : Except Stop Value × Machine) : Report where
  ending := match r.2.raised with
    | some s => .suspended s
    | none => r.2.ending j.backend r.1
  «variables» := r.2.variables j.backend j.hidden
  machine := { r.2 with host := { r.2.host with micros := r.2.micros } }

/-- A value, or the empty one in its place. -/
def settled (lost : Bool) (v : Value) : Value :=
  if lost then .unit else v

theorem Machine.Alike.variables {m m' : Machine} (h : m.Alike m') (backend : Backend) (hidden : List String) :
    m'.variables backend hidden = m.variables backend hidden := by
  have hjson : m'.toJson backend = m.toJson backend := funext (h.toJson backend)
  have hcontents : m'.contents = m.contents := funext h.contents
  unfold Machine.variables
  rw [h.scope, hjson, hcontents]

/-- The JSON form of the empty value. -/
theorem Machine.toJson_unit (m : Machine) (backend : Backend) : m.toJson backend .unit = .null := by
  cases backend <;> rfl

/-- Statements that end alike are reported alike; a value is lost only where they come to their end. -/
theorem Agree.report {mute lost : Bool} {r r' : Except Stop Value × Machine}
    (h : Agree mute Machine.Twin Machine.Parted (fun a b => b = settled lost a) r r')
    (hr : unhindered r.1 = true) (hr' : unhindered r'.1 = true) (j : Job) (c : Compiled) :
    (j.report r).Alike (lost && r.1.isOk) (Job.report { j with compiled := c } r') := by
  have left_on {m m' : Machine} (hm : m.Alike m') {x x' : Except Stop Value} {b : Bool}
      (he : (j.report (x, m)).ending.Alike b (Job.report { j with compiled := c } (x', m')).ending) :
      (j.report (x, m)).Alike b (Job.report { j with compiled := c } (x', m')) :=
    ⟨he, hm.variables j.backend j.hidden, hm.drafts, hm.host.calls⟩
  have ended {m m' : Machine} (hm : m.Twin m') (x x' : Except Stop Value) {b : Bool}
      (he : (m.ending j.backend x).Alike b (m'.ending j.backend x')) :
      (j.report (x, m)).Alike b (Job.report { j with compiled := c } (x', m')) := by
    refine left_on hm.toAlike ?_
    simp only [Job.report, hm.unraised, hm.unraised']
    exact he
  have kept (s : Stop) : (lost && (Except.error s : Except Stop Value).isOk) = false := Bool.and_false lost
  -- only statements that come to their end may lose their value
  cases h with
  | left hs => simp [unhindered, hs] at hr
  | right hs => simp [unhindered, hs] at hr'
  | @ok a _ _ _ h hm =>
    subst h
    refine ended hm _ _ ?_
    simp only [Machine.ending, Except.isOk, Except.toBool, Bool.and_true]
    cases lost with
    | true =>
      rw [settled, if_pos rfl, Machine.toJson_unit]
      exact .lost _
    | false =>
      rw [settled, if_neg Bool.false_ne_true, hm.toJson]
      exact .completed _
  | stop h hm =>
    rw [kept]
    refine ended hm _ _ ?_
    have hfailure := hm.toAlike.failure h
    cases h with
    | returned v =>
      simp only [Machine.ending, hm.toJson]
      exact .completed _
    | _ => exact .failed hfailure
  | signal p p' hm =>
    rw [kept]
    obtain ⟨s, s', hs, hs', hcore⟩ := hm.raised
    refine left_on hm.toAlike ?_
    simp only [Job.report, hs, hs']
    exact .suspended hcore

/-- A run is what is reported of the end of its statements. -/
theorem Job.run_of_parse (j : Job) (host : Host) {p : Script.Program}
    (h : Script.parse j.compiled.code (j.backend.parseLimits (j.backend.sizeLimits j.limits.memory)) = .ok p) :
    j.run host = j.report (runAll (evaluate (j.env host p.functions) nestingFuel) p.body (j.machine host)) := by
  unfold Job.run
  rw [h]
  rfl

/-- Reports that both agree with a third agree; what the second loses is lost. -/
theorem Report.Alike.trans {lost : Bool} {r r₁ r₂ : Report} (h₁ : r.Alike false r₁) (h₂ : r.Alike lost r₂) :
    r₁.Alike lost r₂ := by
  refine ⟨?_, h₂.variables.trans h₁.variables.symm, h₂.drafts.trans h₁.drafts.symm, h₂.calls.trans h₁.calls.symm⟩
  obtain ⟨e, _, _⟩ := r
  obtain ⟨e₁, _, _⟩ := r₁
  obtain ⟨e₂, _, _⟩ := r₂
  have he₁ : e.Alike false e₁ := h₁.ending
  have he₂ : e.Alike lost e₂ := h₂.ending
  show e₁.Alike lost e₂
  cases he₁ with
  | completed v =>
    exact he₂
  | suspended hs =>
    cases he₂ with
    | suspended hs' => exact .suspended (hs'.trans hs.symm)
  | failed hf =>
    cases he₂ with
    | failed hf' => exact .failed ⟨hf'.kind.trans hf.kind.symm, hf'.message.trans hf.message.symm⟩

/-! ### Executions -/

/-- Outcomes that differ in places and announcements only, or in the value if it is lost. -/
inductive Outcome.Alike : Bool → Outcome → Outcome → Prop
  | completed (v : Json) : Outcome.Alike false (.completed v) (.completed v)
  | lost (v : Json) : Outcome.Alike true (.completed v) (.completed .null)
  | suspended {s s' : Signal} (h : s'.core = s.core) : Outcome.Alike false (.suspended s) (.suspended s')
  | failed {e e' : ExecutionError} (hk : e'.kind = e.kind) (hm : e'.message = e.message) :
    Outcome.Alike false (.failed e) (.failed e')

/-- Executions with the same outcome up to places and announcements, the same variables, mutations and
calls of tools; or with the empty value in place of a value that is lost. -/
structure Execution.Alike (lost : Bool) (x x' : Execution × Host) : Prop where
  outcome : x.1.outcome.Alike lost x'.1.outcome
  «variables» : x'.1.variables = x.1.variables
  mutations : x'.1.mutations = x.1.mutations
  calls : x'.2.calls = x.2.calls

/-- What is needed to resume does not depend on places. -/
theorem Execution.annotate_core {s s' : Signal} (h : s'.core = s.core) (vars : Dict Json) (line line' : Option Nat)
    (source source' : String) :
    (annotate s' vars line' source').core = (annotate s vars line source).core := by
  cases s with
  | interrupt d =>
    cases s' with
    | interrupt d' =>
      have hd : d'.core = d.core := Signal.interrupt.inj h
      have hreason : d'.reason = d.reason := (congrArg Interrupt.reason hd :)
      have hcall := congrArg Interrupt.toolCall hd
      have hvars : d'.variables = d.variables := (congrArg Interrupt.variables hd :)
      simp only [Interrupt.core] at hcall
      simp only [annotate, Signal.core, Interrupt.core, hreason, hcall, hvars]
    | _ => cases h
  | _ =>
    cases s' with
    | interrupt d' => cases h
    | _ => exact h

/-- What ended an execution is told by the kind of failure and its message alone. -/
theorem Execution.errorOf_alike {f f' : Failure} (h : f.Alike f') (m m' : Machine) (j : Job) (c : Compiled) :
    (errorOf f' m' { j with compiled := c }).kind = (errorOf f m j).kind ∧
      (errorOf f' m' { j with compiled := c }).message = (errorOf f m j).message := by
  obtain ⟨hkind, hmessage⟩ := h
  unfold errorOf
  rw [hkind, hmessage]
  cases f.kind <;> exact ⟨rfl, rfl⟩

theorem Execution.wasStopped_alike {lost : Bool} {o o' : Outcome} (h : o.Alike lost o') :
    wasStopped o' = wasStopped o := by
  have told (e : ExecutionError) : wasStopped (.failed e) = (e.kind == "timeout" || e.kind == "aborted") := by
    cases e <;> rfl
  cases h with
  | failed hk hm => rw [told, told, hk]
  | _ => rfl

/-- Runs that are reported alike are executed alike. -/
theorem Report.Alike.execute {lost : Bool} {j : Job} {c c' : Compiled} {host : Host}
    (h : (Job.run { j with compiled := c } host).Alike lost (Job.run { j with compiled := c' } host)) :
    Execution.Alike lost (Job.execute { j with compiled := c } host) (Job.execute { j with compiled := c' } host) := by
  obtain ⟨hending, hvars, hdrafts, hcalls⟩ := h
  unfold Job.execute
  dsimp only
  generalize Job.run { j with compiled := c } host = r at hending hvars hdrafts hcalls ⊢
  generalize Job.run { j with compiled := c' } host = r' at hending hvars hdrafts hcalls ⊢
  obtain ⟨e, vars, m⟩ := r
  obtain ⟨e', vars', m'⟩ := r'
  obtain rfl : vars' = vars := hvars
  have hmutations : m'.drafts.toList.flatMap (·.mutations) = m.drafts.toList.flatMap (·.mutations) := by
    rw [show m'.drafts = m.drafts from hdrafts]
  have htold (h h' : Host) (t t' : List Trace) (hh : h'.calls = h.calls) (ht : t.filterMap Trace.call? = [])
      (ht' : t'.filterMap Trace.call? = []) :
      Host.calls { h' with traces := h'.traces ++ t' } = Host.calls { h with traces := h.traces ++ t } := by
    unfold Host.calls at *
    rw [List.filterMap_append, List.filterMap_append, ht, ht', hh]
  dsimp only at hending
  -- traces at the end are of the time and the lines only, so the calls are those of the runs
  have conclude (o o' : Outcome) (ho : o.Alike lost o') : Execution.Alike lost
      ({ outcome := o
         «variables» := if j.backend == .isolated && Execution.wasStopped o then [] else vars'
         lineHits := m.lineHits
         mutations := m.drafts.toList.flatMap (·.mutations) },
        { m.host with traces := m.host.traces ++
            Execution.endTraces o host.millis m.host.millis m.lineHits.length })
      ({ outcome := o'
         «variables» := if j.backend == .isolated && Execution.wasStopped o' then [] else vars'
         lineHits := m'.lineHits
         mutations := m'.drafts.toList.flatMap (·.mutations) },
        { m'.host with traces := m'.host.traces ++
            Execution.endTraces o' host.millis m'.host.millis m'.lineHits.length }) := by
    refine ⟨ho, ?_, hmutations, ?_⟩
    · dsimp only
      rw [Execution.wasStopped_alike ho]
    · exact htold _ _ _ _ hcalls (Execution.endTraces_calls _ _ _ _) (Execution.endTraces_calls _ _ _ _)
  cases hending with
  | completed v => exact conclude _ _ (.completed v)
  | lost v => exact conclude _ _ (.lost v)
  | suspended hs => exact conclude _ _ (.suspended (Execution.annotate_core hs _ _ _ _ _))
  | failed hf =>
    obtain ⟨hk, hm⟩ := Execution.errorOf_alike hf m m' { j with compiled := c } c'
    exact conclude _ _ (.failed hk hm)

end ScriptAgent
