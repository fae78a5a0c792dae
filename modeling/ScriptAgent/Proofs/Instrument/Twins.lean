import ScriptAgent.Proofs.Sandbox.Deeds

/-!
# Machines a script cannot tell apart

Two machines are twins if they differ only in what the sandbox notes down: how many steps were made,
the lines reached, the call announced, and traces that tell of no call.  Two computations agree if
they take twins to twins and end alike; a run that hits a limit agrees with every other, since the
two may hit it at different moments.
-/

namespace ScriptAgent

open Script (Value Fault Pos)
open Stateful (bind_apply tryCatch_apply get_apply)

/-! ### Ends -/

/-- A fault without the places of the calls it passed through. -/
def Script.Fault.unplaced : Fault → Fault
  | .inside function closure cause _ => .inside function closure cause.unplaced Pos.none
  | f => f

/-- An interrupt without its place and without the announcement of its call. -/
def Interrupt.core (d : Interrupt) : Interrupt :=
  { d with
    toolCall := d.toolCall.map fun c => { c with assignment := none }
    line := none
    stack := none }

/-- A signal without its place and without the announcement of its call. -/
def Signal.core : Signal → Signal
  | .interrupt d => .interrupt d.core
  | s => s

/-- Stops that differ in places only.  If `mute`, no loop is left with a value. -/
inductive Stop.Twin (mute : Bool) : Stop → Stop → Prop
  | fault {f f' : Fault} (h : f'.unplaced = f.unplaced) (p p' : Pos) : Stop.Twin mute (.fault f p) (.fault f' p')
  | returned (v : Value) : Stop.Twin mute (.returned v) (.returned v)
  | broken {v : Value} (h : mute = true → v = .unit) : Stop.Twin mute (.broken v) (.broken v)
  | continued : Stop.Twin mute .continued .continued

theorem Stop.Twin.fillPos {mute : Bool} {s s' : Stop} (h : s.Twin mute s') (p p' : Pos) :
    (s.fillPos p).Twin mute (s'.fillPos p') := by
  cases h with
  | fault h _ _ => exact .fault h _ _
  | returned v => exact .returned v
  | broken h => exact .broken h
  | continued => exact .continued

/-! ### Machines -/

/-- Hosts that differ in traces that tell of no call. -/
structure Host.Alike (h h' : Host) : Prop where
  micros : h'.micros = h.micros
  made : h'.made = h.made
  counts : h'.counts = h.counts
  abort : h'.abort = h.abort
  calls : h'.calls = h.calls

/-- Traces that tell of the same call, or of none, are left on both hosts. -/
theorem Host.Alike.trace {h h' : Host} (hh : h.Alike h') {t t' : Trace} (ht : t'.call? = t.call?) :
    (h.trace t).Alike (h'.trace t') :=
  { hh with calls := by rw [Host.calls_trace, Host.calls_trace, hh.calls, ht] }

/-- A trace that tells of no call is left on one host. -/
theorem Host.Alike.note {h h' : Host} (hh : h.Alike h') {t : Trace} (ht : t.call? = none) :
    h.Alike (h'.trace t) :=
  { hh with calls := by rw [Host.calls_trace, hh.calls, ht, Option.toList_none, List.append_nil] }

namespace Machine

/-- Machines that differ in notes and in signals only. -/
structure Alike (m m' : Machine) : Prop where
  scope : m'.scope = m.scope
  this : m'.this = m.this
  cells : m'.cells = m.cells
  records : m'.records = m.records
  drafts : m'.drafts = m.drafts
  reads : m'.reads = m.reads
  refusedWrite : m'.refusedWrite = m.refusedWrite
  level : m'.level = m.level
  host : m.host.Alike m'.host

/-- Machines that differ in notes only, before any signal. -/
structure Twin (m m' : Machine) : Prop extends Alike m m' where
  unraised : m.raised = none
  unraised' : m'.raised = none

/-- Machines that differ in notes only, after a signal. -/
structure Parted (m m' : Machine) : Prop extends Alike m m' where
  raised : ∃ s s', m.raised = some s ∧ m'.raised = some s' ∧ s'.core = s.core

/-! What values are taken to hold is told by the values of the host alone. -/

mutual

theorem estimate_congr {m m' : Machine} (h : m'.hostedJson = m.hostedJson) : ∀ v, m'.estimate v = m.estimate v
  | .array items => by simp only [Machine.estimate, estimateAll_congr h items]
  | .map entries => by simp only [Machine.estimate, estimateEntries_congr h entries]
  | .record id => by simp only [Machine.estimate, h]
  | .unit | .bool _ | .int _ | .float _ | .char _ | .str _ | .range .. | .fn .. | .cell _ | .object _
  | .console => by simp only [Machine.estimate]

theorem estimateAll_congr {m m' : Machine} (h : m'.hostedJson = m.hostedJson) :
    ∀ vs, m'.estimateAll vs = m.estimateAll vs
  | [] => rfl
  | v :: vs => by simp only [Machine.estimateAll, estimate_congr h v, estimateAll_congr h vs]

theorem estimateEntries_congr {m m' : Machine} (h : m'.hostedJson = m.hostedJson) :
    ∀ es, m'.estimateEntries es = m.estimateEntries es
  | [] => rfl
  | (k, v) :: es => by simp only [Machine.estimateEntries, estimate_congr h v, estimateEntries_congr h es]

end

namespace Alike

variable {m m' : Machine}

theorem contents (h : Alike m m') (v : Value) : m'.contents v = m.contents v := by
  cases v <;> simp [Machine.contents, h.cells]

theorem hostedJson (h : Alike m m') : m'.hostedJson = m.hostedJson := by
  funext v
  cases v <;> simp [Machine.hostedJson, h.records, h.drafts]

theorem toJson (h : Alike m m') (backend : Backend) (v : Value) : m'.toJson backend v = m.toJson backend v := by
  unfold Machine.toJson
  rw [h.hostedJson]

theorem text (h : Alike m m') (backend : Backend) : m'.text backend = m.text backend := by
  funext v
  unfold Machine.text
  simp only [h.hostedJson, h.toJson]

theorem scopeSize (h : Alike m m') : m'.scopeSize = m.scopeSize := by
  simp only [Machine.scopeSize, h.scope, h.contents, estimate_congr h.hostedJson]

theorem find? (h : Alike m m') (name : String) : m'.find? name = m.find? name := by
  simp only [Machine.find?, h.scope]

end Alike

/-- Both machines changed in the same way. -/
theorem Twin.move {m m' n n' : Machine} (h : Twin m m') (ha : Alike n n') (hr : n.raised = m.raised)
    (hr' : n'.raised = m'.raised) : Twin n n' :=
  { ha with unraised := hr.trans h.unraised, unraised' := hr'.trans h.unraised' }

/-- Both machines changed in the same way. -/
theorem Parted.move {m m' n n' : Machine} (h : Parted m m') (ha : Alike n n') (hr : n.raised = m.raised)
    (hr' : n'.raised = m'.raised) : Parted n n' := by
  obtain ⟨s, s', hs, hs', hc⟩ := h.raised
  exact { ha with raised := ⟨s, s', hr.trans hs, hr'.trans hs', hc⟩ }

end Machine

end ScriptAgent
