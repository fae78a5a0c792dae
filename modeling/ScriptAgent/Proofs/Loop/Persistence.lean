import ScriptAgent.Proofs.Json.Records
import ScriptAgent.Proofs.Loop.Result

/-!
# Keeping a suspended run

A snapshot that is written and read back is the snapshot again, except that a schema of its call that
was null is absent.  Nothing that settling a snapshot or going on from it looks at depends on the
schemas: they are only handed on to the record of what the run goes on from.
-/

namespace ScriptAgent

open Json (get?_recordOf get?_object required_of_get? withDefault_of_get? optional_str optional_of_get?
  optional_self_of_get? optional_any_of_get? optional_word32 word32?_nat word64?_nat dict?_any)

/-! ### What is read back -/

/-- The line of an assignment fits the word it is kept in. -/
def Assignment.Fits (a : Assignment) : Prop :=
  a.line < UInt32.size

/-- The numbers of an interrupt fit the words they are kept in. -/
structure Interrupt.Fits (d : Interrupt) : Prop where
  assignment : ∀ c ∈ d.toolCall, ∀ a ∈ c.assignment, a.Fits
  line : ∀ n ∈ d.line, n < UInt32.size

/-- The numbers of a snapshot fit the words they are kept in. -/
structure Snapshot.Fits (s : Snapshot) : Prop where
  signal : s.signal.Fits
  createdAt : s.createdAt < UInt64.size

/-- A call as it is read back: a schema that is null is absent. -/
def ToolCallInfo.stored (c : ToolCallInfo) : ToolCallInfo :=
  { c with
    inputSchema := c.inputSchema.filter (!·.isNull)
    outputSchema := c.outputSchema.filter (!·.isNull) }

/-- An interrupt as it is read back. -/
def Interrupt.stored (d : Interrupt) : Interrupt :=
  { d with toolCall := d.toolCall.map (·.stored) }

/-- A snapshot as it is read back. -/
def Snapshot.stored (s : Snapshot) : Snapshot :=
  { s with signal := s.signal.stored }

/-- A correlation with a call that was read back. -/
def Correlation.stored (d : Correlation) : Correlation :=
  { d with toolCall := d.toolCall.map (·.stored) }

theorem Assignment.ofJson?_toJson {a : Assignment} (h : a.Fits) : Assignment.ofJson? a.toJson = some a := by
  have entry (key : String) := get?_object ([("variable", .str a.target), ("callee", .str a.callee),
    ("line", .nat a.line)]) (by simp) key
  unfold ofJson? toJson
  rw [required_of_get? (entry "variable"), required_of_get? (entry "callee"), required_of_get? (entry "line"),
    word32?_nat h]
  rfl

theorem ToolCallInfo.ofJson?_toJson {c : ToolCallInfo} (h : ∀ a ∈ c.assignment, a.Fits) :
    ToolCallInfo.ofJson? c.toJson = some c.stored := by
  have entry (key : String) := get?_recordOf ([("id", some (.str c.id)), ("name", some (.str c.name)),
    ("object", c.object.map .str), ("input_schema", c.inputSchema), ("output_schema", c.outputSchema),
    ("input", some c.input), ("assignment", c.assignment.map Assignment.toJson)]) (by simp) key
  have hassignment := optional_self_of_get? Assignment.toJson (entry "assignment")
    fun a ha => ⟨nofun, Assignment.ofJson?_toJson (h a ha)⟩
  unfold ofJson? toJson
  rw [required_of_get? (entry "id"), required_of_get? (entry "name"), optional_str (entry "object"),
    optional_any_of_get? (entry "input_schema"), optional_any_of_get? (entry "output_schema"),
    withDefault_of_get? (entry "input"), hassignment]
  rfl

theorem Interrupt.ofJson?_toJson {d : Interrupt} (h : d.Fits) : Interrupt.ofJson? d.toJson = some d.stored := by
  have entry (key : String) := get?_recordOf (d.entries) (by simp [entries]) key
  have hcall := optional_of_get? (f := ToolCallInfo.stored) ToolCallInfo.toJson (entry "tool_call")
    fun c hc => ⟨nofun, ToolCallInfo.ofJson?_toJson (h.assignment c hc)⟩
  unfold ofJson? toJson
  rw [required_of_get? (entry "reason"), hcall, withDefault_of_get? (entry "variables"), dict?_any,
    optional_word32 (entry "line") h.line, optional_str (entry "stack")]
  rfl

theorem SnapshotStatus.ofJson?_toJson (st : SnapshotStatus) : SnapshotStatus.ofJson? st.toJson = some st := by
  cases st with
  | pending =>
    have entry (key : String) := get?_object ([("status", .str "pending")]) (by simp) key
    unfold ofJson? toJson
    dsimp only
    rw [required_of_get? (entry "status")]
    rfl
  | resolved value =>
    have entry (key : String) :=
      get?_object ([("status", .str "resolved"), ("value", value)]) (by simp) key
    unfold ofJson? toJson
    dsimp only
    rw [required_of_get? (entry "status"), required_of_get? (entry "value")]
    rfl
  | rejected error =>
    have entry (key : String) :=
      get?_object ([("status", .str "rejected"), ("error", .str error)]) (by simp) key
    unfold ofJson? toJson
    dsimp only
    rw [required_of_get? (entry "status"), required_of_get? (entry "error")]
    rfl

theorem Snapshot.ofJson?_toJson {s : Snapshot} (h : s.Fits) : Snapshot.ofJson? s.toJson = some s.stored := by
  have entry (key : String) := get?_recordOf ([("id", some (.str s.id)), ("reason", some (.str s.reason)),
    ("signal", some s.signal.toJson), ("variables", some (.obj s.variables)), ("stack", some (.str s.stack)),
    ("code_fingerprint", s.fingerprint.map .str), ("status", some s.status.toJson),
    ("created_at", some (.nat s.createdAt))]) (by simp) key
  unfold ofJson? toJson
  rw [required_of_get? (entry "id"), required_of_get? (entry "reason"), required_of_get? (entry "signal"),
    Interrupt.ofJson?_toJson h.signal, withDefault_of_get? (entry "variables"), dict?_any,
    withDefault_of_get? (entry "stack"), optional_str (entry "code_fingerprint"), required_of_get? (entry "status"),
    SnapshotStatus.ofJson?_toJson, required_of_get? (entry "created_at"), word64?_nat h.createdAt]
  rfl

/-! ### Going on from it -/

namespace Snapshot

@[simp] theorem status_stored (s : Snapshot) : s.stored.status = s.status := rfl

@[simp] theorem variables_stored (s : Snapshot) : s.stored.variables = s.variables := rfl

@[simp] theorem toolCall_stored (s : Snapshot) : s.stored.toolCall = s.toolCall.map (·.stored) := rfl

/-- A snapshot that was read back is settled as before, or refused with the same error. -/
theorem stored_settle (s : Snapshot) (status : SnapshotStatus) :
    s.stored.settle status = (s.settle status).map (·.stored) := by
  unfold settle
  rw [show s.stored.isSettled = s.isSettled from rfl]
  split <;> rfl

/-- What a call assigns to does not depend on its schemas. -/
theorem assignment_stored (s : Snapshot) :
    s.stored.toolCall.bind (·.assignment) = s.toolCall.bind (·.assignment) := by
  rw [s.toolCall_stored]
  cases s.toolCall <;> rfl

theorem callText_stored (s : Snapshot) : Feedback.callText s.stored = Feedback.callText s := by
  unfold Feedback.callText
  rw [s.toolCall_stored]
  cases s.toolCall <;> rfl

theorem correlation_stored (s : Snapshot) : s.stored.correlation = s.correlation.stored := rfl

end Snapshot

namespace Agent

theorem resumedVariables_stored (c : Context) (s : Snapshot) : resumedVariables c s.stored = resumedVariables c s := by
  unfold resumedVariables
  rw [s.status_stored, s.variables_stored, s.assignment_stored]

/-- What the model is told of a settled snapshot does not depend on the schemas of its call. -/
theorem resumeMessage?_stored (c : Context) (s : Snapshot) : resumeMessage? c s.stored = resumeMessage? c s := by
  have hlines : Feedback.executedLines s.stored = Feedback.executedLines s := rfl
  unfold resumeMessage? Feedback.resolved Feedback.rejected
  rw [s.status_stored, s.callText_stored, hlines]

/-- Taking up a snapshot that was read back leaves the same context, with the same message for the model,
or fails with the same error; only the correlation tells of the call as it was read back. -/
theorem applySnapshot_stored (c : Context) (s : Snapshot) :
    (∃ c₁ e, applySnapshot { c with resume := some s } = (c₁, some e) ∧
      applySnapshot { c with resume := some s.stored } = (c₁, some e)) ∨
    ∃ c₁ : Context, c₁.correlation = some (.correlation s.correlation) ∧
      applySnapshot { c with resume := some s } = (c₁, none) ∧
      applySnapshot { c with resume := some s.stored } =
        ({ c₁ with correlation := some (.correlation s.correlation.stored) }, none) := by
  unfold applySnapshot
  dsimp only
  rw [resumedVariables_stored, resumeMessage?_stored, Snapshot.correlation_stored]
  cases resumeMessage? (resumedVariables { c with resume := none } s) s with
  | none => exact .inl ⟨_, _, rfl, rfl⟩
  | some message => exact .inr ⟨_, rfl, rfl, rfl⟩

/-- Two runs that start alike: they are refused with the same error, or both take their turns, in the same
world, on contexts that differ in nothing but the call that the first iteration records. -/
inductive StartAlike (turn : Turns) : RunResult → RunResult → Prop
  | invalid (c : Context) (w : World) (e : RunError) (s : Snapshot) :
    StartAlike turn ⟨.failed e, { c with resume := some s }, w⟩ ⟨.failed e, { c with resume := some s.stored }, w⟩
  | refused (c : Context) (w : World) (e : RunError) : StartAlike turn ⟨.failed e, c, w⟩ ⟨.failed e, c, w⟩
  | turns (c : Context) (w : World) (d : Correlation) (recorded : c.correlation = some (.correlation d)) :
    StartAlike turn (takeTurns turn (c.options.loopLimit - c.attempt) c w)
      (takeTurns turn (c.options.loopLimit - c.attempt) { c with correlation := some (.correlation d.stored) } w)

/-- Whatever a snapshot was settled with, it makes no difference whether it was kept in between. -/
theorem goOn_stored (r : Agent) (c : Context) (w : World) (settled : Except RunError Snapshot) :
    StartAlike r.advance (r.goOn c w settled) (r.goOn c w (settled.map (·.stored))) := by
  cases settled with
  | error e => exact .refused c w e
  | ok s =>
    show StartAlike _ (r.run { c with resume := some s } w) (r.run { c with resume := some s.stored } w)
    unfold run
    generalize r.advance = turn
    rw [show ({ c with resume := some s.stored } : Context).validate = c.validate from rfl,
      show ({ c with resume := some s } : Context).validate = c.validate from rfl]
    cases c.validate with
    | error e => exact .invalid c w e s
    | ok u =>
      rcases applySnapshot_stored c s with ⟨c₁, e, hs, hs'⟩ | ⟨c₁, hd, hs, hs'⟩
      · rw [hs, hs']
        exact .refused c₁ w e
      · rw [hs, hs']
        exact .turns c₁ w _ hd

/-- Going on from one snapshot or the other leaves the same variables, tells the model the same, and fails
alike. -/
def ResumeAlike (s s' : Snapshot) : Prop :=
  ∀ c : Context, (applySnapshot { c with resume := some s' }).1.variables =
      (applySnapshot { c with resume := some s }).1.variables ∧
    (applySnapshot { c with resume := some s' }).1.pending = (applySnapshot { c with resume := some s }).1.pending ∧
    (applySnapshot { c with resume := some s' }).2 = (applySnapshot { c with resume := some s }).2

theorem resumeAlike_stored (s : Snapshot) : ResumeAlike s s.stored := by
  intro c
  rcases applySnapshot_stored c s with ⟨c₁, e, hs, hs'⟩ | ⟨c₁, -, hs, hs'⟩ <;> rw [hs, hs'] <;> exact ⟨rfl, rfl, rfl⟩

/-- A suspended run survives being kept.  If its text is read as the value that was written, the snapshot
comes back as it was, but for schemas that were null; it is settled as before or refused with the same
error, what it leaves when a context goes on from it is the same, and so are the runs that go on from it
up to the call that their first iteration records. -/
theorem kept_snapshot_resumes {s : Snapshot} (fits : s.Fits)
    (text : Json.parse? s.toJson.compact = some s.toJson) :
    ∃ s', Snapshot.read? s.write = some s' ∧ s' = s.stored ∧ ResumeAlike s s' ∧
      (∀ status e, s.settle status = .error e → s'.settle status = .error e) ∧
      (∀ status t, s.settle status = .ok t → ∃ t', s'.settle status = .ok t' ∧ ResumeAlike t t') ∧
      ∀ (r : Agent) (c : Context) (w : World),
        (∀ value, StartAlike r.advance (r.resolve c s value w) (r.resolve c s' value w)) ∧
          ∀ error, StartAlike r.advance (r.reject c s error w) (r.reject c s' error w) := by
  have hread : Snapshot.read? s.write = some s.stored := by
    show (Json.parse? s.toJson.compact).bind Snapshot.ofJson? = _
    rw [text]
    exact Snapshot.ofJson?_toJson fits
  refine ⟨s.stored, hread, rfl, resumeAlike_stored s, fun status e he => ?_, fun status t ht => ?_,
    fun r c w => ⟨fun value => ?_, fun error => ?_⟩⟩
  · rw [s.stored_settle, he]
    rfl
  · refine ⟨t.stored, ?_, resumeAlike_stored t⟩
    rw [s.stored_settle, ht]
    rfl
  · show StartAlike _ _ (r.goOn c w (s.stored.settle (.resolved value)))
    rw [s.stored_settle]
    exact goOn_stored r c w _
  · show StartAlike _ _ (r.goOn c w (s.stored.settle (.rejected error)))
    rw [s.stored_settle]
    exact goOn_stored r c w _

/-- A run that was suspended in a call with a schema that is null. -/
def schemalessSnapshot : Snapshot where
  id := "snap-1"
  reason := "wait"
  signal := {
    reason := "wait"
    toolCall := some {
      id := "tcall-1", name := "fetch", inputSchema := some .null, input := .nat 7
      assignment := some ⟨"x", "fetch", 2⟩ }
    line := some 2 }
  «variables» := [("y", .nat 1)]
  status := .pending
  createdAt := 0

theorem schemalessSnapshot_resumes :
    (schemalessSnapshot.Fits ∧
      Json.parse? schemalessSnapshot.toJson.compact = some schemalessSnapshot.toJson) ∧
    ∃ s', Snapshot.read? schemalessSnapshot.write = some s' ∧
      s'.toolCall.bind (·.inputSchema) = none ∧ ResumeAlike schemalessSnapshot s' := by
  have fits : schemalessSnapshot.Fits := by
    refine ⟨⟨fun c hc a ha => ?_, fun n hn => ?_⟩, by decide⟩
    · cases hc
      cases ha
      show 2 < UInt32.size
      decide
    · cases hn
      decide
  have text : Json.parse? schemalessSnapshot.toJson.compact = some schemalessSnapshot.toJson := by
    rw [Json.parse?_compact]
    exact Json.eq_some_of_equals (by decide +kernel)
  obtain ⟨s', hread, hs', halike, -⟩ := kept_snapshot_resumes fits text
  exact ⟨⟨fits, text⟩, s', hread, hs' ▸ rfl, halike⟩

end Agent

end ScriptAgent
