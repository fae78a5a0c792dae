import ScriptAgent.Proofs.Loop.Persistence
import ScriptAgent.Proofs.Loop.Success

/-!
# Keeping a history

An iteration that is written and read back is the iteration again, unless a value in it is null where a value
may be missing, since null counts as missing there, or the price of its call is not a number.  Scripts that
return nothing with an exit leave such a null behind.
-/

namespace ScriptAgent

open Json (get?_recordOf get?_object required_of_get? withDefault_of_get? optional_str optional_of_get?
  optional_self_of_get? optional_any_of_get? optional_word32 word32?_nat word64?_nat dict?_any)

/-! ### Values and lists -/

namespace Json

theorem filter_isNull_eq_self {x : Option Json} : x.filter (!·.isNull) = x ↔ x ≠ some .null := by
  cases x with
  | none => simp
  | some v => cases v <;> simp [isNull]

/-- A list is read back item by item. -/
theorem list?_arr {α β : Type} {read : Json → Option α} {write : β → Json} {f : β → α} (items : List β)
    (h : ∀ b ∈ items, read (write b) = some (f b)) : (arr (items.map write)).list? read = some (items.map f) := by
  show (items.map write).mapM read = some (items.map f)
  induction items with
  | nil => rfl
  | cons b rest ih =>
    obtain ⟨hb, hrest⟩ := List.forall_mem_cons.mp h
    rw [List.map_cons, List.mapM_cons, hb, ih hrest]
    rfl

theorem list?_arr_self {α : Type} {read : Json → Option α} {write : α → Json} (items : List α)
    (h : ∀ a ∈ items, read (write a) = some a) : (arr (items.map write)).list? read = some items := by
  have hitems := list?_arr (f := id) items h
  rwa [List.map_id] at hitems

theorem list?_any (items : List Json) : (arr items).list? any? = some items := by
  have hitems := list?_arr_self items fun v _ => show any? (id v) = some v from rfl
  rwa [List.map_id] at hitems

/-- A double is read back if it is finite, and is no number else. -/
theorem float?_float (x : Float) : (float x).float? = if Number.isFinite x then some x else none := by
  unfold float
  split <;> rfl

end Json

/-! ### Signals -/

/-- A correlation as it is read back. -/
def Correlation.readBack (d : Correlation) : Correlation :=
  { d.stored with value := d.value.filter (!·.isNull) }

namespace Signal

/-- The entries of the JSON form of a signal besides its kind. -/
def entries : Signal → List (String × Option Json)
  | .think reason context => [("reason", some (.str reason)), ("context", context)]
  | .listen reason => [("reason", reason.map .str)]
  | .execute target input => [("target", some (.str target)), ("input", some input)]
  | .transition target reason => [("target", some (.str target)), ("reason", reason.map .str)]
  | .interrupt d => d.entries
  | .correlation d =>
    [("snapshot_id", some (.str d.snapshotId)), ("tool_call", d.toolCall.map ToolCallInfo.toJson),
      ("resolved", some (.bool d.resolved)), ("value", d.value), ("error", d.error.map .str)]

theorem get?_toJson (s : Signal) (key : String) :
    s.toJson.get? key = (Dict.get? (("type", some (.str s.kind)) :: s.entries) key).join := by
  have heq : s.toJson = .recordOf (("type", some (.str s.kind)) :: s.entries) := by cases s <;> rfl
  rw [heq]
  refine get?_recordOf _ ?_ key
  cases s <;> simp [entries, Interrupt.entries]

/-- The numbers of a signal fit the words they are kept in. -/
def Fits : Signal → Prop
  | .interrupt d => d.Fits
  | .correlation d => ∀ c ∈ d.toolCall, ∀ a ∈ c.assignment, a.Fits
  | _ => True

/-- A signal as it is read back. -/
def readBack : Signal → Signal
  | .think reason context => .think reason (context.filter (!·.isNull))
  | .interrupt d => .interrupt d.stored
  | .correlation d => .correlation d.readBack
  | s => s

theorem ofJson?_interrupt {v : Json} {d : Interrupt} (h : ∀ key, key ≠ "type" → v.get? key = d.toJson.get? key) :
    Interrupt.ofJson? v = Interrupt.ofJson? d.toJson := by
  unfold Interrupt.ofJson? Json.required Json.optional Json.withDefault
  rw [h "reason" (by decide), h "tool_call" (by decide), h "variables" (by decide), h "line" (by decide),
    h "stack" (by decide)]

theorem ofJson?_toJson {s : Signal} (h : s.Fits) : ofJson? s.toJson = some s.readBack := by
  have entry := s.get?_toJson
  unfold ofJson?
  rw [required_of_get? (entry "type")]
  cases s with
  | think reason context =>
    show thinkOfJson? _ = _
    unfold thinkOfJson?
    rw [required_of_get? (entry "reason"), optional_any_of_get? (entry "context")]
    rfl
  | listen reason =>
    rw [optional_str (entry "reason")]
    rfl
  | execute target input =>
    rw [required_of_get? (entry "target"), withDefault_of_get? (entry "input")]
    rfl
  | transition target reason =>
    rw [required_of_get? (entry "target"), optional_str (entry "reason")]
    rfl
  | interrupt d =>
    -- An interrupt is written with its kind among its own entries, and read without looking at the kind.
    have hsame : Interrupt.ofJson? (interrupt d).toJson = some d.stored := by
      rw [← Interrupt.ofJson?_toJson h]
      refine ofJson?_interrupt fun key hkey => ?_
      have htype : ("type" == key) = false := by simpa using hkey.symm
      rw [entry, Interrupt.toJson, get?_recordOf _ (by simp [Interrupt.entries])]
      show (if ("type" == key) = true then _ else _ : Option (Option Json)).join = _
      rw [htype]
      rfl
    rw [hsame]
    rfl
  | correlation d =>
    have hcall := optional_of_get? (f := ToolCallInfo.stored) ToolCallInfo.toJson (entry "tool_call")
      fun c hc => ⟨(fun hnull => by cases hnull), ToolCallInfo.ofJson?_toJson (h c hc)⟩
    rw [required_of_get? (entry "snapshot_id"), hcall, required_of_get? (entry "resolved"),
      optional_any_of_get? (entry "value"), optional_str (entry "error")]
    rfl

end Signal

/-- No value of a call is null where it may be missing. -/
structure ToolCallInfo.NullFree (c : ToolCallInfo) : Prop where
  inputSchema : c.inputSchema ≠ some .null
  outputSchema : c.outputSchema ≠ some .null

theorem ToolCallInfo.stored_eq_self {c : ToolCallInfo} : c.stored = c ↔ c.NullFree := by
  constructor
  · intro h
    exact ⟨Json.filter_isNull_eq_self.mp (congrArg (·.inputSchema) h),
      Json.filter_isNull_eq_self.mp (congrArg (·.outputSchema) h)⟩
  · intro h
    rw [stored, Json.filter_isNull_eq_self.mpr h.inputSchema, Json.filter_isNull_eq_self.mpr h.outputSchema]

/-- No value of a signal is null where it may be missing. -/
def Signal.NullFree : Signal → Prop
  | .think _ context => context ≠ some .null
  | .interrupt d => ∀ c ∈ d.toolCall, c.NullFree
  | .correlation d => (∀ c ∈ d.toolCall, c.NullFree) ∧ d.value ≠ some .null
  | _ => True

/-- What may be missing is read back as it was if each value in it is. -/
theorem map_eq_self {α : Type} {f : α → α} {x : Option α} : x.map f = x ↔ ∀ a ∈ x, f a = a := by
  cases x <;> simp

theorem Signal.readBack_eq_self {s : Signal} : s.readBack = s ↔ s.NullFree := by
  have calls {x : Option ToolCallInfo} : x.map (·.stored) = x ↔ ∀ c ∈ x, c.NullFree := by
    rw [map_eq_self]
    exact forall₂_congr fun c _ => ToolCallInfo.stored_eq_self
  cases s with
  | think reason context => simpa [readBack, NullFree] using Json.filter_isNull_eq_self
  | listen | execute | transition => simp [readBack, NullFree]
  | interrupt d =>
    obtain ⟨reason, toolCall, carried, line, stack⟩ := d
    simpa [readBack, NullFree, Interrupt.stored] using calls
  | correlation d =>
    obtain ⟨snapshotId, toolCall, resolved, value, error⟩ := d
    simpa [readBack, NullFree, Correlation.readBack, Correlation.stored] using and_congr calls Json.filter_isNull_eq_self

/-! ### Traces -/

namespace Trace

/-- The entries of the JSON form of a trace besides its type and its start. -/
def entries : Trace → List (String × Option Json)
  | .modelCallStarted _ model => [("model", some (.str model))]
  | .modelCallSuccess _ ended model input output =>
    [("ended_at", some (.nat ended)), ("model", some (.str model)), ("input_tokens", some (.nat input)),
      ("output_tokens", some (.nat output))]
  | .comment _ line text => [("line", some (.nat line)), ("comment", some (.str text))]
  | .log _ message args =>
    [("message", some (.str message)), ("args", if args.isEmpty then none else some (.arr args))]
  | .codeExecution _ ended lines => [("ended_at", some (.nat ended)), ("lines_executed", some (.nat lines))]
  | .property _ object member value =>
    [("object", some (.str object)), ("property", some (.str member)), ("value", some value)]
  | .toolCall c =>
    [("tool_call_id", some (.str c.id)), ("tool_name", some (.str c.tool)), ("object", c.object.map .str),
      ("input", some c.input), ("output", c.output), ("error", c.error.map .str),
      ("success", some (.bool c.success)), ("ended_at", some (.nat c.endedAt))]
  | .toolSlow _ id tool object input duration =>
    [("tool_call_id", some (.str id)), ("tool_name", some (.str tool)), ("object", object.map .str),
      ("input", some input), ("duration_ms", some (.nat duration))]
  | .signal _ line raised => [("line", line.map .nat), ("signal", some raised.toJson)]
  | .abortSignal _ reason => [("reason", some (.str reason))]
  | .codeExecutionException _ message stack line column =>
    [("message", some (.str message)), ("stack_trace", some (.str stack)), ("line", line.map .nat),
      ("column", column.map .nat)]
  | .invalidCodeException _ message code => [("message", some (.str message)), ("code", some (.str code))]
  | .yield _ value => [("value", some value)]

theorem get?_toJson (t : Trace) (key : String) : t.toJson.get? key =
    (Dict.get? (("type", some (.str t.typeName)) :: ("started_at", some (.nat t.startedAt)) :: t.entries) key).join := by
  have heq : t.toJson = .recordOf
      (("type", some (.str t.typeName)) :: ("started_at", some (.nat t.startedAt)) :: t.entries) := by
    cases t <;> rfl
  rw [heq]
  refine get?_recordOf _ ?_ key
  cases t <;> simp [entries]

/-- The numbers of a trace fit the words they are kept in. -/
structure Fits (t : Trace) : Prop where
  started : t.startedAt < UInt64.size
  rest : match t with
    | .modelCallSuccess _ ended _ input output =>
      ended < UInt64.size ∧ input < UInt64.size ∧ output < UInt64.size
    | .comment _ line _ => line < UInt32.size
    | .codeExecution _ ended lines => ended < UInt64.size ∧ lines < UInt32.size
    | .toolCall c => c.endedAt < UInt64.size
    | .toolSlow _ _ _ _ _ duration => duration < UInt64.size
    | .signal _ line raised => (∀ n ∈ line, n < UInt32.size) ∧ raised.Fits
    | .codeExecutionException _ _ _ line column =>
      (∀ n ∈ line, n < UInt32.size) ∧ ∀ n ∈ column, n < UInt32.size
    | _ => True

/-- A trace as it is read back. -/
def readBack : Trace → Trace
  | .toolCall c => .toolCall { c with output := c.output.filter (!·.isNull) }
  | .signal at_ line raised => .signal at_ line raised.readBack
  | t => t

theorem ofJson?_toJson {t : Trace} (h : t.Fits) : ofJson? t.toJson = some t.readBack := by
  have entry := t.get?_toJson
  obtain ⟨hstarted, hrest⟩ := h
  unfold ofJson?
  rw [required_of_get? (entry "type"), required_of_get? (entry "started_at"), word64?_nat hstarted]
  cases t with
  | modelCallStarted at_ model =>
    rw [required_of_get? (entry "model")]
    rfl
  | modelCallSuccess at_ ended model input output =>
    obtain ⟨hended, hinput, houtput⟩ := hrest
    rw [required_of_get? (entry "ended_at"), required_of_get? (entry "model"), required_of_get? (entry "input_tokens"),
      required_of_get? (entry "output_tokens"), word64?_nat hended, word64?_nat hinput, word64?_nat houtput]
    rfl
  | comment at_ line text =>
    rw [required_of_get? (entry "line"), required_of_get? (entry "comment"), word32?_nat hrest]
    rfl
  | log at_ message args =>
    have hargs : (log at_ message args).toJson.withDefault "args" (Json.list? Json.any?) [] = some args := by
      cases args with
      | nil =>
        rw [Json.withDefault, entry]
        rfl
      | cons arg rest =>
        rw [withDefault_of_get? (entry "args")]
        exact Json.list?_any _
    rw [required_of_get? (entry "message"), hargs]
    rfl
  | codeExecution at_ ended lines =>
    rw [required_of_get? (entry "ended_at"), required_of_get? (entry "lines_executed"), word64?_nat hrest.1,
      word32?_nat hrest.2]
    rfl
  | property at_ object member value =>
    rw [required_of_get? (entry "object"), required_of_get? (entry "property"), required_of_get? (entry "value")]
    rfl
  | toolCall c =>
    rw [required_of_get? (entry "tool_call_id"), required_of_get? (entry "tool_name"), optional_str (entry "object"),
      required_of_get? (entry "input"), optional_any_of_get? (entry "output"), optional_str (entry "error"),
      required_of_get? (entry "success"), required_of_get? (entry "ended_at"), word64?_nat hrest]
    rfl
  | toolSlow at_ id tool object input duration =>
    rw [required_of_get? (entry "tool_call_id"), required_of_get? (entry "tool_name"), optional_str (entry "object"),
      required_of_get? (entry "input"), required_of_get? (entry "duration_ms"), word64?_nat hrest]
    rfl
  | signal at_ line raised =>
    rw [optional_word32 (entry "line") hrest.1, required_of_get? (entry "signal"), Signal.ofJson?_toJson hrest.2]
    rfl
  | abortSignal at_ reason =>
    rw [required_of_get? (entry "reason")]
    rfl
  | codeExecutionException at_ message stack line column =>
    rw [required_of_get? (entry "message"), required_of_get? (entry "stack_trace"),
      optional_word32 (entry "line") hrest.1, optional_word32 (entry "column") hrest.2]
    rfl
  | invalidCodeException at_ message code =>
    rw [required_of_get? (entry "message"), required_of_get? (entry "code")]
    rfl
  | yield at_ value =>
    rw [required_of_get? (entry "value")]
    rfl

/-- No value of a trace is null where it may be missing. -/
def NullFree : Trace → Prop
  | .toolCall c => c.output ≠ some .null
  | .signal _ _ raised => raised.NullFree
  | _ => True

theorem readBack_eq_self {t : Trace} : t.readBack = t ↔ t.NullFree := by
  cases t with
  | toolCall c =>
    obtain ⟨id, tool, object, input, output, error, success, started, ended⟩ := c
    simpa [readBack, NullFree] using Json.filter_isNull_eq_self
  | signal at_ line raised => simpa [readBack, NullFree] using Signal.readBack_eq_self
  | _ => simp [readBack, NullFree]

end Trace

/-! ### Parts of an iteration -/

/-- The numbers of an error fit the words they are kept in. -/
def IterationError.Fits : IterationError → Prop
  | .timeout millis => millis < UInt64.size
  | .memoryLimit bytes => bytes < UInt64.size
  | _ => True

/-- The entries of the JSON form of an error. -/
def IterationError.entries : IterationError → List (String × Json)
  | .invalidCode message => [("kind", .str "invalid_code"), ("message", .str message)]
  | .codeExecution message stack =>
    [("kind", .str "code_execution"), ("message", .str message), ("stack", .str stack)]
  | .assignment message stack => [("kind", .str "assignment"), ("message", .str message), ("stack", .str stack)]
  | .timeout millis => [("kind", .str "timeout"), ("timeout_ms", .nat millis)]
  | .memoryLimit bytes => [("kind", .str "memory_limit"), ("limit_bytes", .nat bytes)]
  | .aborted reason => [("kind", .str "aborted"), ("reason", .str reason)]
  | .exit action message => [("kind", .str "exit"), ("action", .str action), ("message", .str message)]
  | .generation message => [("kind", .str "generation"), ("message", .str message)]

theorem IterationError.toJson_eq (e : IterationError) : e.toJson = .object e.entries := by
  cases e <;> rfl

theorem IterationError.get?_toJson (e : IterationError) (key : String) : e.toJson.get? key = Dict.get? e.entries key := by
  rw [toJson_eq]
  refine get?_object _ ?_ key
  cases e <;> simp [entries]

theorem IterationError.ofJson?_toJson {e : IterationError} (h : e.Fits) : ofJson? e.toJson = some e := by
  have entry := e.get?_toJson
  unfold ofJson?
  dsimp only
  cases e with
  | invalidCode message | generation message =>
    rw [required_of_get? (entry "kind"), required_of_get? (entry "message")]
    rfl
  | codeExecution message stack | assignment message stack =>
    rw [required_of_get? (entry "kind"), required_of_get? (entry "message"), required_of_get? (entry "stack")]
    rfl
  | timeout millis =>
    rw [required_of_get? (entry "kind"), required_of_get? (entry "timeout_ms"), word64?_nat h]
    rfl
  | memoryLimit bytes =>
    rw [required_of_get? (entry "kind"), required_of_get? (entry "limit_bytes"), word64?_nat h]
    rfl
  | aborted reason =>
    rw [required_of_get? (entry "kind"), required_of_get? (entry "reason")]
    rfl
  | exit action message =>
    rw [required_of_get? (entry "kind"), required_of_get? (entry "action"), required_of_get? (entry "message")]
    rfl

/-- The numbers of a call fit the words they are kept in. -/
structure ModelCall.Fits (c : ModelCall) : Prop where
  startedAt : c.startedAt < UInt64.size
  endedAt : c.endedAt < UInt64.size
  input : c.usage.input < UInt64.size
  output : c.usage.output < UInt64.size

/-- A call is read back if its price is a number. -/
theorem ModelCall.ofJson?_toJson {c : ModelCall} (h : c.Fits) :
    ofJson? c.toJson = if Number.isFinite c.cost then some c else none := by
  have entry (key : String) := get?_object [("id", .str c.id), ("model", .str c.model),
    ("started_at", .nat c.startedAt), ("ended_at", .nat c.endedAt), ("input_tokens", .nat c.usage.input),
    ("output_tokens", .nat c.usage.output), ("cost", .float c.cost), ("cached", .bool c.cached),
    ("output", .str c.output)] (by simp) key
  unfold ofJson? Usage.ofJson? toJson
  rw [required_of_get? (entry "id"), required_of_get? (entry "model"), required_of_get? (entry "started_at"),
    required_of_get? (entry "ended_at"), required_of_get? (entry "input_tokens"),
    required_of_get? (entry "output_tokens"), required_of_get? (entry "cost"), required_of_get? (entry "cached"),
    required_of_get? (entry "output"), word64?_nat h.startedAt, word64?_nat h.endedAt, word64?_nat h.input,
    word64?_nat h.output, Json.float?_float]
  split <;> rfl

theorem Role.ofName?_name (r : Role) : ofName? r.name = some r := by
  cases r <;> decide

theorem Message.ofJson?_toJson (m : Message) : ofJson? m.toJson = some m := by
  have entry (key : String) := get?_recordOf [("role", some (.str m.role.name)), ("type", some (.str "text")),
    ("content", some (.str m.content)), ("name", m.name.map .str)] (by simp) key
  unfold ofJson? toJson
  rw [required_of_get? (entry "role"), withDefault_of_get? (entry "type"), required_of_get? (entry "content"),
    optional_str (entry "name")]
  show (Role.ofName? m.role.name).bind _ = _
  rw [Role.ofName?_name]
  rfl

theorem Mutation.ofJson?_toJson (m : Mutation) : ofJson? m.toJson = some m := by
  have entry (key : String) := get?_object [("object", .str m.object), ("property", .str m.property),
    ("before", m.before), ("after", m.after)] (by simp) key
  unfold ofJson? toJson
  rw [required_of_get? (entry "object"), required_of_get? (entry "property"), required_of_get? (entry "before"),
    required_of_get? (entry "after")]
  rfl

theorem IterationStatus.ofName?_name (s : IterationStatus) : ofName? s.name = some s := by
  cases s <;> decide

/-! ### Iterations -/

namespace Iteration

/-- The numbers of an iteration fit the words they are kept in. -/
structure Fits (i : Iteration) : Prop where
  signal : ∀ s ∈ i.signal, s.Fits
  call : ∀ c ∈ i.call, c.Fits
  traces : ∀ t ∈ i.traces, t.Fits
  error : ∀ e ∈ i.error, e.Fits
  startedAt : i.startedAt < UInt64.size
  endedAt : i.endedAt < UInt64.size

/-- The price of the call is a number. -/
def Priced (i : Iteration) : Prop :=
  ∀ c ∈ i.call, Number.isFinite c.cost = true

/-- An iteration as it is read back. -/
def readBack (i : Iteration) : Iteration :=
  { i with
    signal := i.signal.map (·.readBack)
    traces := i.traces.map (·.readBack)
    returnValue := i.returnValue.filter (!·.isNull) }

/-- The entries of the JSON form of an iteration. -/
def entries (i : Iteration) : List (String × Option Json) :=
  [("id", some (.str i.id)), ("code", i.code.map .str), ("status", some (.str i.status.name)),
    ("variables", some (.obj i.variables)), ("signal", i.signal.map Signal.toJson),
    ("mutations", some (.arr (i.mutations.map Mutation.toJson))), ("llm", i.call.map ModelCall.toJson),
    ("traces", some (.arr (i.traces.map Trace.toJson))), ("error", i.error.map IterationError.toJson),
    ("exit", i.exit.map .str), ("return_value", i.returnValue),
    ("messages", some (.arr (i.messages.map Message.toJson))), ("started_at", some (.nat i.startedAt)),
    ("ended_at", some (.nat i.endedAt))]

theorem get?_toJson (i : Iteration) (key : String) : i.toJson.get? key = (Dict.get? i.entries key).join :=
  get?_recordOf i.entries (by simp [entries]) key

theorem ofJson?_toJson {i : Iteration} (h : i.Fits) (priced : i.Priced) : ofJson? i.toJson = some i.readBack := by
  have entry := i.get?_toJson
  have hsignal := optional_of_get? (f := Signal.readBack) Signal.toJson (entry "signal")
    fun s hs => ⟨nofun, Signal.ofJson?_toJson (h.signal s hs)⟩
  have hcall := optional_self_of_get? ModelCall.toJson (entry "llm")
    fun c hc => ⟨nofun, (ModelCall.ofJson?_toJson (h.call c hc)).trans (if_pos (priced c hc))⟩
  have herror := optional_self_of_get? IterationError.toJson (entry "error")
    fun e he => ⟨by cases e <;> nofun, IterationError.ofJson?_toJson (h.error e he)⟩
  have hmutations := Json.list?_arr_self i.mutations fun m _ => Mutation.ofJson?_toJson m
  have htraces := Json.list?_arr (f := Trace.readBack) i.traces fun t ht => Trace.ofJson?_toJson (h.traces t ht)
  have hmessages := Json.list?_arr_self i.messages fun m _ => Message.ofJson?_toJson m
  unfold ofJson?
  rw [required_of_get? (entry "id"), optional_str (entry "code"), required_of_get? (entry "status"),
    withDefault_of_get? (entry "variables"), dict?_any, hsignal, withDefault_of_get? (entry "mutations"), hmutations,
    hcall, withDefault_of_get? (entry "traces"), htraces, herror, optional_str (entry "exit"),
    optional_any_of_get? (entry "return_value"), withDefault_of_get? (entry "messages"), hmessages,
    required_of_get? (entry "started_at"), word64?_nat h.startedAt, required_of_get? (entry "ended_at"),
    word64?_nat h.endedAt]
  show (IterationStatus.ofName? i.status.name).bind _ = _
  rw [IterationStatus.ofName?_name]
  rfl

/-! ### What is lost -/

/-- What an iteration was read from, where something may be lost. -/
theorem optional_of_ofJson? {v : Json} {i : Iteration} (h : ofJson? v = some i) :
    v.optional "llm" ModelCall.ofJson? = some i.call ∧ v.optional "return_value" Json.any? = some i.returnValue := by
  unfold ofJson? at h
  iterate 6 obtain ⟨_, -, h⟩ := Option.bind_eq_some_iff.mp h
  obtain ⟨call, hcall, h⟩ := Option.bind_eq_some_iff.mp h
  iterate 3 obtain ⟨_, -, h⟩ := Option.bind_eq_some_iff.mp h
  obtain ⟨value, hvalue, h⟩ := Option.bind_eq_some_iff.mp h
  iterate 3 obtain ⟨_, -, h⟩ := Option.bind_eq_some_iff.mp h
  cases h
  exact ⟨hcall, hvalue⟩

/-- No iteration is read with a null as its returned value. -/
theorem returnValue_of_ofJson? {v : Json} {i : Iteration} (h : ofJson? v = some i) : i.returnValue ≠ some .null := by
  have hvalue := (optional_of_ofJson? h).2
  rw [optional_any_of_get? rfl] at hvalue
  rw [← Option.some.inj hvalue]
  intro hnull
  have hkept := (Option.filter_eq_some_iff.mp hnull).2
  cases hkept

/-- An iteration whose price is no number is not read back at all. -/
theorem ofJson?_unpriced {i : Iteration} (h : i.Fits) (unpriced : ¬ i.Priced) : ofJson? i.toJson = none := by
  cases hread : ofJson? i.toJson with
  | none => rfl
  | some j =>
    -- Who reads the iteration reads its call, and that is only read with a price.
    refine absurd (fun c hc => ?_) unpriced
    have hcall := (optional_of_ofJson? hread).1
    have hentry : i.toJson.get? "llm" = some c.toJson := by
      rw [get?_toJson, ← Option.map_some, ← Option.mem_def.mp hc]
      rfl
    rw [Json.optional, hentry] at hcall
    obtain ⟨c', hc', -⟩ := Option.map_eq_some_iff.mp (show (ModelCall.ofJson? c.toJson).map some = some j.call from hcall)
    rw [ModelCall.ofJson?_toJson (h.call c hc)] at hc'
    by_contra hinfinite
    rw [if_neg hinfinite] at hc'
    cases hc'

/-- No value of an iteration is null where it may be missing. -/
structure NullFree (i : Iteration) : Prop where
  signal : ∀ s ∈ i.signal, s.NullFree
  traces : ∀ t ∈ i.traces, t.NullFree
  returnValue : i.returnValue ≠ some .null

theorem readBack_eq_self {i : Iteration} : i.readBack = i ↔ i.NullFree := by
  have htraces : i.traces.map (·.readBack) = i.traces ↔ ∀ t ∈ i.traces, t.NullFree := by
    rw [← List.map_id' i.traces, List.map_map, List.map_inj_left]
    simp [Trace.readBack_eq_self]
  have hsignal : i.signal.map (·.readBack) = i.signal ↔ ∀ s ∈ i.signal, s.NullFree := by
    rw [map_eq_self]
    exact forall₂_congr fun s _ => Signal.readBack_eq_self
  constructor
  · intro h
    exact ⟨hsignal.mp (congrArg (·.signal) h), htraces.mp (congrArg (·.traces) h),
      Json.filter_isNull_eq_self.mp (congrArg (·.returnValue) h)⟩
  · intro h
    rw [readBack, hsignal.mpr h.signal, htraces.mpr h.traces, Json.filter_isNull_eq_self.mpr h.returnValue]

/-- An iteration of a history that is written and read back comes back as it was but for the nulls that are
lost, or not at all if its price is no number; so it comes back as it was exactly if it has a price and no
null where a value may be missing. -/
theorem record_reads_back {i : Iteration} (fits : i.Fits) :
    (i.Priced → ofJson? i.toJson = some i.readBack) ∧ (¬ i.Priced → ofJson? i.toJson = none) ∧
      (ofJson? i.toJson = some i ↔ i.Priced ∧ i.NullFree) := by
  refine ⟨ofJson?_toJson fits, ofJson?_unpriced fits, fun h => ?_, fun ⟨priced, nullFree⟩ => ?_⟩
  · have priced : i.Priced := by
      by_contra unpriced
      rw [ofJson?_unpriced fits unpriced] at h
      cases h
    rw [ofJson?_toJson fits priced] at h
    exact ⟨priced, readBack_eq_self.mp (Option.some.inj h)⟩
  · rw [ofJson?_toJson fits priced, readBack_eq_self.mpr nullFree]

/-- An iteration whose script waits for a tool. -/
def waitingIteration (value : Option Json) : Iteration where
  id := "ctx_1"
  code := some "let ok = ask(1);"
  signal := some (.interrupt
    { reason := "wait", toolCall := some { id := "tcall-#1", name := "ask", input := .int 1 }, line := some 1 })
  traces := [.codeExecution 1 2 1,
    .toolCall { id := "tcall-#1", tool := "ask", input := .int 1, success := true, startedAt := 1, endedAt := 2 }]
  returnValue := value
  startedAt := 1
  endedAt := 2

theorem fits_waitingIteration (value : Option Json) : (waitingIteration value).Fits where
  signal := by
    rintro _ ⟨⟩
    exact ⟨by simp, by simp [UInt32.size]⟩
  call := nofun
  traces := List.forall_mem_cons.mpr ⟨⟨by decide, by decide⟩, List.forall_mem_singleton.mpr ⟨by decide, by decide⟩⟩
  error := nofun
  startedAt := show 1 < UInt64.size by decide
  endedAt := show 2 < UInt64.size by decide

/-- It is read back, but for a null that it would have returned. -/
theorem waitingIteration_reads_back : (waitingIteration none).Fits ∧ (waitingIteration (some .null)).Fits ∧
    ofJson? (waitingIteration none).toJson = some (waitingIteration none) ∧
    ofJson? (waitingIteration (some .null)).toJson = some (waitingIteration none) := by
  have fits := fits_waitingIteration
  have nullFree : (waitingIteration none).NullFree := by
    refine ⟨?_, List.forall_mem_cons.mpr ⟨trivial, List.forall_mem_singleton.mpr nofun⟩, nofun⟩
    rintro _ ⟨⟩ _ ⟨⟩
    exact ⟨nofun, nofun⟩
  refine ⟨fits none, fits (some .null), ?_, ?_⟩
  · exact (record_reads_back (fits none)).2.2.mpr ⟨nofun, nullFree⟩
  · exact (record_reads_back (fits (some .null))).1 nofun

end Iteration

namespace Agent

/-- A script that returns an exit and no value. -/
def bareScript : String := "#\x7baction: \"done\"\x7d"

/-- Not every iteration of a run is read back as it was: one that returns an exit and no value is read back
without the null that it has returned. -/
theorem bare_exit_is_lost :
    ¬ ∀ (r : Agent) (move : Move) (c : Context) (w : World), c.validate = .ok () → c.iterations = [] →
      ∀ i ∈ (r.play move c w).context.iterations, Iteration.ofJson? i.toJson = some i := by
  intro reads
  obtain ⟨r, completes⟩ : ∃ r, Completes r bareScript (exitContext "done") (.obj [("action", .str "done")]) :=
    exists_completes (by decide +kernel) (by decide +kernel) (by decide +kernel)
  have valid : (exitContext "done").validate = .ok () := by decide
  obtain ⟨-, i, hlast, exited⟩ := play_of_exit valid completes rfl (by decide +kernel)
  have hread := reads r .run (exitContext "done") {} valid rfl i (List.mem_of_getLast? hlast)
  exact Iteration.returnValue_of_ofJson? hread exited.returnValue

end Agent

end ScriptAgent
