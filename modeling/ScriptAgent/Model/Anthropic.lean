import ScriptAgent.Model.Client
import ScriptAgent.Text.Quote

/-!
# The Anthropic client

The shapes of the requests that are sent and of the responses that come back.
-/

namespace ScriptAgent

/-- The settings of a client. -/
structure AnthropicSettings where
  model : String := "claude-sonnet-4-20250514"
  maxTokens : Nat := 8192
  timeoutMillis : Nat := 300000
  keyVariable : String := "ANTHROPIC_API_KEY"
  contextWindow : Nat := defaultContextSize
deriving DecidableEq, Repr

namespace AnthropicSettings

/-- The message of a request that is not part of the system prompt. -/
def messageJson? (m : Message) : Option Json :=
  match m.role with
  | .system => none
  | role => some (.object [("role", .str role.name), ("content", .str m.content)])

/-- The system prompt and the messages of the system. -/
def systemTexts (r : GenerateRequest) : List String :=
  r.systemPrompt.toList ++ (r.messages.filter (·.role == .system)).map (·.content)

/-- The body that is sent for a request. -/
def requestBody (s : AnthropicSettings) (r : GenerateRequest) : Json :=
  let system := systemTexts r
  .recordOf [("model", some (.str (if r.model.isEmpty then s.model else r.model))),
    ("max_tokens", some (.nat (r.maxTokens.getD s.maxTokens))), ("temperature", some (.float r.temperature)),
    ("messages", some (.arr (r.messages.filterMap messageJson?))),
    ("system", if system.isEmpty then none else some (.str ("\n\n".intercalate system))),
    ("stop_sequences", if r.stopSequences.isEmpty then none else some (.arr (r.stopSequences.map .str)))]

/-- A count in a body, zero unless it is one. -/
def countIn (v : Json) (key : String) : Nat :=
  ((v.get? key).bind Json.nat?).getD 0

/-- The usage that a body states. -/
def bodyUsage (body : Json) : Usage :=
  let usage := (body.get? "usage").getD .null
  ⟨countIn usage "input_tokens", countIn usage "output_tokens"⟩

/-- The text of a block, if it is one of text. -/
def blockText? (block : Json) : Option String :=
  if (block.get? "type").bind Json.str? == some "text" then (block.get? "text").bind Json.str? else none

/-- The response that a body stands for. -/
def readBody (s : AnthropicSettings) (body : Json) : Except ModelFailure GenerateResponse :=
  match (body.get? "content").bind Json.items? with
  | none => .error (.invalidResponse "missing content blocks")
  | some blocks =>
    let model := ((body.get? "model").bind Json.str?).getD s.model
    let usage := bodyUsage body
    .ok {
      id := ((body.get? "id").bind Json.str?).getD ""
      model
      choices := ["\n".intercalate (blocks.filterMap blockText?)]
      usage
      cached := 0 < countIn ((body.get? "usage").getD .null) "cache_read_input_tokens"
      cost := usage.cost model }

/-- The response that a body stands for, and the usage of all responses so far; a body without a
response is counted as well. -/
def receive (s : AnthropicSettings) (total : Usage) (body : Json) :
    Except ModelFailure GenerateResponse × Usage :=
  (s.readBody body, total.add (bodyUsage body))

/-- How a client shows itself: never with its key. -/
def shown (s : AnthropicSettings) : String :=
  "AnthropicClient \x7b model: " ++ Text.quoted s.model ++ ", max_tokens: " ++ toString s.maxTokens ++ " \x7d"

/-- What the client knows of a model. -/
def details (s : AnthropicSettings) (name : String) : ModelDetails :=
  ⟨name, s.contextWindow, s.maxTokens⟩

end AnthropicSettings

end ScriptAgent
