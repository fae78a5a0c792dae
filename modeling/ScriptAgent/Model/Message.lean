import ScriptAgent.Json.Decode
import ScriptAgent.Number.Binary64
import ScriptAgent.Text.Find

/-!
# Messages, requests and responses of a model
-/

namespace ScriptAgent

/-- Who speaks. -/
inductive Role where
  | system
  | user
  | assistant
deriving DecidableEq, Repr

/-- The name of a role. -/
def Role.name : Role → String
  | .system => "system"
  | .user => "user"
  | .assistant => "assistant"

/-- The role of a name. -/
def Role.ofName? (name : String) : Option Role :=
  [Role.system, .user, .assistant].find? (·.name == name)

/-- One message of a conversation. -/
structure Message where
  role : Role
  content : String
  /-- A label of the speaker. -/
  name : Option String := none
deriving DecidableEq, Repr

/-- Reads the kind of a content, which is always text. -/
def textKind? (v : Json) : Option Unit :=
  match v with
  | .str "text" => some ()
  | _ => none

namespace Message

/-- A message of the system. -/
def system (content : String) : Message := { role := .system, content }

/-- A message of the user. -/
def user (content : String) : Message := { role := .user, content }

/-- A message of the model. -/
def assistant (content : String) : Message := { role := .assistant, content }

/-- The JSON form of a message. -/
def toJson (m : Message) : Json :=
  .recordOf [("role", some (.str m.role.name)), ("type", some (.str "text")), ("content", some (.str m.content)),
    ("name", m.name.map .str)]

/-- Reads a message. -/
def ofJson? (v : Json) : Option Message := do
  let role ← v.required "role" fun r => r.str?.bind Role.ofName?
  let _ ← v.withDefault "type" textKind? ()
  return { role, content := ← v.required "content" Json.str?, name := ← v.optional "name" Json.str? }

end Message

/-- The form a response is asked for in. -/
inductive ResponseFormat where
  | text
  | jsonObject
deriving DecidableEq, Repr

/-- The name of a response format. -/
def ResponseFormat.name : ResponseFormat → String
  | .text => "text"
  | .jsonObject => "json_object"

/-- Reads a response format. -/
def ResponseFormat.ofJson? (v : Json) : Option ResponseFormat :=
  [ResponseFormat.text, .jsonObject].find? fun f => v.str? == some f.name

/-- All a model is told for one call. -/
structure GenerateRequest where
  model : String
  systemPrompt : Option String := none
  messages : List Message := []
  /-- A single, widened. -/
  temperature : Float
  responseFormat : ResponseFormat := .text
  stopSequences : List String := []
  maxTokens : Option Nat := none

namespace GenerateRequest

/-- The JSON form of a request. -/
def toJson (r : GenerateRequest) : Json :=
  .recordOf [("model", some (.str r.model)), ("system_prompt", r.systemPrompt.map .str),
    ("messages", some (.arr (r.messages.map Message.toJson))), ("temperature", some (.float r.temperature)),
    ("response_format", some (.str r.responseFormat.name)),
    ("stop_sequences", if r.stopSequences.isEmpty then none else some (.arr (r.stopSequences.map .str))),
    ("max_tokens", r.maxTokens.map .nat)]

/-- Reads a request. -/
def ofJson? (v : Json) : Option GenerateRequest := do
  return {
    model := ← v.required "model" Json.str?
    systemPrompt := ← v.optional "system_prompt" Json.str?
    messages := ← v.required "messages" (Json.list? Message.ofJson?)
    temperature := Number.toSingle (← v.required "temperature" Json.float?)
    responseFormat := ← v.withDefault "response_format" ResponseFormat.ofJson? .text
    stopSequences := ← v.withDefault "stop_sequences" (Json.list? Json.str?) []
    maxTokens := ← v.optional "max_tokens" Json.word32? }

end GenerateRequest

/-- The tokens of one or more calls. -/
structure Usage where
  input : Nat := 0
  output : Nat := 0
deriving DecidableEq, Repr

namespace Usage

/-- All tokens. -/
def total (u : Usage) : Nat :=
  u.input + u.output

/-- The tokens of both. -/
def add (u v : Usage) : Usage :=
  ⟨u.input + v.input, u.output + v.output⟩

/-- The prices of a thousand tokens read and written by a model. -/
def rates (model : String) : Float × Float :=
  if Text.contains model "opus" then (0.015, 0.075)
  else if Text.contains model "sonnet" then (0.003, 0.015)
  else if Text.contains model "haiku" then (0.0008, 0.004)
  else (0.003, 0.015)

/-- The price of the tokens. -/
def cost (u : Usage) (model : String) : Float :=
  let (inputRate, outputRate) := rates model
  Float.ofNat u.input / 1000.0 * inputRate + Float.ofNat u.output / 1000.0 * outputRate

/-- The JSON form of a usage. -/
def toJson (u : Usage) : Json :=
  .object [("input_tokens", .nat u.input), ("output_tokens", .nat u.output)]

/-- Reads a usage. -/
def ofJson? (v : Json) : Option Usage := do
  return ⟨← v.required "input_tokens" Json.word64?, ← v.required "output_tokens" Json.word64?⟩

end Usage

/-- What a model answered. -/
structure GenerateResponse where
  id : String
  model : String
  /-- The contents generated. -/
  choices : List String
  usage : Usage
  cached : Bool := false
  cost : Float := 0.0

namespace GenerateResponse

/-- The first content. -/
def text? (r : GenerateResponse) : Option String :=
  r.choices.head?

/-- The JSON form of a response. -/
def toJson (r : GenerateResponse) : Json :=
  .object [("id", .str r.id), ("model", .str r.model),
    ("choices", .arr (r.choices.map fun c => .object [("type", .str "text"), ("content", .str c)])),
    ("usage", r.usage.toJson), ("cached", .bool r.cached), ("cost", .float r.cost)]

end GenerateResponse

end ScriptAgent
