import ScriptAgent.Model.Failure
import ScriptAgent.Model.Message
import ScriptAgent.Window.Wrapping

/-!
# Clients

A client answers one request at a time.  The scripted client answers from a list and keeps what it
was asked.
-/

namespace ScriptAgent

/-- What is known of a model. -/
structure ModelDetails where
  name : String
  contextSize : Nat
  maxOutputTokens : Nat
deriving DecidableEq, Repr

/-- How many tokens a model takes when nothing else is known. -/
def defaultContextSize : Nat := 200000

/-- The answers of a client to every request, given the requests before. -/
structure ModelClient where
  respond : List GenerateRequest → GenerateRequest → Except ModelFailure GenerateResponse
  details : String → ModelDetails

namespace GenerateRequest

/-- About how many tokens the request has. -/
def inputTokens (r : GenerateRequest) : Nat :=
  (r.messages.map fun m => Text.tokens m.content).foldr (· + ·) 0 + (r.systemPrompt.map Text.tokens).getD 0

end GenerateRequest

namespace ScriptedClient

/-- The response that a scripted text is turned into. -/
def response (number : Nat) (r : GenerateRequest) (content : String) : GenerateResponse :=
  let usage : Usage := ⟨r.inputTokens, Text.tokens content⟩
  { id := "mock-" ++ toString number, model := r.model, choices := [content], usage
    cost := usage.cost r.model }

/-- The answer to a request after others were answered. -/
def respond (script : List (Except ModelFailure String)) (before : List GenerateRequest)
    (r : GenerateRequest) : Except ModelFailure GenerateResponse :=
  match script[before.length]? with
  | none => .error (.invalidResponse "no scripted responses left")
  | some (.error e) => .error e
  | some (.ok content) => .ok (response (before.length + 1) r content)

/-- The client that answers from a list. -/
def client (script : List (Except ModelFailure String)) (contextSize : Nat) : ModelClient where
  respond := respond script
  details name := ⟨name, contextSize, 4096⟩

end ScriptedClient

end ScriptAgent
