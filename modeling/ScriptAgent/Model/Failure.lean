import ScriptAgent.Text.Find

/-!
# Failures of a model
-/

namespace ScriptAgent

/-- Why a call of a model failed. -/
inductive ModelFailure where
  | rateLimited (retryAfterMillis : Nat)
  | api (status : Nat) (message : String)
  | network (message : String)
  | invalidResponse (message : String)
  | malformed (message : String)
  | contextOverflow (used limit : Nat)
  | missingKey (variableName : String)
deriving DecidableEq, Repr

namespace ModelFailure

/-- Digits without the zeros they end with. -/
def dropZeros (cs : List Char) : List Char :=
  (cs.reverse.dropWhile (· == '0')).reverse

/-- A duration in the largest unit it reaches. -/
def durationText (millis : Nat) : String :=
  if millis == 0 then "0ns"
  else if millis < 1000 then toString millis ++ "ms"
  else
    let fraction := dropZeros (Text.padLeft 3 '0' (toString (millis % 1000))).toList
    toString (millis / 1000) ++ (if fraction.isEmpty then "" else "." ++ String.ofList fraction) ++ "s"

/-- The text of a failure. -/
def message : ModelFailure → String
  | rateLimited millis => "Rate limited, retry after " ++ durationText millis
  | api status message => "API error " ++ toString status ++ ": " ++ message
  | network message => "Network error: " ++ message
  | invalidResponse message => "Invalid response: " ++ message
  | malformed message => "JSON parsing error: " ++ message
  | contextOverflow used limit =>
    "Context overflow: used " ++ toString used ++ " tokens, limit is " ++ toString limit
  | missingKey name => "Missing API key: environment variable " ++ name ++ " not set"

/-- Whether the model was asked too often. -/
def isRateLimit : ModelFailure → Bool
  | rateLimited _ => true
  | _ => false

/-- Whether the same call may succeed later. -/
def isRetryable : ModelFailure → Bool
  | rateLimited _ | network _ => true
  | api status _ => 500 ≤ status
  | _ => false

end ModelFailure

end ScriptAgent
