import ScriptAgent.Model.Failure

/-!
# Errors that end a run
-/

namespace ScriptAgent

/-- Why an operation as a whole failed. -/
inductive RunError where
  | loopExceeded (limit : Nat)
  | aborted (reason : String)
  | model (failure : ModelFailure)
  | protocol (message : String)
  | snapshot (message : String)
  | invalidContext (message : String)
deriving DecidableEq, Repr

/-- The text of an error. -/
def RunError.message : RunError → String
  | loopExceeded limit => "Loop exceeded: reached the limit of " ++ toString limit ++ " iterations"
  | aborted reason => "Aborted: " ++ reason
  | model failure => "LLM error: " ++ failure.message
  | protocol message => "Protocol error: " ++ message
  | snapshot message => "Snapshot error: " ++ message
  | invalidContext message => "Invalid context: " ++ message

end ScriptAgent
