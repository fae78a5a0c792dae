import ScriptAgent.Prompt.System
import ScriptAgent.Snapshot

/-!
# Feedback

What the model is told about the scripts it wrote.
-/

namespace ScriptAgent

namespace Feedback

/-- A message from where scripts run. -/
def fromSandbox (body : String) : Message :=
  { role := .user, content := "## Important message from the VM\n\n" ++ Text.trim body, name := some "VM" }

/-- The script that the model wrote. -/
def assistant (code : String) : Message :=
  .assistant (Fence.opening ++ "\n" ++ Text.trim code ++ "\n" ++ Fence.closing)

/-- A script could not be compiled, or its result was refused. -/
def invalidCode (code error : String) : Message :=
  fromSandbox ("The code you provided is invalid. Here's the error:\n\nCode:\n\n```rhai\n" ++ Fence.opening ++ "\n" ++
    Wrapping.wrap code ++ "\n" ++ Fence.closing ++ "\n```\n\nError:\n```\n" ++
    Wrapping.wrapWith error { flex := 4 } ++ "\n```\n\nPlease fix the error and try again.\n\n" ++
    Prompt.expectedOutput)

/-- A script failed while it ran. -/
def executionError (message stack : String) : Message :=
  fromSandbox ("An error occurred while executing the code.\n\n" ++ Wrapping.wrapWith message { flex := 4 } ++
    "\n\nStack Trace:\n```\n" ++ Wrapping.wrapWith stack { flex := 6 } ++
    "\n```\n\nLet the user know that an error occurred, and if possible, try something else. Do not repeat " ++
    "yourself in the message.\n\n" ++ Prompt.expectedOutput)

/-- What a thought carries on, as text. -/
def contextText : Option Json → String
  | none | some .null => ""
  | some (.str s) => s
  | some (.obj fields) =>
    "\n\n".intercalate (fields.map fun (key, v) => "Value of " ++ key ++ " is " ++ v.indented)
  | some (.arr items) =>
    "\n\n".intercalate (items.mapIdx fun i v => "Value at index " ++ toString i ++ " is " ++ v.indented)
  | some v => v.indented

/-- The model asked to think. -/
def thinking (reason : String) (context : Option Json) : Message :=
  fromSandbox ("The assistant requested to think. Here's the context:\n-------------------\nReason: " ++ reason ++
    "\nContext:\n" ++ Wrapping.wrap (contextText context) ++
    "\n-------------------\n\nPlease continue with the conversation (" ++ Fence.opening ++ ").")

/-- The excerpt of a snapshot without its last line, which did not finish. -/
def executedLines (s : Snapshot) : String :=
  Text.unlines (Text.lines s.stack).dropLast

/-- The call that was interrupted. -/
def callText (s : Snapshot) : String :=
  match s.toolCall with
  | none => s.reason
  | some call =>
    ((call.object.map (· ++ ".")).getD "") ++ call.name ++ "(" ++ call.input.compact ++ ")"

/-- A text whose further lines start with the given characters. -/
def continued (mark text : String) : String :=
  Text.replace text "\n" ("\n" ++ mark)

/-- A variable and its value as a comment. -/
def restoredVariable (name : String) (value : Json) : String :=
  "// Variable \"" ++ name ++ "\" restored with its full value:\n// " ++ continued "// " value.indented

/-- A snapshot was settled with a value. -/
def resolved (s : Snapshot) (value : Json) (vars : Dict Json) : Message :=
  fromSandbox ("The execution of an asynchronous code block has been completed. Here's the code that was " ++
    "executed:\n" ++ executedLines s ++ "\n// " ++ callText s ++ "\n```rhai\n/**\n * Here's the output:\n * " ++
    Wrapping.wrapWith (continued " * " value.indented) { flex := 4 } ++
    "\n * */\n```\n\nContinue the conversation from here, without repeating the above code, as it has already " ++
    "been executed. Here's the variables you can rely on:\n\n```rhai\n" ++
    Wrapping.wrap (Text.unlines (vars.map fun (name, v) => restoredVariable name v)) ++
    "\n```\n\nYou can now assume that the code you are about to generate can rely on the variables \"" ++
    "\", \"".intercalate (Dict.keys vars) ++
    "\" being available.\nThere are NO OTHER VARIABLES than the ones listed above.\n\nIMPORTANT: Do NOT re-run " ++
    "the code that was already executed. This would be a critical error. Instead, continue the conversation " ++
    "from here.\n\n" ++ Prompt.expectedOutput)

/-- A snapshot was settled with an error. -/
def rejected (s : Snapshot) (error : String) : Message :=
  fromSandbox ("An error occurred while executing the code. Here is the code that was executed so far:\n\n" ++
    executedLines s ++ "\n\n// " ++ callText s ++ "\nHere's the error:\n" ++
    Wrapping.wrapWith (continued " * " error) { keep := .ends, least := 100 } ++
    "\n\nContinue the conversation from here, without repeating the above code, as it has already been " ++
    "executed.\nIMPORTANT: Do NOT re-run the code that was already executed. This would be a critical error. " ++
    "Instead, continue the conversation from here.\n\n" ++ Prompt.expectedOutput)

end Feedback

end ScriptAgent
