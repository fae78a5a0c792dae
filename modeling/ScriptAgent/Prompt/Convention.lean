import ScriptAgent.Model.Message
import ScriptAgent.Text.Blank
import ScriptAgent.Text.Find
import ScriptAgent.Text.Lines

/-!
# The convention of fences

The model writes one script between two markers.  The end marker stops it, so responses mostly come
without one; a response without markers is a script as a whole.
-/

namespace ScriptAgent

/-- How the model is prompted. -/
inductive Convention where
  | current
  /-- Every thought counts as a script that ran. -/
  | legacy
deriving DecidableEq, Repr

namespace Convention

/-- The name of a convention. -/
def version : Convention → String
  | current => "fenced-2024-10"
  | legacy => "fenced-legacy"

/-- Whether a thought counts as a script that ran even if it assigned nothing. -/
def reportsCodeExecuted (c : Convention) : Bool :=
  c == legacy

end Convention

namespace Fence

/-- The marker before a script. -/
def opening : String := "■fn_start"

/-- The marker after a script. -/
def closing : String := "■fn_end"

/-- What stops the model. -/
def stopSequences : List String := [closing]

/-- What was found in a response. -/
structure Response where
  /-- The script, which is blank if there is none. -/
  code : String
  /-- The response as it came. -/
  raw : String
deriving DecidableEq, Repr

/-- Whether there is a script in a response. -/
def Response.hasCode (r : Response) : Bool :=
  !Text.isBlankText r.code

/-- The response with both markers. -/
def fenced (raw : String) : String :=
  let text := if Text.contains raw opening then raw else opening ++ "\n" ++ Text.trim raw
  if Text.contains text closing then text else Text.trim text ++ "\n" ++ closing

/-- What stands between the first opening marker and the closing marker after it. -/
def body (text : String) : List Char :=
  let rest := match Text.cut? opening.toList text.toList with
    | some (_, rest) => rest
    | none => text.toList
  match Text.cut? closing.toList rest with
  | some (inside, _) => inside
  | none => rest

/-- Whether a line is a fence of a code block. -/
def isBlockFence (line : String) : Bool :=
  (Text.afterStart? "```".toList (Text.dropBlank line.toList)).isSome

/-- Lines without a block fence at the end. -/
def dropLastFence : List String → List String
  | [] => []
  | [line] => if isBlockFence line then [] else [line]
  | line :: rest => line :: dropLastFence rest

/-- Lines without block fences at the start and at the end. -/
def dropFences : List String → List String
  | [] => []
  | line :: rest => if isBlockFence line then dropLastFence rest else dropLastFence (line :: rest)

/-- Takes the script out of a response. -/
def parseResponse (raw : String) : Response :=
  let inside := String.ofList (Text.trimChars (body (fenced raw)))
  { code := Text.unlines (dropFences (Text.lines inside)), raw }

example : (parseResponse "Sure!\n■fn_start\n```rhai\nlet a = 1;\n```\n■fn_end").code = "let a = 1;" := by decide +kernel

end Fence

end ScriptAgent
