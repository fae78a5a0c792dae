import ScriptAgent.Exit
import ScriptAgent.Object.Instance
import ScriptAgent.Prompt.Convention
import ScriptAgent.Prompt.Template
import ScriptAgent.Window.Wrapping

/-!
# The first messages

The system message tells the model how to write scripts and what they may use; the first message of
the user says who spoke last.
-/

namespace ScriptAgent

/-- What the first messages are made of. -/
structure PromptInputs where
  instructions : String := ""
  objects : List ObjectInstance := []
  tools : List Tool := []
  exits : List Exit := []
  transcript : List Message := []

namespace Prompt

/-! ### The template -/

/-- A tag. -/
def tag (content : String) : String :=
  "\x7b\x7b" ++ content ++ "\x7d\x7d"

/-- Lines that are there if a value is. -/
def whenLines (path : String) (lines : List String) : List String :=
  [tag ("#if " ++ path)] ++ lines ++ [tag "/if"]

/-- Lines for every item of a value. -/
def eachLines (path : String) (lines : List String) : List String :=
  [tag ("#each " ++ path)] ++ lines ++ [tag "/each"]

/-- A text that is there if a value is. -/
def whenText (path text : String) : String :=
  tag ("#if " ++ path) ++ text ++ tag "/if"

/-- How scripts are written. -/
def writingLines : List String := [
  "# Writing code",
  "",
  "- Wrap the script between " ++ tag "fn_start" ++ " and " ++ tag "fn_end" ++
    ". Write nothing outside the markers.",
  "- Declare variables with `let`. Variables you assign are carried into the next turn.",
  "- Call tools as plain functions: `let result = lookup(input);`. Calls block until the tool returns.",
  "- Finish by returning an exit: `return #\x7b action: \"<exit>\", value: ... \x7d;`",
  "- Call `think(reason, #\x7b key: value \x7d)` to inspect values before deciding what to do.",
  "- `listen()` waits for new input. `transition(target)` and `execute(target, input)` hand control elsewhere.",
  "- `console.log(...)` output is recorded for debugging and never shown to the user."]

/-- What is told of the tools. -/
def toolLines : List String :=
  whenLines "tools" (["", "# Tools"] ++ eachLines "tools" (
    ["", "## " ++ tag "name"] ++ whenLines "description" [tag "description"] ++
      whenLines "aliases" ["Aliases: " ++ tag "aliases"] ++
      whenLines "input" ["Input schema: " ++ tag "input"] ++
      whenLines "output" ["Output schema: " ++ tag "output"]))

/-- What is told of a property or of a tool of an object. -/
def memberName : String :=
  "- `" ++ tag "../name" ++ "." ++ tag "name"

/-- The description of a thing, if there is one. -/
def describedAs : String :=
  whenText "description" (" - " ++ tag "description")

/-- What is told of the objects. -/
def objectLines : List String :=
  whenLines "objects" (["", "# Objects"] ++ eachLines "objects" (
    ["", "## " ++ tag "name"] ++ whenLines "description" [tag "description"] ++
      eachLines "properties" [
        memberName ++ "` (" ++ tag "access" ++ ")" ++ whenText "schema" (" schema: " ++ tag "schema") ++ describedAs] ++
      eachLines "tools" [memberName ++ "(input)`" ++ describedAs]) ++
    ["", "Objects are sealed: adding a property fails."] ++
    whenLines "writable" ["Writable: " ++ tag "writable"] ++
    whenLines "readonly" ["Read-only (writing fails): " ++ tag "readonly"])

/-- What is told of the exits. -/
def exitLines : List String :=
  [tag "#if exits"] ++ eachLines "exits" [
    "- `" ++ tag "name" ++ "`" ++ whenText "aliases" (" (aliases: " ++ tag "aliases" ++ ")") ++ describedAs ++
      whenText "schema" (" value schema: " ++ tag "schema")] ++
    [tag "else", "Any action name is accepted as an exit.", tag "/if"]

/-- The template of the system message. -/
def systemTemplate : String :=
  Text.unlines ([
    "You are an agent that acts by writing short Rhai scripts. Each reply is exactly one script, which the VM " ++
      "runs in a sandbox.",
    "",
    "# Identity",
    "",
    tag "identity",
    ""] ++ writingLines ++ toolLines ++ objectLines ++ ["", "# Exits", ""] ++ exitLines ++
    ["", "# Transcript", "", tag "transcript"])

/-! ### What is filled in -/

/-- A schema as text, empty if there is none. -/
def schemaText (schema : Option Json) : Json :=
  .str ((schema.map Json.compact).getD "")

/-- Names in a row. -/
def inRow (names : List String) : Json :=
  .str (", ".intercalate names)

/-- A tool as the template sees it. -/
def toolView (t : Tool) : Json :=
  .object [("name", .str t.name), ("description", .str t.description), ("aliases", inRow t.aliases),
    ("input", schemaText t.inputSchema), ("output", schemaText t.outputSchema)]

/-- A property as the template sees it. -/
def propertyView (p : Property) : Json :=
  .object [("name", .str p.name), ("access", .str (if p.writable then "writable" else "read-only")),
    ("schema", schemaText p.schema), ("description", Json.optStr p.description)]

/-- An object as the template sees it. -/
def objectView (o : ObjectInstance) : Json :=
  .object [("name", .str o.name), ("description", Json.optStr o.description),
    ("properties", .arr (o.properties.map propertyView)),
    ("tools", .arr (o.tools.map fun t => .object [("name", .str t.name), ("description", .str t.description)]))]

/-- An exit as the template sees it. -/
def exitView (e : Exit) : Json :=
  .object [("name", .str e.name), ("aliases", inRow e.aliases), ("description", .str e.description),
    ("schema", schemaText e.schema)]

/-- The names of the properties of objects that can be written, or of those that cannot. -/
def propertyNames (writable : Bool) (objects : List ObjectInstance) : List String :=
  objects.flatMap fun o =>
    (o.properties.filter (·.writable == writable)).map fun p => o.name ++ "." ++ p.name

/-- What was said so far. -/
def transcriptText (transcript : List Message) : String :=
  if transcript.isEmpty then "No messages yet."
  else Wrapping.wrapWith
    (Text.unlines (transcript.map fun m => m.role.name ++ ": " ++ Text.trim m.content)) { keep := .bottom }

/-- Who the model is to be. -/
def identityText (instructions : String) : String :=
  if Text.isBlankText instructions then "No specific instructions provided"
  else Wrapping.wrap (Text.trim instructions)

/-- The values of the template. -/
def systemValues (i : PromptInputs) : Json :=
  .object [("identity", .str (identityText i.instructions)), ("fn_start", .str Fence.opening),
    ("fn_end", .str Fence.closing), ("tools", .arr (i.tools.map toolView)),
    ("objects", .arr (i.objects.map objectView)), ("writable", inRow (propertyNames true i.objects)),
    ("readonly", inRow (propertyNames false i.objects)), ("exits", .arr (i.exits.map exitView)),
    ("transcript", .str (transcriptText i.transcript))]

/-- The system message; the template is one, so there always is a message. -/
def systemMessage? (i : PromptInputs) : Option Message :=
  (Template.render? systemTemplate (systemValues i)).map Message.system

/-! ### The first message of the user -/

/-- What a response looks like. -/
def expectedOutput : String :=
  "Expected output:\n\n```rhai\n" ++ Fence.opening ++ "\n// code here\n" ++ Fence.closing ++ "\n```"

/-- What was said last, between markers of its own. -/
def quotedSpeech (content : String) : String :=
  "\n■im_start\n" ++ Text.trim content ++ "\n■im_end"

/-- Who spoke last. -/
def recap (transcript : List Message) : String :=
  let nobody := "Nobody has spoken yet in this conversation. You can start by saying something."
  match transcript.getLast? with
  | none => nobody
  | some last =>
    match last.role with
    | .user => "The user spoke last. Here's what they said:" ++ quotedSpeech last.content
    | .assistant => "You are the one who spoke last. Here's what you said last:" ++ quotedSpeech last.content
    | .system => nobody

/-- The first message of the user. -/
def userMessage (i : PromptInputs) : Message :=
  .user (recap i.transcript ++ "\n\nWrite the script for your next action.\n\n" ++ expectedOutput)

end Prompt

end ScriptAgent
