import ScriptAgent.Loop.Turn
import ScriptAgent.Model.Anthropic
import ScriptAgent.Number.Text
import ScriptAgent.Settings.Scalar

/-!
# Settings

Settings are read from a document with four sections; whatever is not written there has a default.
-/

namespace ScriptAgent

/-- All settings. -/
structure Settings where
  loopLimit : Nat := 3
  /-- A single, widened. -/
  temperature : Float := Number.toSingle 0.7
  /-- The model of the loop, if it is not that of the client. -/
  loopModel : Option String := none
  backend : Backend := .inline
  timeout : Nat := 60000
  memoryMegabytes : Nat := 32
  slowTool : Nat := 15000
  client : AnthropicSettings := {}

namespace Settings

/-! ### Reading -/

/-- The greatest number of 32 bits. -/
def greatest32 : Nat := UInt32.size - 1

/-- The greatest number of 64 bits. -/
def greatest64 : Nat := UInt64.size - 1

/-- Reads the section of the loop. -/
def readLoop (s : Settings) (v : Yaml) : Option Settings := do
  let f ← v.fields? ["loop-limit", "temperature", "model"]
  return { s with
    loopLimit := ← Yaml.fieldOr (Yaml.natUpTo? greatest32) s.loopLimit f 0
    temperature := ← Yaml.fieldOr (fun v => v.float?.map Number.toSingle) s.temperature f 1
    loopModel := ← Yaml.fieldOr Yaml.optText? s.loopModel f 2 }

/-- Reads the name of a backend, which has small letters here. -/
def readBackend? (v : Yaml) : Option Backend := do
  let name ← v.text?
  [Backend.inline, .isolated].find? (·.name == name)

/-- Reads the section of the sandbox. -/
def readSandbox (s : Settings) (v : Yaml) : Option Settings := do
  let f ← v.fields? ["backend", "timeout-ms", "memory-limit-mb"]
  return { s with
    backend := ← Yaml.fieldOr readBackend? s.backend f 0
    timeout := ← Yaml.fieldOr (Yaml.natUpTo? greatest64) s.timeout f 1
    memoryMegabytes := ← Yaml.fieldOr (Yaml.natUpTo? greatest64) s.memoryMegabytes f 2 }

/-- Reads the section of tools. -/
def readTools (s : Settings) (v : Yaml) : Option Settings := do
  let f ← v.fields? ["slow-tool-warning-ms"]
  return { s with slowTool := ← Yaml.fieldOr (Yaml.natUpTo? greatest64) s.slowTool f 0 }

/-- Reads the section of the client. -/
def readClient (s : Settings) (v : Yaml) : Option Settings := do
  let f ← v.fields? ["model", "max-tokens", "timeout-ms", "api-key-env", "context-window"]
  let c := s.client
  return { s with client := {
    model := ← Yaml.fieldOr Yaml.text? c.model f 0
    maxTokens := ← Yaml.fieldOr (Yaml.natUpTo? greatest32) c.maxTokens f 1
    timeoutMillis := ← Yaml.fieldOr (Yaml.natUpTo? greatest64) c.timeoutMillis f 2
    keyVariable := ← Yaml.fieldOr Yaml.text? c.keyVariable f 3
    contextWindow := ← Yaml.fieldOr (Yaml.natUpTo? greatest64) c.contextWindow f 4 } }

/-- Reads a section if it is there. -/
def readSection (read : Settings → Yaml → Option Settings) (fields : List (Option Yaml)) (place : Nat)
    (s : Settings) : Option Settings :=
  Yaml.fieldOr (read s) s fields place

/-- Reads settings. -/
def ofYaml? (v : Yaml) : Option Settings := do
  let f ← v.fields? ["engine", "vm", "tools", "llm"]
  let s ← readSection readLoop f 0 {}
  let s ← readSection readSandbox f 1 s
  let s ← readSection readTools f 2 s
  readSection readClient f 3 s

/-- The settings that a text holds. -/
def parse? (text : String) : Option Settings :=
  (Yaml.parse? text).bind ofYaml?

/-! ### Use -/

/-- What is wrong with settings, if anything is. -/
def problem? (s : Settings) : Option String :=
  if s.loopLimit < 1 || 100 < s.loopLimit then some "engine.loop-limit must be between 1 and 100"
  else if !(0.0 ≤ s.temperature && s.temperature ≤ 2.0) then some "engine.temperature must be between 0 and 2"
  else if s.timeout == 0 then some "vm.timeout-ms must be > 0"
  else if s.memoryMegabytes == 0 then some "vm.memory-limit-mb must be > 0"
  else if s.client.maxTokens == 0 then some "llm.max-tokens must be > 0"
  else none

/-- The model of the loop. -/
def model (s : Settings) : String :=
  s.loopModel.getD s.client.model

/-- What governs a run. -/
def contextOptions (s : Settings) : ContextOptions :=
  ⟨s.loopLimit, s.temperature, s.model⟩

/-- The limits of scripts. -/
def limits (s : Settings) : Limits :=
  ⟨s.timeout, s.memoryMegabytes * 1048576, s.slowTool⟩

/-- How scripts of the loop are run. -/
def loopSettings (s : Settings) : LoopSettings :=
  ⟨s.backend, s.limits, some s.client.maxTokens⟩

/-- The settings of the client for the model of the loop. -/
def clientSettings (s : Settings) : AnthropicSettings :=
  { s.client with model := s.model }

/-! ### Writing -/

/-- The JSON form of settings. -/
def toJson (s : Settings) : Json :=
  .object [
    ("engine", .recordOf [("loop-limit", some (.nat s.loopLimit)), ("temperature", some (.float s.temperature)),
      ("model", s.loopModel.map .str)]),
    ("vm", .object [("backend", .str s.backend.name), ("timeout-ms", .nat s.timeout),
      ("memory-limit-mb", .nat s.memoryMegabytes)]),
    ("tools", .object [("slow-tool-warning-ms", .nat s.slowTool)]),
    ("llm", .object [("model", .str s.client.model), ("max-tokens", .nat s.client.maxTokens),
      ("timeout-ms", .nat s.client.timeoutMillis), ("api-key-env", .str s.client.keyVariable),
      ("context-window", .nat s.client.contextWindow)])]

/-- Settings as the lines of a document. -/
def lines (s : Settings) : List String :=
  ["engine:",
    "  loop-limit: " ++ toString s.loopLimit,
    "  temperature: " ++ Number.singleText s.temperature] ++
  (s.loopModel.toList.map fun m => "  model: " ++ Yaml.written m) ++
  ["vm:",
    "  backend: " ++ s.backend.name,
    "  timeout-ms: " ++ toString s.timeout,
    "  memory-limit-mb: " ++ toString s.memoryMegabytes,
    "tools:",
    "  slow-tool-warning-ms: " ++ toString s.slowTool,
    "llm:",
    "  model: " ++ Yaml.written s.client.model,
    "  max-tokens: " ++ toString s.client.maxTokens,
    "  timeout-ms: " ++ toString s.client.timeoutMillis,
    "  api-key-env: " ++ Yaml.written s.client.keyVariable,
    "  context-window: " ++ toString s.client.contextWindow]

end Settings

end ScriptAgent
