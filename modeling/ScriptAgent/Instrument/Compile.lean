import ScriptAgent.Instrument.Hooks
import ScriptAgent.Script.Parser

/-!
# Compiling scripts

A script is compiled by putting hooks into it and parsing the result.  Where only the script
without hooks parses, it runs without them.
-/

namespace ScriptAgent

/-- A script ready to run. -/
structure Compiled where
  /-- The script as it was written. -/
  source : String
  /-- The script as it runs. -/
  code : String
  map : SourceMap
  /-- The outermost names that the script declares or assigns. -/
  «variables» : NameSet
  /-- Those of them it declares. -/
  declared : NameSet
  /-- The announced calls by number. -/
  calls : List (Nat × Assignment)
deriving DecidableEq, Repr

/-- Why a script does not compile. -/
structure CompileError where
  message : String
  line : Nat
  column : Nat
deriving DecidableEq, Repr

/-- The text of a compile error. -/
def CompileError.render (e : CompileError) : String :=
  e.message ++ " (line " ++ toString e.line ++ ", column " ++ toString e.column ++ ")"

/-- A script that runs as it was written. -/
def Compiled.plain (source : String) : Compiled :=
  ⟨source, source, .identity (Text.lines source).length, [], [], []⟩

/-- Compiles a script. -/
def compile (source : String) : Except CompileError Compiled :=
  let r := instrument source
  let names := NameSet.union r.declared r.assigned
  let instrumented := joinLines r.instrumented
  match Script.parse instrumented {} with
  | .ok _ => .ok ⟨source, instrumented, ⟨r.map⟩, names, r.declared, r.calls⟩
  | .error _ =>
    let plain := joinLines r.plain
    match Script.parse plain {} with
    | .ok _ => .ok ⟨source, plain, .identity (Text.lines source).length, names, r.declared, []⟩
    | .error e => .error ⟨e.fault.message, e.pos.line, e.pos.column⟩

end ScriptAgent
