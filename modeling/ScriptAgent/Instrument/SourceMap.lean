/-!
# From instrumented places back to the script

Instrumentation keeps lines and only puts hooks after a line's indentation.  A source map holds the
sizes of both for every line.
-/

namespace ScriptAgent

/-- For every line, the size of its indentation and of the hooks put after it. -/
structure SourceMap where
  lines : List (Nat × Nat)
deriving DecidableEq, Repr

namespace SourceMap

/-- The map of a script without hooks. -/
def identity (count : Nat) : SourceMap :=
  ⟨List.replicate count (0, 0)⟩

/-- The number of lines. -/
def lineCount (m : SourceMap) : Nat :=
  m.lines.length

/-- The column of the script that a column of the instrumented line stands for; a place inside the
hooks stands for the first column after the indentation. -/
def sourceColumn (m : SourceMap) (line column : Nat) : Nat :=
  match m.lines[line - 1]? with
  | none => column
  | some (indent, hooks) =>
    if column > indent + hooks then column - hooks else max (min column (indent + 1)) 1

end SourceMap

end ScriptAgent
