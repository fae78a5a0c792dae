import ScriptAgent.Text.Find
import ScriptAgent.Text.Lines

/-!
# Excerpts

The lines of a script with their numbers, one of them marked.
-/

namespace ScriptAgent

namespace Excerpt

/-- A line behind its mark and its number of at least three digits. -/
def numbered (marked : Bool) (number : Nat) (text : String) : String :=
  (if marked then ">" else " ") ++ " " ++ Text.padLeft 3 '0' (toString number) ++ " | " ++ text

/-- How far the text of a numbered line is moved to the right. -/
def margin : Nat := 8

/-- The line that points at a column. -/
def caretLine (column : Nat) : String :=
  Text.repeated (margin + (max column 1 - 1)) " " ++ "^^^^^^^^^^"

/-- Numbered lines, the first of them with the given number; a line below the marked one points at
the column. -/
def withCaret (line : Nat) (column : Option Nat) : Nat → List String → List String
  | _, [] => []
  | number, text :: rest =>
    if number == line then
      numbered true number text :: caretLine (column.getD 1) :: withCaret line column (number + 1) rest
    else numbered false number text :: withCaret line column (number + 1) rest

/-- Numbered lines with one marked. -/
def withMark (line : Nat) : Nat → List String → List String
  | _, [] => []
  | number, text :: rest => numbered (number == line) number text :: withMark line (number + 1) rest

/-- The whole script with the line that failed and a caret below its column. -/
def ofError (source : String) (line : Nat) (column : Option Nat) : String :=
  "\n".intercalate (withCaret line column 1 (Text.lines source))

/-- The script up to the line where it paused. -/
def ofSignal (source : String) (line : Nat) : String :=
  "\n".intercalate (withMark line 1 ((Text.lines source).take (max line 1)))

end Excerpt

end ScriptAgent
