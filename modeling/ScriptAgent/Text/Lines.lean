/-!
# Lines of a text

A line ends with a line feed, which a carriage return may precede; the last line need not end.
-/

namespace ScriptAgent.Text

/-- The line read so far, without the carriage return before its line feed. -/
def endedLine (reversed : List Char) : List Char :=
  match reversed with
  | '\r' :: rest => rest.reverse
  | _ => reversed.reverse

/-- The lines of a text, `current` holding the characters of the line being read, in reverse. -/
def linesFrom (current : List Char) : List Char → List (List Char)
  | [] => if current.isEmpty then [] else [current.reverse]
  | '\n' :: rest => endedLine current :: linesFrom [] rest
  | c :: rest => linesFrom (c :: current) rest

/-- The lines of a list of characters. -/
def lineChars (cs : List Char) : List (List Char) :=
  linesFrom [] cs

/-- The lines of a text. -/
def lines (s : String) : List String :=
  (lineChars s.toList).map String.ofList

/-- Lines joined by line feeds, none after the last. -/
def unlines (ls : List String) : String :=
  "\n".intercalate ls

example : lines "a\r\nb\n\nc\r" = ["a", "b", "", "c\r"] ∧ lines "" = [] ∧ lines "\n" = [""] := by decide +kernel

end ScriptAgent.Text
