/-!
# Finding and replacing pieces of a text
-/

namespace ScriptAgent.Text

/-- What follows the given start, if the characters start with it. -/
def afterStart? : List Char → List Char → Option (List Char)
  | [], cs => some cs
  | _ :: _, [] => none
  | p :: ps, c :: cs => if p == c then afterStart? ps cs else none

/-- The characters before and after the first occurrence of a piece. -/
def cut? (piece : List Char) : List Char → Option (List Char × List Char)
  | [] => if piece.isEmpty then some ([], []) else none
  | c :: cs =>
    match afterStart? piece (c :: cs) with
    | some rest => some ([], rest)
    | none => (cut? piece cs).map fun (before, after) => (c :: before, after)

/-- Whether a piece occurs in the characters. -/
def occurs (piece cs : List Char) : Bool :=
  (cut? piece cs).isSome

/-- Whether a piece occurs in a text. -/
def contains (s piece : String) : Bool :=
  occurs piece.toList s.toList

/-- The pieces between the occurrences of a separator; the fuel bounds their number. -/
def splitChars (separator : List Char) : Nat → List Char → List (List Char)
  | 0, cs => [cs]
  | fuel + 1, cs =>
    match cut? separator cs with
    | none => [cs]
    | some (before, after) => before :: splitChars separator fuel after

/-- A text cut at every occurrence of a separator that is not empty. -/
def splitOn (s separator : String) : List String :=
  let cs := s.toList
  (splitChars separator.toList cs.length cs).map String.ofList

/-- A text with every occurrence of a piece replaced. -/
def replace (s piece replacement : String) : String :=
  replacement.intercalate (splitOn s piece)

/-- A text repeated `n` times. -/
def repeated (n : Nat) (s : String) : String :=
  String.join (List.replicate n s)

/-- A text filled up on the left to the given width. -/
def padLeft (width : Nat) (fill : Char) (s : String) : String :=
  String.ofList (List.replicate (width - s.length) fill) ++ s

/-- A text filled up on the right to the given width. -/
def padRight (width : Nat) (fill : Char) (s : String) : String :=
  s ++ String.ofList (List.replicate (width - s.length) fill)

example : splitOn "a--b----c" "--" = ["a", "b", "", "c"] ∧ replace "abab" "b" "c" = "acac" := by decide +kernel

end ScriptAgent.Text
