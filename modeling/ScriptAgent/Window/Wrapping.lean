import ScriptAgent.Text.Blank
import ScriptAgent.Text.Find
import ScriptAgent.Text.Hex

/-!
# Wrapped text

Text between markers may be shortened when a message window is too large; everything outside of
markers is kept as it is.  The opening marker says how its text may shrink.
-/

namespace ScriptAgent

/-- Which end of a wrapped text is kept. -/
inductive Keep where
  | top
  | bottom
  /-- Both ends are kept, and the middle goes. -/
  | ends
deriving DecidableEq, Repr

/-- How a wrapped text may shrink. -/
structure WrapOptions where
  keep : Keep := .top
  /-- The weight of a token when it is decided what to cut. -/
  flex : Nat := 1
  /-- How many tokens are always left. -/
  least : Nat := 0
deriving DecidableEq, Repr

/-- A piece of a message. -/
structure Part where
  content : List Char
  /-- How it may shrink, if it may. -/
  wrapping : Option WrapOptions := none
deriving DecidableEq, Repr

namespace Keep

/-- The name of a side as markers have it. -/
def name : Keep → String
  | top => "top"
  | bottom => "bottom"
  | ends => "both"

/-- The side of a name; any other name means the top. -/
def ofName (s : String) : Keep :=
  if s == "bottom" then bottom else if s == "both" then ends else top

end Keep

namespace Text

/-- How many tokens so many characters are about. -/
def tokensOf (characters : Nat) : Nat :=
  (characters + 3) / 4

/-- About how many tokens a text has. -/
def tokens (s : String) : Nat :=
  tokensOf s.length

/-- The words of a text, which blanks separate, `current` being read in reverse. -/
def wordsFrom (current : List Char) : List Char → List (List Char)
  | [] => if current.isEmpty then [] else [current.reverse]
  | c :: rest =>
    if isBlank c then
      if current.isEmpty then wordsFrom [] rest else current.reverse :: wordsFrom [] rest
    else wordsFrom (c :: current) rest

/-- The natural number a text writes, if it is at most the given one. -/
def natUpTo? (greatest : Nat) (cs : List Char) : Option Nat :=
  let digits := match cs with
    | '+' :: rest => rest
    | _ => cs
  if digits.isEmpty || !digits.all Char.isDigit then none
  else
    let n := readDecimal digits
    if n ≤ greatest then some n else none

end Text

namespace Wrapping

/-- What an opening marker starts with. -/
def opening : List Char := "【TRUNCATE".toList

/-- What ends an opening marker. -/
def openingEnd : List Char := "】".toList

/-- The closing marker. -/
def closing : List Char := "【/TRUNCATE】".toList

/-- The options as an opening marker has them. -/
def optionText (o : WrapOptions) : String :=
  "preserve:" ++ o.keep.name ++ " flex:" ++ toString o.flex ++ " min:" ++ toString o.least

/-- A text between markers. -/
def wrapWith (content : String) (o : WrapOptions) : String :=
  String.ofList opening ++ " " ++ optionText o ++ " " ++ String.ofList openingEnd ++ content ++
    String.ofList closing

/-- A text between markers without options of its own. -/
def wrap (content : String) : String :=
  wrapWith content {}

/-- The options with one word of an opening marker taken into account. -/
def readOption (o : WrapOptions) (word : List Char) : WrapOptions :=
  match Text.cut? [':'] word with
  | none => o
  | some (key, value) =>
    match String.ofList key with
    | "preserve" => { o with keep := Keep.ofName (String.ofList value) }
    | "flex" => { o with flex := max ((Text.natUpTo? (UInt32.size - 1) value).getD 1) 1 }
    | "min" => { o with least := (Text.natUpTo? (UInt64.size - 1) value).getD 0 }
    | _ => o

/-- The options that an opening marker states. -/
def readOptions (attributes : List Char) : WrapOptions :=
  (Text.wordsFrom [] attributes).foldl readOption {}

/-- The first wrapped text: what stands before it, its options, its content, and what follows. -/
def firstWrapped? (cs : List Char) : Option (List Char × WrapOptions × List Char × List Char) := do
  let (before, rest) ← Text.cut? opening cs
  let (attributes, rest) ← Text.cut? openingEnd rest
  let (content, rest) ← Text.cut? closing rest
  return (before, readOptions attributes, content, rest)

/-- A part that is kept as it is, if it is not empty. -/
def fixedPart (cs : List Char) : List Part :=
  if cs.isEmpty then [] else [⟨cs, none⟩]

/-- The parts of characters; the fuel bounds the number of wrapped texts. -/
def partsFrom : Nat → List Char → List Part
  | 0, cs => fixedPart cs
  | fuel + 1, cs =>
    match firstWrapped? cs with
    | none => fixedPart cs
    | some (before, options, content, rest) =>
      fixedPart before ++ ⟨content, some options⟩ :: partsFrom fuel rest

/-- The parts of a text in order. -/
def parts (s : String) : List Part :=
  partsFrom s.length s.toList

/-- The contents of parts, one after the other. -/
def join (ps : List Part) : String :=
  String.ofList (ps.flatMap (·.content))

/-- A text without its markers. -/
def strip (s : String) : String :=
  join (parts s)

example : parts ("a" ++ wrapWith "b" { keep := .ends, flex := 4, least := 7 }) =
    [⟨['a'], none⟩, ⟨['b'], some { keep := .ends, flex := 4, least := 7 }⟩] := by decide +kernel

end Wrapping

end ScriptAgent
