import ScriptAgent.Json.Printer
import ScriptAgent.Text.Blank
import ScriptAgent.Text.Find
import ScriptAgent.Text.Hex
import ScriptAgent.Text.Lines

/-!
# Templates

A template is text with tags between double braces: a path stands for a value, and blocks repeat or
leave out what they enclose.  A tag of a block that is alone on its line takes the line with it.
-/

namespace ScriptAgent

/-- The way to a value. -/
structure TemplatePath where
  /-- How many enclosing blocks are left first. -/
  up : Nat
  keys : List String
deriving DecidableEq, Repr

/-- A tag as it is written. -/
inductive TemplateTag where
  | value (path : TemplatePath)
  /-- A helper with arguments in the place of a value. -/
  | helper (name : String)
  | opening (name : String) (argument : Option TemplatePath)
  | otherwise
  | closing (name : String)
deriving DecidableEq, Repr

/-- A tag and the text that follows it. -/
structure TemplateSegment where
  tag : TemplateTag
  text : List Char
deriving DecidableEq, Repr

/-- A piece of a template. -/
inductive TemplatePiece where
  | text (content : List Char)
  | value (path : TemplatePath)
  | helper (name : String)
  | block (name : String) (argument : Option TemplatePath) (body otherwise : List TemplatePiece)

namespace Template

/-! ### Tags -/

/-- Whether a character may stand in a name. -/
def isNameChar (c : Char) : Bool :=
  c.isAlphanum || c == '_' || c == '-' || c == '$' || 0x80 ≤ c.toNat

/-- The keys of a path without `this`, if each is a name. -/
def keysOf? (pieces : List (List Char)) : Option (List String) :=
  if pieces.all fun p => !p.isEmpty && p.all isNameChar then
    some ((pieces.map String.ofList).filter (· != "this"))
  else none

/-- The path that the pieces between separators write. -/
def pathOf? (up : Nat) : List (List Char) → Option TemplatePath
  | ['.', '.'] :: rest => pathOf? (up + 1) rest
  | pieces => (keysOf? pieces).map (⟨up, ·⟩)

/-- The pieces between slashes, and between dots where no dots lead up. -/
def pathPieces (word : List Char) : List (List Char) :=
  (Text.splitChars ['/'] word.length word).flatMap fun piece =>
    if piece == ['.', '.'] then [piece] else Text.splitChars ['.'] piece.length piece

/-- Reads a path. -/
def readPath? (word : List Char) : Option TemplatePath :=
  pathOf? 0 (pathPieces word)

/-- The words of a tag. -/
def tagWords (cs : List Char) : List (List Char) :=
  (Text.splitChars [' '] cs.length (cs.map fun c => if Text.isBlank c then ' ' else c)).filter (!·.isEmpty)

/-- Reads what stands between the braces of a tag. -/
def readTag? (cs : List Char) : Option TemplateTag :=
  match Text.trimChars cs with
  | '#' :: rest =>
    match tagWords rest with
    | [name] => if name.all isNameChar then some (.opening (String.ofList name) none) else none
    | [name, argument] =>
      if name.all isNameChar then (readPath? argument).map fun p => .opening (String.ofList name) (some p)
      else none
    | _ => none
  | '/' :: rest =>
    match tagWords rest with
    | [name] => some (.closing (String.ofList name))
    | _ => none
  | word =>
    match tagWords word with
    | [name] =>
      if name == "else".toList || name == ['^'] then some .otherwise else (readPath? name).map .value
    | name :: _ => if name.all isNameChar && name != "else".toList then some (.helper (String.ofList name)) else none
    | [] => none

/-- The text before the first tag, and the tags with the texts after them; the fuel bounds their
number. -/
def split? : Nat → List Char → Option (List Char × List TemplateSegment)
  | 0, cs => some (cs, [])
  | fuel + 1, cs =>
    match Text.cut? ['\x7b', '\x7b'] cs with
    | none => some (cs, [])
    | some (before, rest) => do
      let (inside, rest) ← Text.cut? ['\x7d', '\x7d'] rest
      let tag ← readTag? inside
      let (text, segments) ← split? fuel rest
      return (before, ⟨tag, text⟩ :: segments)

/-! ### Lines -/

/-- A blank within a line. -/
def isSpace (c : Char) : Bool :=
  c == ' ' || c == '\t'

/-- Whether the characters start with an empty rest of a line. -/
def startsEmpty (cs : List Char) : Bool :=
  match cs.dropWhile isSpace with
  | c :: _ => c == '\n' || c == '\r'
  | [] => false

/-- Whether the characters end with an empty start of a line. -/
def endsEmpty (atStart : Bool) (cs : List Char) : Bool :=
  match cs.reverse.dropWhile isSpace with
  | c :: _ => c == '\n' || c == '\r'
  | [] => atStart

/-- Characters without the rest of the line they start with. -/
def dropLineEnd (cs : List Char) : List Char :=
  match cs.dropWhile isSpace with
  | '\r' :: '\n' :: rest => rest
  | '\n' :: rest => rest
  | rest => rest

/-- Characters without the start of the line they end with. -/
def dropLineStart (cs : List Char) : List Char :=
  (cs.reverse.dropWhile isSpace).reverse

/-- Whether a tag may take its line with it. -/
def takesLine : TemplateTag → Bool
  | .value _ | .helper _ => false
  | _ => true

/-- Lines that only have a tag of a block are taken away: `text` stands before the segments, and
`taken` says whether the tag before it was alone on its line. -/
def takeLines (atStart taken : Bool) (text : List Char) : List TemplateSegment → List Char × List TemplateSegment
  | [] => (if taken then dropLineEnd text else text, [])
  | s :: rest =>
    let alone := takesLine s.tag && startsEmpty s.text && endsEmpty atStart text
    let own := if taken then dropLineEnd text else text
    let own := if alone then dropLineStart own else own
    let (after, segments) := takeLines false alone s.text rest
    (own, ⟨s.tag, after⟩ :: segments)

/-! ### Blocks -/

/-- A block that is not closed yet. -/
structure Frame where
  name : String
  argument : Option TemplatePath
  /-- The pieces of the part that is being read, latest first. -/
  pieces : List TemplatePiece := []
  /-- The part before `else`. -/
  body : Option (List TemplatePiece) := none

/-- One more piece of the innermost block. -/
def addPiece (p : TemplatePiece) : List Frame → List Frame
  | [] => []
  | f :: rest => { f with pieces := p :: f.pieces } :: rest

/-- The block that a frame is closed to. -/
def Frame.close (f : Frame) : TemplatePiece :=
  match f.body with
  | none => .block f.name f.argument f.pieces.reverse []
  | some body => .block f.name f.argument body f.pieces.reverse

/-- The open blocks after a tag. -/
def applyTag (frames : List Frame) : TemplateTag → Option (List Frame)
  | .value path => some (addPiece (.value path) frames)
  | .helper name => some (addPiece (.helper name) frames)
  | .opening name argument => some ({ name, argument } :: frames)
  | .otherwise =>
    match frames with
    | f :: outer :: rest =>
      if f.body.isSome then none
      else some ({ f with body := some f.pieces.reverse, pieces := [] } :: outer :: rest)
    | _ => none
  | .closing name =>
    match frames with
    | f :: outer :: rest => if f.name == name then some (addPiece f.close (outer :: rest)) else none
    | _ => none

/-- The pieces of a template whose first tags left blocks open, the last frame being the template
itself. -/
def assemble (frames : List Frame) : List TemplateSegment → Option (List TemplatePiece)
  | [] =>
    match frames with
    | [f] => some f.pieces.reverse
    | _ => none
  | s :: rest => do
    let frames ← applyTag frames s.tag
    assemble (addPiece (.text s.text) frames) rest

/-- Reads a template. -/
def parse? (source : String) : Option (List TemplatePiece) := do
  let (first, segments) ← split? source.length source.toList
  let (first, segments) := takeLines true false first segments
  assemble [{ name := "", argument := none, pieces := [.text first] }] segments

/-! ### Values -/

mutual

/-- The text of a value. -/
def textOf : Json → String
  | .null => ""
  | .bool b => if b then "true" else "false"
  | .num n => (Json.num n).compact
  | .str s => s
  | .arr items => "[" ++ ", ".intercalate (textsOf items) ++ "]"
  | .obj _ => "[object]"

/-- The texts of values. -/
def textsOf : List Json → List String
  | [] => []
  | v :: rest => textOf v :: textsOf rest

end

/-- Whether a value counts as true. -/
def isTrue : Json → Bool
  | .null => false
  | .bool b => b
  | .num n => Number.exponentField n.toFloat != 0
  | .str s => !s.isEmpty
  | .arr items => !items.isEmpty
  | .obj fields => !fields.isEmpty

/-- The value below a value, null if there is none; a list has no names in it. -/
def below? : List String → Json → Option Json
  | [], v => some v
  | key :: rest, .obj fields => below? rest ((Dict.get? fields key).getD .null)
  | key :: rest, .arr items =>
    if key.toList.all Char.isDigit then below? rest (items.getD (Text.readDecimal key.toList) .null) else none
  | _ :: rest, _ => below? rest .null

/-- The value of a path, given the values of the enclosing blocks, the innermost first. -/
def lookup? (stack : List Json) (path : TemplatePath) : Option Json :=
  below? path.keys ((stack[path.up]?).getD (stack.getLastD .null))

/-- What a block goes through: the items of a list or the values of an object. -/
def itemsOf : Json → List Json
  | .arr items => items
  | .obj fields => fields.map (·.2)
  | _ => []

/-! ### Rendering -/

mutual

/-- The text of a piece, if everything in it can be evaluated. -/
def renderPiece (stack : List Json) : TemplatePiece → Option String
  | .text content => some (String.ofList content)
  | .value path => (lookup? stack path).map textOf
  | .helper _ => none
  | .block "if" (some path) body otherwise => do
    if isTrue (← lookup? stack path) then renderPieces stack body else renderPieces stack otherwise
  | .block "each" (some path) body otherwise => do
    let items := itemsOf (← lookup? stack path)
    if items.isEmpty then renderPieces stack otherwise
    else
      let texts ← items.mapM fun item => renderPieces (item :: stack) body
      return String.join texts
  | .block _ _ _ _ => none

/-- The text of pieces. -/
def renderPieces (stack : List Json) : List TemplatePiece → Option String
  | [] => some ""
  | p :: rest => do return (← renderPiece stack p) ++ (← renderPieces stack rest)

end

/-- Lines without a blank line after a blank line, `afterBlank` saying whether the line before was
blank; a blank line becomes empty. -/
def collapse (afterBlank : Bool) : List String → List String
  | [] => []
  | line :: rest =>
    if Text.isBlankText line then if afterBlank then collapse true rest else "" :: collapse true rest
    else line :: collapse false rest

/-- A template filled in; runs of blank lines become one. -/
def render? (source : String) (context : Json) : Option String := do
  let text ← renderPieces [context] (← parse? source)
  return Text.trim (Text.unlines (collapse false (Text.lines text)))

end Template

end ScriptAgent
