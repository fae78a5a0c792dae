import ScriptAgent.Text.Blank

/-!
# Where statements begin

A scanner reads a script line by line.  Between lines it remembers the open brackets, whether a
comment or a back-tick text goes on, and whether the last statement had ended.  That is enough to
tell whether the next line begins a statement.
-/

namespace ScriptAgent

/-- What an open bracket encloses. -/
inductive Bracket where
  | block
  | map
  | switch
  | array
  | paren
deriving DecidableEq, Repr

/-- What the scanner knows between two lines. -/
structure LineScanner where
  stack : List Bracket := []
  inComment : Bool := false
  inBacktick : Bool := false
  statementEnded : Bool := true
deriving DecidableEq, Repr

namespace LineScanner

/-- How many brackets are open. -/
def depth (s : LineScanner) : Nat :=
  s.stack.length

/-- Whether a statement can begin here. -/
def atStatementStart (s : LineScanner) : Bool :=
  !s.inComment && !s.inBacktick && s.statementEnded &&
    match s.stack with
    | [] => true
    | top :: _ => top == .block

end LineScanner

/-- The scanner inside a line. -/
structure LineScan where
  scanner : LineScanner
  /-- The characters of the line read so far, in reverse. -/
  seen : List Char := []
  /-- The quote that is open; it closes at the end of the line at the latest. -/
  quote : Option Char := none
  /-- Whether the next character is passed over. -/
  skip : Bool := false
  /-- Whether the last piece of code ended a statement. -/
  ends : Option Bool := none

/-- The words in a list of characters. -/
def wordsOf (current : List Char) : List Char → List (List Char)
  | [] => [current.reverse]
  | c :: rest =>
    if c.isAlphanum || c == '_' then wordsOf (c :: current) rest else current.reverse :: wordsOf [] rest

/-- What a brace encloses, judged by what precedes it in its line. -/
def braceKind (seen : List Char) : Bracket :=
  if seen.find? (fun c => !Text.isBlank c) == some '#' then .map
  else if (wordsOf [] seen.reverse).contains "switch".toList then .switch
  else .block

namespace LineScan

/-- One character read. -/
def pass (s : LineScan) (c : Char) : LineScan :=
  { s with seen := c :: s.seen }

/-- One character of code, no comment and no text starting here. -/
def code (s : LineScan) (c : Char) : LineScan :=
  let k := s.scanner
  if c == '\x7b' then
    let kind := braceKind s.seen
    { s with scanner := { k with stack := kind :: k.stack }, ends := some (kind == .block) }
  else if c == '[' then { s with scanner := { k with stack := .array :: k.stack }, ends := some false }
  else if c == '(' then { s with scanner := { k with stack := .paren :: k.stack }, ends := some false }
  else if c == '\x7d' then
    let closed := match k.stack with
      | .block :: _ | .switch :: _ => true
      | _ => false
    { s with scanner := { k with stack := k.stack.drop 1 }, ends := some closed }
  else if c == ']' || c == ')' then
    { s with scanner := { k with stack := k.stack.drop 1 }, ends := some false }
  else if c == ';' then { s with ends := some true }
  else if !Text.isBlank c then { s with ends := some false }
  else s

/-- The rest of a line. -/
def run (s : LineScan) : List Char → LineScan
  | [] => s
  | c :: rest =>
    let next := rest.head?
    if s.skip then run ({ s with skip := false }.pass c) rest
    else
      match s.quote with
      | some q =>
        if c == '\\' then run ({ s with skip := true }.pass c) rest
        else if c == q then run ({ s with quote := none }.pass c) rest
        else run (s.pass c) rest
      | none =>
        if s.scanner.inComment then
          if c == '*' && next == some '/' then
            run ({ s with scanner := { s.scanner with inComment := false }, skip := true }.pass c) rest
          else run (s.pass c) rest
        else if s.scanner.inBacktick then
          if c == '\\' then run ({ s with skip := true }.pass c) rest
          else if c == Char.ofNat 96 then
            run ({ s with scanner := { s.scanner with inBacktick := false }, ends := some false }.pass c) rest
          else run (s.pass c) rest
        else if c == '/' && next == some '/' then s
        else if c == '/' && next == some '*' then
          run ({ s with scanner := { s.scanner with inComment := true }, skip := true }.pass c) rest
        else if c == '"' || c == '\'' then run ({ s with quote := some c, ends := some false }.pass c) rest
        else if c == Char.ofNat 96 then
          run ({ s with scanner := { s.scanner with inBacktick := true } }.pass c) rest
        else run ((s.code c).pass c) rest

end LineScan

/-- The scanner after one more line. -/
def LineScanner.scan (s : LineScanner) (line : List Char) : LineScanner :=
  let after := LineScan.run { scanner := s } line
  match after.ends with
  | some ended => { after.scanner with statementEnded := ended }
  | none => after.scanner

end ScriptAgent
