import ScriptAgent.Instrument.LineScanner
import ScriptAgent.Instrument.Names
import ScriptAgent.Instrument.SourceMap
import ScriptAgent.Json.Basic
import ScriptAgent.Text.Find
import ScriptAgent.Text.Lines

/-!
# Putting hooks into a script

Every line that begins a statement gets a hook that tells the sandbox its number, and a second one
when it assigns the result of a call.  A line that is a comment becomes a call that records it, and
`yield x;` becomes a call of the yield hook.  Lines never move.
-/

namespace ScriptAgent

/-- A call whose result a line assigns to a variable. -/
structure Assignment where
  target : String
  callee : String
  line : Nat
deriving DecidableEq, Repr

/-- Names in order, each once. -/
abbrev NameSet := List String

/-- The names with one more. -/
def NameSet.insert : NameSet → String → NameSet
  | [], name => [name]
  | n :: rest, name =>
    if n == name then n :: rest else if name < n then name :: n :: rest else n :: NameSet.insert rest name

/-- The names of both sets. -/
def NameSet.union (a b : NameSet) : NameSet :=
  b.foldl NameSet.insert a

namespace Line

/-- The word a line starts with. -/
def leadingWord (cs : List Char) : Option (List Char) :=
  match cs.takeWhile isWordChar with
  | [] => none
  | word => some word

/-- What follows `let ` or `const ` at the start. -/
def afterDeclarator (cs : List Char) : Option (List Char) :=
  (Text.afterStart? "let ".toList cs).or (Text.afterStart? "const ".toList cs)

/-- Whether a line is no continuation of an expression and closes no block. -/
def beginsStatement (cs : List Char) : Bool :=
  match cs with
  | [] => false
  | c :: _ =>
    !("\x7d)].?+-*/%&|^<>=,:;".toList.contains c) &&
      match leadingWord cs with
      | some word => String.ofList word != "else" && String.ofList word != "catch"
      | none => true

/-- The name a line declares. -/
def declaredName (cs : List Char) : Option String := do
  let rest ← afterDeclarator cs
  let name ← leadingWord (Text.dropBlank rest)
  if isNameChars name then some (String.ofList name) else none

/-- The operators that assign. -/
def assignOperators : List String :=
  ["+=", "-=", "*=", "/=", "%=", "**=", "&=", "|=", "^=", "<<=", ">>="]

/-- Whether characters start with a text. -/
def starts (text : String) (cs : List Char) : Bool :=
  (Text.afterStart? text.toList cs).isSome

/-- The name a line assigns to. -/
def assignedName (cs : List Char) : Option String := do
  let name ← leadingWord cs
  if !isNameChars name then failure
  let rest := Text.dropBlank (cs.drop name.length)
  let assigns := (starts "=" rest && !starts "==" rest && !starts "=>" rest) ||
    assignOperators.any (starts · rest)
  if assigns then some (String.ofList name) else none

/-- The parts between the points of a callee. -/
def calleeParts (cs : List Char) : List (List Char) :=
  Text.splitChars ['.'] cs.length cs

/-- The variable and the callee of a line that assigns the result of a call. -/
def assignedCall (cs : List Char) : Option (String × String) := do
  let assigning := Text.dropBlank ((afterDeclarator cs).getD cs)
  let target ← leadingWord assigning
  if !isNameChars target then failure
  let rest ← Text.afterStart? ['='] (Text.dropBlank (assigning.drop target.length))
  if starts "=" rest || starts ">" rest then failure
  let rest := Text.dropBlank rest
  let callee := rest.takeWhile fun c => isWordChar c || c == '.'
  let after := rest.drop callee.length
  if !callee.isEmpty && (calleeParts callee).all isNameChars && starts "(" after then
    some (String.ofList target, String.ofList callee)
  else none

/-- The expression of a `yield` statement that fills its line. -/
def yielded (cs : List Char) : Option (List Char) := do
  let rest ← Text.afterStart? "yield".toList cs
  if !(rest.head?.any Text.isBlank) then failure
  let body := Text.trimChars rest
  if body.getLast? != some ';' then failure
  let expr := Text.trimChars body.dropLast
  if expr.isEmpty then none else some expr

/-- The text of a line that is a comment, its slashes and blanks taken off. -/
def comment (cs : List Char) : Option (List Char) :=
  (Text.afterStart? "//".toList cs).map fun rest => Text.trimChars (rest.dropWhile (· == '/'))

/-- A character of a text literal. -/
def quoteChar (c : Char) : List Char :=
  if c == '"' then ['\\', '"']
  else if c == '\\' then ['\\', '\\']
  else if c == '\t' then ['\\', 't']
  else [c]

/-- A text as a literal of the script language. -/
def quote (cs : List Char) : List Char :=
  '"' :: cs.flatMap quoteChar ++ ['"']

/-- The hook that tells a line's number. -/
def lineHook (n : Nat) : List Char :=
  ("__track_line(" ++ toString n ++ "); ").toList

/-- The hook that announces a call whose result is assigned. -/
def callHook (id : Nat) : List Char :=
  ("__track_tool_call(" ++ toString id ++ "); ").toList

/-- The call that records a comment. -/
def commentHook (text : List Char) (n : Nat) : List Char :=
  "__record_comment(".toList ++ quote text ++ (", " ++ toString n ++ ");").toList

/-- The call that yields a value. -/
def yieldHook (expr : List Char) : List Char :=
  "__yield(".toList ++ expr ++ ");".toList

end Line

/-- The size of characters in UTF-8. -/
def utf8Size (cs : List Char) : Nat :=
  cs.foldl (fun n c => n + c.utf8Size) 0

/-- A script while hooks are put into it, its lines in order. -/
structure Hooking where
  scanner : LineScanner := {}
  /-- Lines with hooks. -/
  instrumented : List (List Char) := []
  /-- Lines without hooks, `yield` statements as calls. -/
  plain : List (List Char) := []
  /-- For every line, the sizes of its indentation and its hooks. -/
  map : List (Nat × Nat) := []
  declared : NameSet := []
  assigned : NameSet := []
  /-- The announced calls by number. -/
  calls : List (Nat × Assignment) := []

/-- What becomes of one line: with hooks, without, the size of the hooks, and the call announced. -/
structure HookedLine where
  instrumented : List Char
  plain : List Char
  hooks : Nat := 0
  call : Option (String × String) := none

/-- Line `n` with its hooks, given that a statement can begin there; `id` numbers its call. -/
def hookLine (indent body line : List Char) (n id : Nat) : HookedLine :=
  match Line.comment body with
  | some text => ⟨indent ++ Line.commentHook text n, line, 0, none⟩
  | none =>
    match Line.yielded body with
    | some expr =>
      let hooks := Line.lineHook n
      ⟨indent ++ hooks ++ Line.yieldHook expr, indent ++ Line.yieldHook expr, hooks.length, none⟩
    | none =>
      if Line.beginsStatement body then
        match Line.assignedCall body with
        | some call =>
          let hooks := Line.lineHook n ++ Line.callHook id
          ⟨indent ++ hooks ++ body, line, hooks.length, some call⟩
        | none =>
          let hooks := Line.lineHook n
          ⟨indent ++ hooks ++ body, line, hooks.length, none⟩
      else ⟨line, line, 0, none⟩

/-- One more line. -/
def Hooking.addLine (r : Hooking) (line : List Char) : Hooking :=
  let n := r.plain.length + 1
  let body := Text.dropBlank line
  let indent := line.take (line.length - body.length)
  let starting := r.scanner.atStatementStart && !body.isEmpty
  let id := r.calls.length + 1
  let out := if starting then hookLine indent body line n id else ⟨line, line, 0, none⟩
  let declared := if starting && r.scanner.depth == 0 then Line.declaredName body else none
  let assigned := if starting then Line.assignedName body else none
  { scanner := r.scanner.scan line
    instrumented := r.instrumented ++ [out.instrumented]
    plain := r.plain ++ [out.plain]
    map := r.map ++ [(utf8Size indent, out.hooks)]
    declared := match declared with
      | some name => r.declared.insert name
      | none => r.declared
    assigned := match assigned with
      | some name => r.assigned.insert name
      | none => r.assigned
    calls := match out.call with
      | some (target, callee) => r.calls ++ [(id, ⟨target, callee, n⟩)]
      | none => r.calls }

/-- A script with hooks put into it. -/
def instrument (source : String) : Hooking :=
  (Text.lineChars source.toList).foldl Hooking.addLine {}

/-- Lines joined by line feeds. -/
def joinLines (lines : List (List Char)) : String :=
  Text.unlines (lines.map String.ofList)

end ScriptAgent
