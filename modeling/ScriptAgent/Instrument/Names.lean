/-!
# Names in scripts

Which words may name variables, functions and objects, and which names the sandbox keeps for itself.
-/

namespace ScriptAgent

/-- The hooks and built-in functions that nothing else may be called. -/
def reservedNames : List String :=
  ["__track_line", "__record_comment", "__track_tool_call", "__yield", "console", "think", "listen",
    "transition", "execute", "interrupt", "print", "debug"]

/-- Words of the script language that can name nothing. -/
def languageWords : List String :=
  ["let", "const", "if", "else", "switch", "do", "while", "loop", "until", "for", "in", "break",
    "continue", "return", "throw", "try", "catch", "fn", "private", "import", "export", "as",
    "true", "false", "this", "global", "yield", "Fn", "call", "curry", "type_of", "is_def_var",
    "is_def_fn", "is_shared"]

/-- A letter, a digit or an underscore, in ASCII. -/
def isWordChar (c : Char) : Bool :=
  c.isAlphanum || c == '_'

/-- Whether characters form a name: no digit first, something besides underscores, no word of the
language. -/
def isNameChars (cs : List Char) : Bool :=
  match cs with
  | [] => false
  | c :: rest =>
    (c.isAlpha || c == '_') && rest.all isWordChar && cs.any Char.isAlphanum &&
      !languageWords.contains (String.ofList cs)

/-- Whether a text is a name. -/
def isIdentifier (name : String) : Bool :=
  isNameChars name.toList

/-- Whether the sandbox keeps a name for itself. -/
def isReserved (name : String) : Bool :=
  reservedNames.contains name

end ScriptAgent
