/-!
# Tokens of scripts

What the characters of a script are grouped into, with the words that are keywords, the words that
are kept back from use as names, and the causes for which characters form no token.
-/

namespace ScriptAgent.Script

/-- A place in a script; lines and columns count from one. -/
structure Pos where
  line : Nat
  column : Nat
deriving DecidableEq, Repr, Inhabited

namespace Pos

/-- The place before the first character. -/
def start : Pos := ⟨1, 0⟩

/-- No place at all. -/
def none : Pos := ⟨0, 0⟩

/-- The next column. -/
def advance (p : Pos) : Pos := ⟨p.line, p.column + 1⟩

/-- The place before the first character of the next line. -/
def newLine (p : Pos) : Pos := ⟨p.line + 1, 0⟩

/-- Whether there is no place. -/
def isNone (p : Pos) : Bool := p.line == 0

end Pos

/-- Why characters form no token. -/
inductive LexError where
  | unexpected (text : String)
  | unterminated
  | tooLong (limit : Nat)
  | badEscape (text : String)
  | badNumber (text : String)
  | badChar (text : String)
  | badName (text : String)
  | improper (message : String)
deriving DecidableEq, Repr

/-- The text of a lexical error. -/
def LexError.message : LexError → String
  | .unexpected text => "Unexpected '" ++ text ++ "'"
  | .unterminated => "Open string is not terminated"
  | .tooLong limit => "Length of string literal exceeds the maximum limit (" ++ toString limit ++ ")"
  | .badEscape text => "Invalid escape sequence: '" ++ text ++ "'"
  | .badNumber text => "Invalid number: '" ++ text ++ "'"
  | .badChar text => "Invalid character: '" ++ text ++ "'"
  | .badName text => "Variable name is not proper: '" ++ text ++ "'"
  | .improper message => message

/-- A token.  Keywords and punctuation are marks, known by their spelling. -/
inductive Token where
  | int (n : Int)
  | float (x : Float)
  | char (c : Char)
  | str (s : String)
  /-- A piece of text before an interpolated block. -/
  | template (s : String)
  | ident (name : String)
  | reserved (text : String)
  | mark (text : String)
  | bad (error : LexError)
  | eof
deriving BEq, Repr

/-- A token with the place of its first character. -/
structure Placed where
  token : Token
  pos : Pos
deriving Repr

/-- Whether an integer fits into 64 bits. -/
def fitsInt (n : Int) : Bool :=
  -9223372036854775808 ≤ n && n ≤ 9223372036854775807

/-- The keywords. -/
def keywords : List String :=
  ["true", "false", "let", "const", "if", "else", "switch", "do", "while", "until", "loop", "for", "in",
    "fn", "private", "break", "continue", "return", "throw", "try", "catch", "import", "export", "as"]

/-- Words kept back that may still be called as functions. -/
def callableReserved : List String :=
  ["print", "debug", "type_of", "eval", "Fn", "call", "curry", "is_def_var", "is_def_fn", "is_shared"]

/-- Words kept back that may be called as methods. -/
def methodReserved : List String :=
  ["type_of", "call", "curry", "is_shared"]

/-- Words kept back from use as names. -/
def reservedWords : List String :=
  callableReserved ++
  ["this", "public", "protected", "super", "new", "use", "module", "package", "var", "static", "shared",
    "with", "is", "goto", "exit", "match", "case", "default", "void", "null", "nil", "spawn", "thread",
    "go", "sync", "async", "await", "yield"]

/-- The marks after which a sign belongs to the operand that follows. -/
def opensOperand : List String :=
  [";", ":", ",", "??", "..", "..=", "\x7b", "(", "[", "?[", "+", "+=", "-", "-=", "*", "*=", "/", "/=",
    "%", "%=", "**", "**=", "<<", "<<=", ">>", ">>=", "=", "==", "!=", "<", ">", "<=", ">=", "!", "|",
    "||", "^", "^=", "|=", "&", "&&", "&=", "if", "while", "until", "in", "!in", "return", "throw"]

/-- Whether a sign after this token belongs to the operand that follows. -/
def Token.beforeOperand : Token → Bool
  | .mark text => opensOperand.contains text
  | .bad _ => true
  | _ => false

/-- A letter or an underscore. -/
def isNameStart (c : Char) : Bool :=
  c.isAlpha || c == '_'

/-- A letter, a digit or an underscore. -/
def isNameChar (c : Char) : Bool :=
  c.isAlphanum || c == '_'

/-- Whether a text is shaped like a name: underscores, then a letter, then name characters. -/
def isNameShaped (s : String) : Bool :=
  match s.toList.dropWhile (· == '_') with
  | c :: rest => c.isAlpha && rest.all isNameChar
  | [] => false

/-- The reserved symbols that get a hint of their own. -/
def symbolHint (text : String) : Option String :=
  if text == "===" then some "'===' is not a valid operator. This is not JavaScript! Should it be '=='?"
  else if text == "!==" then some "'!==' is not a valid operator. This is not JavaScript! Should it be '!='?"
  else if text == "->" then some "'->' is not a valid symbol. This is not C or C++!"
  else if text == "<-" then some "'<-' is not a valid symbol. This is not Go! Should it be '<'?"
  else if text == ":=" then
    some "':=' is not a valid assignment operator. This is not Go or Pascal! Should it be simply '='?"
  else if text == ":;" then some "':;' is not a valid symbol. Should it be '::'?"
  else if text == "::<" then some "'::<>' is not a valid symbol. This is not Rust! Should it be '::'?"
  else if text == "(*" || text == "*)" then
    some "'(* .. *)' is not a valid comment format. This is not Pascal! Should it be '/* .. */'?"
  else if text == "# \x7b" then some "'#' is not a valid symbol. Should it be '#\x7b'?"
  else none

/-- A symbol without a meaning, as a token. -/
def reservedSymbol (text : String) : Token :=
  match symbolHint text with
  | some hint => .bad (.improper hint)
  | none => .reserved text

/-- The token of a word. -/
def wordToken (word : String) : Token :=
  if word == "_" || keywords.contains word then .mark word
  else if reservedWords.contains word then .reserved word
  else if isNameShaped word then .ident word
  else .bad (.badName word)

end ScriptAgent.Script
