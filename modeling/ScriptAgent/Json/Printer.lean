import ScriptAgent.Json.Basic
import ScriptAgent.Number.Text
import ScriptAgent.Text.Hex

/-!
# Written JSON

The compact form has no spaces; the indented form puts every item on a line of its own, two spaces
deeper than what holds it.  Characters outside ASCII are written as they are.
-/

namespace ScriptAgent.Json

/-- A character inside a quoted text. -/
def escapeChar (c : Char) : List Char :=
  if c == '"' then ['\\', '"']
  else if c == '\\' then ['\\', '\\']
  else if c == '\n' then ['\\', 'n']
  else if c == '\r' then ['\\', 'r']
  else if c == '\t' then ['\\', 't']
  else if c.toNat == 8 then ['\\', 'b']
  else if c.toNat == 12 then ['\\', 'f']
  else if c.toNat < 32 then ['\\', 'u', '0', '0', Text.hexDigit (c.toNat / 16), Text.hexDigit (c.toNat % 16)]
  else [c]

/-- A text in double quotes. -/
def quote (s : String) : String :=
  String.ofList ('"' :: s.toList.flatMap escapeChar ++ ['"'])

end Json

/-- A number as JSON writes it. -/
def Numeral.render : Numeral → String
  | .int n => toString n
  | .float x => Number.jsonStyle.render x

namespace Json

mutual

/-- The pieces of the compact form, put in front of `rest`. -/
def compactPieces : Json → List String → List String
  | .null, rest => "null" :: rest
  | .bool b, rest => (if b then "true" else "false") :: rest
  | .num n, rest => n.render :: rest
  | .str s, rest => quote s :: rest
  | .arr items, rest => "[" :: compactItems true items ("]" :: rest)
  | .obj fields, rest => "\x7b" :: compactFields true fields ("\x7d" :: rest)

/-- Items parted by commas. -/
def compactItems (first : Bool) : List Json → List String → List String
  | [], rest => rest
  | v :: vs, rest =>
    (if first then id else ("," :: ·)) (compactPieces v (compactItems false vs rest))

/-- Entries parted by commas. -/
def compactFields (first : Bool) : List (String × Json) → List String → List String
  | [], rest => rest
  | (k, v) :: vs, rest =>
    (if first then id else ("," :: ·)) (quote k :: ":" :: compactPieces v (compactFields false vs rest))

end

/-- The compact form. -/
def compact (v : Json) : String :=
  String.join (compactPieces v [])

/-- A line break followed by the indentation of a level. -/
def newline (level : Nat) : String :=
  String.ofList ('\n' :: List.replicate (2 * level) ' ')

mutual

/-- The pieces of the indented form, put in front of `rest`. -/
def indentedPieces (level : Nat) : Json → List String → List String
  | .null, rest => "null" :: rest
  | .bool b, rest => (if b then "true" else "false") :: rest
  | .num n, rest => n.render :: rest
  | .str s, rest => quote s :: rest
  | .arr items, rest =>
    if items.isEmpty then "[]" :: rest
    else "[" :: indentedItems (level + 1) true items (newline level :: "]" :: rest)
  | .obj fields, rest =>
    if fields.isEmpty then "\x7b\x7d" :: rest
    else "\x7b" :: indentedFields (level + 1) true fields (newline level :: "\x7d" :: rest)

/-- Items, each on its own line. -/
def indentedItems (level : Nat) (first : Bool) : List Json → List String → List String
  | [], rest => rest
  | v :: vs, rest =>
    (if first then id else ("," :: ·))
      (newline level :: indentedPieces level v (indentedItems level false vs rest))

/-- Entries, each on its own line. -/
def indentedFields (level : Nat) (first : Bool) : List (String × Json) → List String → List String
  | [], rest => rest
  | (k, v) :: vs, rest =>
    (if first then id else ("," :: ·))
      (newline level :: quote k :: ": " :: indentedPieces level v (indentedFields level false vs rest))

end

/-- The indented form. -/
def indented (v : Json) : String :=
  String.join (indentedPieces 0 v [])

end ScriptAgent.Json
