import ScriptAgent.Number.Nearest
import ScriptAgent.Script.Quoted

/-!
# From characters to tokens

`tokens` groups the characters of a script into placed tokens.  The list ends with the end of the
script or with the first group of characters that is no token.  The block of an interpolation is
lexed like any other; the lexer counts braces to see where the text goes on.
-/

namespace ScriptAgent.Script

/-- The lexer between two tokens. -/
structure Cursor where
  rest : List Char
  /-- The place of the character read last. -/
  pos : Pos
  /-- Whether a sign would belong to the operand that follows. -/
  operandNext : Bool
  /-- Open braces inside each interpolation, the innermost first. -/
  braces : List Nat
  /-- Whether the text around an interpolation goes on here. -/
  inText : Bool

/-- The lexer at the start of a script. -/
def Cursor.start (source : String) : Cursor :=
  ⟨source.toList, Pos.start, true, [], false⟩

/-- Skips a nested comment, `depth` levels deep: what follows it and the place reached. -/
def skipComment (depth : Nat) (pos : Pos) : List Char → List Char × Pos
  | [] => ([], pos)
  | '/' :: '*' :: rest => skipComment (depth + 1) pos.advance.advance rest
  | '*' :: '/' :: rest =>
    if depth ≤ 1 then (rest, pos.advance.advance) else skipComment (depth - 1) pos.advance.advance rest
  | '\n' :: rest => skipComment depth pos.newLine rest
  | _ :: rest => skipComment depth pos.advance rest

/-- Skips the rest of a line, its end left in place. -/
def skipLine (pos : Pos) : List Char → List Char × Pos
  | [] => ([], pos)
  | '\n' :: rest => ('\n' :: rest, pos)
  | _ :: rest => skipLine pos.advance rest

/-- Skips blanks and comments; the fuel bounds their number. -/
def skipSpace : Nat → Pos → List Char → List Char × Pos
  | 0, pos, cs => (cs, pos)
  | fuel + 1, pos, cs =>
    match cs with
    | '\n' :: rest => skipSpace fuel pos.newLine rest
    | '/' :: '/' :: rest =>
      let (rest, pos) := skipLine pos.advance.advance rest
      skipSpace fuel pos rest
    | '/' :: '*' :: rest =>
      let (rest, pos) := skipComment 1 pos.advance.advance rest
      skipSpace fuel pos rest
    | c :: rest => if Text.isBlank c then skipSpace fuel pos.advance rest else (cs, pos)
    | [] => ([], pos)

/-- What a number literal is made of: digits and signs in reverse, and how many characters it took. -/
structure NumberRead where
  written : List Char
  taken : Nat
  rest : List Char

/-- The digits, point and exponent of a decimal literal.  A point belongs to it if no name and no
second point follows; an exponent needs a digit or a sign. -/
def readDecimalLiteral (written : List Char) (taken : Nat) (hasPoint hasExponent : Bool) :
    List Char → NumberRead
  | [] => ⟨written, taken, []⟩
  | c :: rest =>
    if c.isDigit then readDecimalLiteral (c :: written) (taken + 1) hasPoint hasExponent rest
    else if c == '_' then readDecimalLiteral written (taken + 1) hasPoint hasExponent rest
    else if c == '.' && !hasPoint && !hasExponent then
      match rest.head? with
      | some d =>
        if d.isDigit then readDecimalLiteral ('.' :: written) (taken + 1) true hasExponent rest
        else if d == '.' || isNameStart d then ⟨written, taken, c :: rest⟩
        else readDecimalLiteral ('0' :: '.' :: written) (taken + 1) hasPoint hasExponent rest
      | none => ⟨written, taken, c :: rest⟩
    else if c == 'e' && !hasExponent then
      if rest.head?.any Char.isDigit then readDecimalLiteral ('e' :: written) (taken + 1) true true rest
      else
        match rest with
        | d :: after =>
          if d == '+' || d == '-' then
            readDecimalLiteral (d :: 'e' :: written) (taken + 2) true true after
          else ⟨written, taken, c :: d :: after⟩
        | [] => ⟨written, taken, [c]⟩
    else ⟨written, taken, c :: rest⟩

/-- The digits of a literal in another base. -/
def readBaseLiteral (admits : Char → Bool) (written : List Char) (taken : Nat) : List Char → NumberRead
  | c :: rest =>
    if c == '_' then readBaseLiteral admits written (taken + 1) rest
    else if admits c then readBaseLiteral admits (c :: written) (taken + 1) rest
    else ⟨written, taken, c :: rest⟩
  | [] => ⟨written, taken, []⟩

/-- The value of digits in a base, none if a digit does not belong to it. -/
def baseValue (base : Nat) (cs : List Char) : Option Nat :=
  cs.foldlM (fun n c => (Text.hexValue? c).bind fun d => if d < base then some (n * base + d) else none) 0

/-- A 64-bit word read as a signed integer. -/
def wrapWord (n : Nat) : Int :=
  if n < Nat.pow 2 63 then (n : Int) else (n : Int) - UInt64.size

/-- The double a decimal literal stands for: its digits and the places after the point. -/
def decimalFloat? (cs : List Char) : Option Float :=
  let (mantissa, exponent) := cs.span (· != 'e')
  let (whole, fraction) := mantissa.span (· != '.')
  let digits := whole ++ fraction.drop 1
  let (negative, exponentDigits) := match exponent with
    | 'e' :: '-' :: ds => (true, ds)
    | 'e' :: '+' :: ds => (false, ds)
    | 'e' :: ds => (false, ds)
    | _ => (false, ['0'])
  if exponentDigits.isEmpty || digits.isEmpty || !exponentDigits.all Char.isDigit then none
  else
    let n := Text.readDecimal digits
    let e : Int := Text.readDecimal exponentDigits
    let e : Int := (if negative then -e else e) - (fraction.length - 1 : Nat)
    some (Number.nearest n e)

/-- The token of a decimal literal. -/
def decimalToken (negative : Bool) (written : List Char) : Token :=
  let text := (if negative then "-" else "") ++ String.ofList written
  if written.all Char.isDigit then
    let n : Int := Text.readDecimal written
    let n := if negative then -n else n
    if fitsInt n then .int n
    else
      match decimalFloat? written with
      | some x => .float (if negative then -x else x)
      | none => .bad (.badNumber text)
  else
    match decimalFloat? written with
    | some x => .float (if negative then -x else x)
    | none => .bad (.badNumber text)

/-- A number literal that starts with the given digit. -/
def readNumberLiteral (negative : Bool) (first : Char) (rest : List Char) : Token × Nat × List Char :=
  let base? : Option (Nat × List Char) :=
    if first != '0' then none
    else
      match rest with
      | c :: after =>
        if c == 'x' || c == 'X' then some (16, after)
        else if c == 'o' || c == 'O' then some (8, after)
        else if c == 'b' || c == 'B' then some (2, after)
        else none
      | [] => none
  match base? with
  | some (base, after) =>
    let admits : Char → Bool := if base == 16 then fun c => (Text.hexValue? c).isSome else Char.isDigit
    let read := readBaseLiteral admits [] 2 after
    let digits := read.written.reverse
    let token : Token :=
      if digits.isEmpty then .bad (.badNumber "")
      else
        match baseValue base digits with
        | some n =>
          if n < UInt64.size then .int (if negative then wrapWord ((UInt64.size - n) % UInt64.size) else wrapWord n)
          else .bad (.badNumber (String.ofList digits))
        | none => .bad (.badNumber (String.ofList digits))
    (token, read.taken, read.rest)
  | none =>
    let read := readDecimalLiteral [first] 1 false false rest
    (decimalToken negative read.written.reverse, read.taken, read.rest)

/-- The longest mark or symbol at the start, and whether it has a meaning.  Longer spellings come
first. -/
def symbols : List (String × Bool) :=
  [("!==", false), ("...", false), ("..=", true), ("**=", true), ("<<=", true), (">>=", true),
    ("===", false), ("::<", false), ("()", true), ("(*", false), ("*)", false), ("#\x7b", true),
    ("#!", false), ("+=", true), ("++", false), ("-=", true), ("->", false), ("--", false), ("*=", true),
    ("**", true), ("/=", true), ("..", true), ("==", true), ("=>", true), ("::", true), (":=", false),
    (":;", false), ("<=", true), ("<-", false), ("<<", true), ("<|", false), (">=", true), (">>", true),
    ("!=", true), ("!.", false), ("||", true), ("|=", true), ("|>", false), ("&&", true), ("&=", true),
    ("^=", true), ("%=", true), ("?.", true), ("??", true), ("?[", true), ("\x7b", true), ("\x7d", true),
    ("(", true), (")", true), ("[", true), ("]", true), ("+", true), ("-", true), ("*", true), ("/", true),
    (";", true), (",", true), (".", true), ("=", true), (":", true), ("<", true), (">", true), ("!", true),
    ("|", true), ("&", true), ("^", true), ("%", true), ("~", false), ("@", false), ("$", false),
    ("?", false), ("#", false)]

/-- Whether the characters start with the given ones, and what follows them. -/
def afterText : List Char → List Char → Option (List Char)
  | [], cs => some cs
  | p :: ps, c :: cs => if p == c then afterText ps cs else none
  | _ :: _, [] => none

/-- The mark or symbol at the start of the characters. -/
def readSymbol (cs : List Char) : List (String × Bool) → Option (String × Bool × List Char)
  | [] => none
  | (text, known) :: others =>
    match afterText text.toList cs with
    | some rest => some (text, known, rest)
    | none => readSymbol cs others

/-- A token, where it starts, and the lexer after it. -/
abbrev Lexed := Placed × Cursor

/-- The lexer after a token that ends before `rest`. -/
def Cursor.after (cur : Cursor) (token : Token) (pos : Pos) (rest : List Char) : Cursor :=
  let braces :=
    match token with
    | .mark "\x7b" | .mark "#\x7b" => (match cur.braces with
      | n :: outer => (n + 1) :: outer
      | [] => [])
    | .mark "\x7d" => (match cur.braces with
      | n :: outer => if n ≤ 1 then outer else (n - 1) :: outer
      | [] => [])
    | _ => cur.braces
  let inText :=
    match token with
    | .mark "\x7d" => (match cur.braces with
      | n :: _ => n ≤ 1
      | [] => false)
    | _ => false
  ⟨rest, pos, token.beforeOperand, braces, inText⟩

/-- A text literal as a token; `at?` is where it is placed, its first character by default. -/
def Cursor.text (cur : Cursor) (at? : Option Pos) (read : Except (LexError × Pos) TextRead) : Lexed :=
  match read with
  | .error (e, pos) => (⟨.bad e, pos⟩, { cur with rest := [] })
  | .ok t =>
    let place := at?.getD t.first
    match t.ending with
    | .closed => (⟨.str t.text, place⟩, cur.after (.str t.text) t.pos t.rest)
    | .missing => (⟨.bad .unterminated, place⟩, { cur with rest := [] })
    | .interpolation =>
      let token : Token := .template t.text
      (⟨token, place⟩, { cur.after token t.pos t.rest with braces := 0 :: cur.braces })

/-- The token at the cursor; `limit` bounds the size of texts. -/
def Cursor.next (limit : Option Nat) (cur : Cursor) : Lexed :=
  if cur.inText then
    cur.text none (readText .backtick cur.pos limit ⟨[], 0, .plain, cur.pos, Pos.none, 0⟩ cur.rest)
  else
    let (cs, before) := skipSpace (cur.rest.length + 1) cur.pos cur.rest
    let pos := before.advance
    match cs with
    | [] => (⟨.eof, pos⟩, { cur with rest := [], pos := pos })
    | c :: rest =>
      let opened : TextState := ⟨[], 0, .plain, pos, Pos.none, 0⟩
      if c.isDigit then
        let (token, taken, rest) := readNumberLiteral false c rest
        (⟨token, pos⟩, cur.after token ⟨pos.line, before.column + taken⟩ rest)
      else if isNameStart c then
        let word := cs.takeWhile isNameChar
        let token := wordToken (String.ofList word)
        (⟨token, pos⟩, cur.after token ⟨pos.line, before.column + word.length⟩ (cs.dropWhile isNameChar))
      else if c == '"' then cur.text (some pos) (readText .quoted pos limit opened rest)
      else if c == Char.ofNat 96 then
        -- a line break right after the back-tick is not part of the text
        let (rest, from_) := match rest with
          | '\n' :: after => (after, pos.newLine)
          | '\r' :: '\n' :: after => (after, pos.newLine)
          | '\r' :: after => (after, pos.newLine)
          | _ => (rest, pos)
        cur.text (some pos) (readText .backtick pos limit { opened with pos := from_ } rest)
      else if c == '\'' then
        if rest.head? == some '\'' then (⟨.bad (.badChar ""), pos⟩, { cur with rest := [] })
        else
          match readText .char pos none opened rest with
          | .error (e, pos) => (⟨.bad e, pos⟩, { cur with rest := [] })
          | .ok t =>
            match t.text.toList with
            | [only] => (⟨.char only, pos⟩, cur.after (.char only) t.pos t.rest)
            | _ => (⟨.bad (.badChar t.text), pos⟩, { cur with rest := [] })
      else
        let signs := (cs.takeWhile (· == '#')).length
        let afterSigns := cs.dropWhile (· == '#')
        if signs ≥ 1 && (afterSigns.head? == some '"' || signs ≥ 2) then
          match afterSigns with
          | '"' :: rest =>
            let open' : TextState := { opened with pos := ⟨pos.line, before.column + signs + 1⟩ }
            cur.text (some pos) (readRaw signs pos limit open' rest)
          | d :: _ => (⟨.bad (.unexpected (String.singleton d)), pos⟩, { cur with rest := [] })
          | [] => (⟨.bad .unterminated, pos⟩, { cur with rest := [] })
        else
          match cs with
          | '#' :: ' ' :: after =>
            let text := if after.head? == some '\x7b' then "# \x7b" else "#"
            (⟨reservedSymbol text, pos⟩, { cur with rest := after, pos := pos.advance })
          | '!' :: 'i' :: 'n' :: after =>
            if after.head?.any isNameChar then
              (⟨.mark "!", pos⟩, cur.after (.mark "!") pos rest)
            else (⟨.mark "!in", pos⟩, cur.after (.mark "!in") pos.advance.advance after)
          | '-' :: d :: after =>
            if d.isDigit && cur.operandNext then
              let (token, taken, rest) := readNumberLiteral true d after
              (⟨token, pos⟩, cur.after token ⟨pos.line, pos.column + taken⟩ rest)
            else symbol pos before cs cur
          | _ => symbol pos before cs cur
where
  /-- A mark or a symbol without a meaning. -/
  symbol (pos before : Pos) (cs : List Char) (cur : Cursor) : Lexed :=
    match readSymbol cs symbols with
    | some (text, known, rest) =>
      let token := if known then .mark text else reservedSymbol text
      (⟨token, pos⟩, cur.after token ⟨pos.line, before.column + text.length⟩ rest)
    | none =>
      (⟨.bad (.unexpected (String.ofList (cs.take 1))), pos⟩, { cur with rest := [] })

/-- The tokens from the cursor on; the fuel bounds their number. -/
def Cursor.tokens (limit : Option Nat) : Nat → Cursor → List Placed
  | 0, cur => [⟨.eof, cur.pos⟩]
  | fuel + 1, cur =>
    let (placed, cur) := cur.next limit
    match placed.token with
    | .eof | .bad _ => [placed]
    | _ => placed :: cur.tokens limit fuel

/-- The tokens of a script; `limit` bounds the size of its texts. -/
def tokens (source : String) (limit : Option Nat) : List Placed :=
  (Cursor.start source).tokens limit (source.length + 2)

end ScriptAgent.Script
