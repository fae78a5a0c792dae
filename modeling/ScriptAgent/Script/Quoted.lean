import ScriptAgent.Script.Token
import ScriptAgent.Text.Blank
import ScriptAgent.Text.Hex

/-!
# Text literals of scripts

A literal is read one character at a time by a machine whose state says whether an escape is under
way.  Double quotes and single quotes allow escapes; back-ticks take everything as it stands, lines
breaks included, up to the closing back-tick or an interpolation; raw texts end at their own
combination of a quote and number signs.  A closing mark written twice stands for itself.
-/

namespace ScriptAgent.Script

/-- The rules of one kind of literal. -/
structure TextKind where
  close : Char
  /-- No escapes; line breaks are kept. -/
  verbatim : Bool
  /-- A backslash at the end of a line continues the text on the next one. -/
  continues : Bool
  /-- A dollar sign before an opening brace starts an interpolation. -/
  interpolates : Bool

/-- Double quotes. -/
def TextKind.quoted : TextKind := ⟨'"', false, true, false⟩

/-- Single quotes. -/
def TextKind.char : TextKind := ⟨'\'', false, false, false⟩

/-- Back-ticks. -/
def TextKind.backtick : TextKind := ⟨Char.ofNat 96, true, false, true⟩

/-- Whether an escape is under way. -/
inductive EscapeState where
  | plain
  | escape
  /-- Digits still missing, value so far, and the sequence as written, in reverse. -/
  | hex (left value : Nat) (written : List Char)

/-- What has been read of a literal. -/
structure TextState where
  /-- The characters of the text, in reverse. -/
  acc : List Char := []
  /-- The size of the text in UTF-8. -/
  bytes : Nat := 0
  escape : EscapeState := .plain
  /-- The place of the character read last. -/
  pos : Pos
  /-- The place of the first character of the text. -/
  first : Pos := Pos.none
  /-- Blanks before this column are skipped after a continued line. -/
  skipUntil : Nat := 0

/-- How a literal ended. -/
inductive TextEnd where
  | closed
  | interpolation
  | missing
deriving DecidableEq

/-- A literal that was read, and where. -/
structure TextRead where
  text : String
  ending : TextEnd
  first : Pos
  pos : Pos
  rest : List Char

/-- One more character of the text. -/
def TextState.push (st : TextState) (c : Char) : TextState :=
  { st with acc := c :: st.acc, bytes := st.bytes + c.utf8Size, escape := .plain }

/-- The literal read so far, ended as given. -/
def TextState.finish (st : TextState) (ending : TextEnd) (rest : List Char) : TextRead :=
  ⟨String.ofList st.acc.reverse, ending, st.first, st.pos, rest⟩

/-- Reads the rest of a literal that opened at `opened`; `limit` bounds its size. -/
def readText (kind : TextKind) (opened : Pos) (limit : Option Nat) (st : TextState) :
    List Char → Except (LexError × Pos) TextRead
  | [] =>
    let st := { st with pos := st.pos.advance }
    match st.escape with
    | .hex _ _ written => .error (.badEscape (String.ofList written.reverse), st.pos)
    | .escape => if kind.continues then .ok (st.finish .missing []) else .error (.unterminated, opened)
    | .plain => if kind.verbatim then .ok (st.finish .missing []) else .error (.unterminated, opened)
  | c :: rest =>
    let st := { st with pos := st.pos.advance }
    match st.escape with
    | .hex left value written =>
      let written := c :: written
      match Text.hexValue? c with
      | none => .error (.badEscape (String.ofList written.reverse), st.pos)
      | some d =>
        let value := value * 16 + d
        if left ≤ 1 then
          if Nat.isValidChar value then readText kind opened limit (st.push (Char.ofNat value)) rest
          else .error (.badEscape (String.ofList written.reverse), st.pos)
        else readText kind opened limit { st with escape := .hex (left - 1) value written } rest
    | .escape =>
      if limit.any (st.bytes > ·) then .error (.tooLong (limit.getD 0), opened)
      else
        let st := if st.first.isNone then { st with first := st.pos } else st
        if c == '\r' && rest.head? == some '\n' then readText kind opened limit st rest
        else if c == 'r' then readText kind opened limit (st.push '\r') rest
        else if c == 'n' then readText kind opened limit (st.push '\n') rest
        else if c == '\\' then readText kind opened limit (st.push '\\') rest
        else if c == 't' then readText kind opened limit (st.push '\t') rest
        else if c == 'x' then readText kind opened limit { st with escape := .hex 2 0 [c, '\\'] } rest
        else if c == 'u' then readText kind opened limit { st with escape := .hex 4 0 [c, '\\'] } rest
        else if c == 'U' then readText kind opened limit { st with escape := .hex 8 0 [c, '\\'] } rest
        else if c == '\n' then
          if kind.continues then
            readText kind opened limit
              { st with escape := .plain, pos := st.pos.newLine, skipUntil := opened.column + 1 } rest
          else .error (.unterminated, opened)
        else if c == kind.close then readText kind opened limit (st.push c) rest
        else .error (.badEscape (String.ofList ['\\', c]), st.pos)
    | .plain =>
      if kind.interpolates && c == '$' && rest.head? == some '\x7b' then .ok (st.finish .interpolation rest)
      else if limit.any (st.bytes > ·) then .error (.tooLong (limit.getD 0), opened)
      else
        let marked := if st.first.isNone then { st with first := st.pos } else st
        if c == kind.close then
          match rest with
          | [] => close st []
          | d :: after =>
            if d == kind.close then
              readText kind opened limit (({ marked with pos := st.pos.advance } : TextState).push c) after
            else close st rest
        else if c == '\r' && rest.head? == some '\n' then readText kind opened limit marked rest
        else if c == '\\' && !kind.verbatim then
          readText kind opened limit { marked with escape := .escape } rest
        else if c == '\n' then
          if kind.verbatim then
            readText kind opened limit ({ marked with pos := st.pos.newLine }.push c) rest
          else .error (.unterminated, opened)
        else if Text.isBlank c && marked.pos.column < marked.skipUntil then
          readText kind opened limit marked rest
        else readText kind opened limit ({ marked with skipUntil := 0 }.push c) rest
where
  /-- The literal closed here, if it is not too long. -/
  close (st : TextState) (rest : List Char) : Except (LexError × Pos) TextRead :=
    if limit.any (st.bytes > ·) then .error (.tooLong (limit.getD 0), opened)
    else .ok (st.finish .closed rest)

/-- Whether the characters start with `n` number signs, and what follows them. -/
def afterSigns : Nat → List Char → Option (List Char)
  | 0, cs => some cs
  | n + 1, '#' :: rest => afterSigns n rest
  | _ + 1, _ => none

/-- Reads the rest of a raw text that ends at a quote and `signs` number signs. -/
def readRaw (signs : Nat) (opened : Pos) (limit : Option Nat) (st : TextState) :
    List Char → Except (LexError × Pos) TextRead
  | [] => .error (.unterminated, opened)
  | c :: rest =>
    let st := { st with pos := st.pos.advance }
    if limit.any (st.bytes > ·) then .error (.tooLong (limit.getD 0), opened)
    else
      let ended := if c == '"' then afterSigns signs rest else none
      match ended with
      | some after => .ok ({ st with pos := ⟨st.pos.line, st.pos.column + signs⟩ }.finish .closed after)
      | none =>
        let st := if c == '\n' then { st with pos := st.pos.newLine } else st
        readRaw signs opened limit (st.push c) rest

end ScriptAgent.Script
