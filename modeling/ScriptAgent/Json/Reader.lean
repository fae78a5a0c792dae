import ScriptAgent.Json.Basic
import ScriptAgent.Text.Hex

/-!
# Reading JSON

The reader works on characters and gives back what it did not use.  A value may be nested 127
levels deep.  A number with a point or an exponent, or one beyond 64 bits, becomes a double: its
significand, as far as 64 bits hold it, is scaled by one power of ten.
-/

namespace ScriptAgent.Json

/-- Blanks between tokens. -/
def skipBlanks : List Char → List Char :=
  List.dropWhile fun c => c == ' ' || c == '\n' || c == '\t' || c == '\r'

/-- Four hexadecimal digits. -/
def readHex4 : List Char → Option (Nat × List Char)
  | a :: b :: c :: d :: rest => do
    let a ← Text.hexValue? a
    let b ← Text.hexValue? b
    let c ← Text.hexValue? c
    let d ← Text.hexValue? d
    return (a * 4096 + b * 256 + c * 16 + d, rest)
  | _ => none

/-- The rest of a quoted text after its opening quote; `acc` holds what was read, in reverse. -/
def readQuoted (acc : List Char) : Nat → List Char → Option (String × List Char)
  | 0, _ => none
  | _ + 1, [] => none
  | _ + 1, '"' :: rest => some (String.ofList acc.reverse, rest)
  | fuel + 1, '\\' :: 'u' :: rest => do
    let (n, rest) ← readHex4 rest
    if 0xD800 ≤ n && n ≤ 0xDBFF then
      match rest with
      | '\\' :: 'u' :: rest =>
        let (m, rest) ← readHex4 rest
        if 0xDC00 ≤ m && m ≤ 0xDFFF then
          readQuoted (Char.ofNat (0x10000 + (n - 0xD800) * 0x400 + (m - 0xDC00)) :: acc) fuel rest
        else none
      | _ => none
    else if 0xDC00 ≤ n && n ≤ 0xDFFF then none
    else readQuoted (Char.ofNat n :: acc) fuel rest
  | fuel + 1, '\\' :: c :: rest =>
    match c with
    | '"' => readQuoted ('"' :: acc) fuel rest
    | '\\' => readQuoted ('\\' :: acc) fuel rest
    | '/' => readQuoted ('/' :: acc) fuel rest
    | 'b' => readQuoted (Char.ofNat 8 :: acc) fuel rest
    | 'f' => readQuoted (Char.ofNat 12 :: acc) fuel rest
    | 'n' => readQuoted ('\n' :: acc) fuel rest
    | 'r' => readQuoted ('\r' :: acc) fuel rest
    | 't' => readQuoted ('\t' :: acc) fuel rest
    | _ => none
  | fuel + 1, c :: rest => if c.toNat < 32 then none else readQuoted (c :: acc) fuel rest

/-- Digits added to a significand while it stays within 64 bits: the significand, how many digits
were added, and the digits left. -/
def addDigits (significand count : Nat) : List Char → Nat × Nat × List Char
  | [] => (significand, count, [])
  | c :: rest =>
    let next := significand * 10 + Text.decimalValue c
    if next < UInt64.size then addDigits next (count + 1) rest else (significand, count, c :: rest)

/-- A double divided by a power of ten, in steps that a double can hold. -/
def shrink (f : Float) (places : Nat) : Nat → Float
  | 0 => f
  | fuel + 1 =>
    if places ≤ 308 then f / Float.ofScientific 1 false places
    else if f == 0.0 then f
    else shrink (f / 1e308) (places - 308) fuel

/-- A significand scaled by a power of ten: both are rounded to doubles, then the result is; none
beyond the range of doubles. -/
def scale (significand : Nat) (exponent : Int) : Option Float :=
  let f := Float.ofNat significand
  if exponent < 0 then some (shrink f (-exponent).toNat ((-exponent).toNat / 308 + 1))
  else if significand == 0 then some f
  else if exponent > 308 then none
  else
    let r := f * Float.ofScientific 1 false exponent.toNat
    if Number.isFinite r then some r else none

/-- The exponent of a number, if one follows: its value and the characters after it. -/
def readExponent : List Char → Option (Int × List Char)
  | c :: rest =>
    if c == 'e' || c == 'E' then
      let (negative, rest) :=
        match rest with
        | '+' :: rest => (false, rest)
        | '-' :: rest => (true, rest)
        | _ => (false, rest)
      let digits := rest.takeWhile Char.isDigit
      if digits.isEmpty then none
      else
        let n := Text.readDecimal digits
        some (if negative then -(n : Int) else n, rest.dropWhile Char.isDigit)
    else some (0, c :: rest)
  | [] => some (0, [])

/-- A number. -/
def readNumber (cs : List Char) : Option (Numeral × List Char) := do
  let (negative, cs) := match cs with
    | '-' :: rest => (true, rest)
    | _ => (false, cs)
  let whole := cs.takeWhile Char.isDigit
  let rest := cs.dropWhile Char.isDigit
  match whole with
  | [] => none
  | ['0'] => pure ()
  | '0' :: _ => none
  | _ => pure ()
  let (significand, _, beyond) := addDigits 0 0 whole
  let fraction? ← match rest with
    | '.' :: rest =>
      let digits := rest.takeWhile Char.isDigit
      if digits.isEmpty then none else some (some digits, rest.dropWhile Char.isDigit)
    | _ => some (none, rest)
  let (fraction, rest) := fraction?
  let plain : Bool := fraction.isNone && beyond.isEmpty &&
    (match rest with
      | c :: _ => c != 'e' && c != 'E'
      | [] => true)
  if plain then
    if negative then
      if significand == 0 || significand > Nat.pow 2 63 then
        return (.float (-(Float.ofNat significand)), rest)
      else return (.int (-(significand : Int)), rest)
    else return (.int significand, rest)
  else
    let (significand, places, _) := addDigits significand 0 (fraction.getD [])
    let (e, rest) ← readExponent rest
    let exponent : Int := (beyond.length : Int) - places + e
    let f ← scale significand (max exponent (-100000))
    return (.float (if negative then -f else f), rest)

mutual

/-- A value, nested at most `depth` levels; the fuel bounds the number of values and separators. -/
def readValue (depth : Nat) : Nat → List Char → Option (Json × List Char)
  | 0, _ => none
  | fuel + 1, cs =>
    match skipBlanks cs with
    | 'n' :: 'u' :: 'l' :: 'l' :: rest => some (.null, rest)
    | 't' :: 'r' :: 'u' :: 'e' :: rest => some (.bool true, rest)
    | 'f' :: 'a' :: 'l' :: 's' :: 'e' :: rest => some (.bool false, rest)
    | '"' :: rest => (readQuoted [] (rest.length + 1) rest).map fun (s, rest) => (.str s, rest)
    | '[' :: rest =>
      if depth ≤ 1 then none
      else
        match skipBlanks rest with
        | ']' :: rest => some (.arr [], rest)
        | rest => readItems (depth - 1) [] fuel rest
    | '\x7b' :: rest =>
      if depth ≤ 1 then none
      else
        match skipBlanks rest with
        | '\x7d' :: rest => some (.obj [], rest)
        | rest => readFields (depth - 1) [] fuel rest
    | cs => (readNumber cs).map fun (n, rest) => (.num n, rest)

/-- Items up to the closing bracket; `acc` holds those read, in reverse. -/
def readItems (depth : Nat) (acc : List Json) : Nat → List Char → Option (Json × List Char)
  | 0, _ => none
  | fuel + 1, cs =>
    match readValue depth fuel cs with
    | none => none
    | some (v, rest) =>
      match skipBlanks rest with
      | ',' :: rest => readItems depth (v :: acc) fuel rest
      | ']' :: rest => some (.arr (v :: acc).reverse, rest)
      | _ => none

/-- Entries up to the closing brace. -/
def readFields (depth : Nat) (acc : Dict Json) : Nat → List Char → Option (Json × List Char)
  | 0, _ => none
  | fuel + 1, cs =>
    match skipBlanks cs with
    | '"' :: rest =>
      match readQuoted [] (rest.length + 1) rest with
      | none => none
      | some (key, rest) =>
        match skipBlanks rest with
        | ':' :: rest =>
          match readValue depth fuel rest with
          | none => none
          | some (v, rest) =>
            let acc := acc.insert key v
            match skipBlanks rest with
            | ',' :: rest => readFields depth acc fuel rest
            | '\x7d' :: rest => some (.obj acc, rest)
            | _ => none
        | _ => none
    | _ => none

end

/-- How deep a value may be nested, itself included. -/
def maxDepth : Nat := 128

/-- The value a text holds, with nothing but blanks around it. -/
def parse? (text : String) : Option Json :=
  let cs := text.toList
  match readValue maxDepth (2 * cs.length + 2) cs with
  | some (v, rest) => if (skipBlanks rest).isEmpty then some v else none
  | none => none

end ScriptAgent.Json
