import ScriptAgent.Number.Nearest
import ScriptAgent.Settings.Yaml

/-!
# What scalars mean

A plain scalar may write a number, a truth value, or nothing; a quoted one is text.  Where a text is
wanted, any scalar is one.
-/

namespace ScriptAgent.Yaml

/-- Words for no value. -/
def nullWords : List String := ["null", "Null", "NULL", "~"]

/-- Words for truth values. -/
def boolWords : List String := ["true", "True", "TRUE", "false", "False", "FALSE"]

/-- Whether a text starts with a needless zero, which makes it no integer. -/
def hasNeedlessZero (cs : List Char) : Bool :=
  let digits := match cs with
    | '-' :: rest => rest
    | '+' :: rest => rest
    | _ => cs
  match digits with
  | '0' :: d :: rest => (d :: rest).all Char.isDigit
  | _ => false

/-- The number that digits write in a base up to sixteen. -/
def inBase? (base : Nat) (digits : List Char) : Option Nat := do
  if digits.isEmpty then none
  else
    let values ← digits.mapM Text.hexValue?
    if values.all (· < base) then return values.foldl (fun n d => n * base + d) 0 else none

/-- The natural number that digits write, with a mark of their base if they have one. -/
def magnitude? (cs : List Char) : Option Nat :=
  match cs with
  | '0' :: 'x' :: digits => inBase? 16 digits
  | '0' :: 'o' :: digits => inBase? 8 digits
  | '0' :: 'b' :: digits => inBase? 2 digits
  | _ => if hasNeedlessZero cs then none else inBase? 10 cs

/-- Characters without a plus at their start. -/
def withoutPlus : List Char → List Char
  | '+' :: rest => rest
  | cs => cs

/-- The natural number that a plain text writes. -/
def textNat? (cs : List Char) : Option Nat :=
  magnitude? (withoutPlus cs)

/-- The double that a plain text writes; infinities and what is no number start with a point. -/
def textFloat? (cs : List Char) : Option Float :=
  let finite (x : Option Float) : Option Float := x.filter Number.isFinite
  let text := String.ofList cs
  if ["-.inf", "-.Inf", "-.INF"].contains text then some (-Number.infinity)
  else if [".nan", ".NaN", ".NAN"].contains text then some (0.0 / 0.0)
  else if [".inf", ".Inf", ".INF"].contains (String.ofList (withoutPlus cs)) then some Number.infinity
  else
    match cs with
    | '+' :: rest => finite (Number.readFloat? rest)
    | '-' :: rest => (finite (Number.readFloat? rest)).map (-·)
    | _ => finite (Number.readFloat? cs)

/-- A natural number up to the given one. -/
def natUpTo? (greatest : Nat) : Yaml → Option Nat
  | scalar text true => (textNat? text.toList).filter (· ≤ greatest)
  | _ => none

/-- A double. -/
def float? : Yaml → Option Float
  | scalar text true => textFloat? text.toList
  | _ => none

/-- A text. -/
def text? : Yaml → Option String
  | scalar text _ => some text
  | _ => none

/-- A text, or none where no value is written. -/
def optText? : Yaml → Option (Option String)
  | scalar text plain => if plain && (text.isEmpty || nullWords.contains text) then some none else some (some text)
  | _ => none

/-- The value of a key that is there at most once. -/
def once? (entries : List (String × Yaml)) (key : String) : Option (Option Yaml) :=
  match entries.filter (·.1 == key) with
  | [] => some none
  | [(_, v)] => some (some v)
  | _ => none

/-- The values of the given keys, in their order; a sequence has them in that order, and where
nothing is written all are missing. -/
def fields? (keys : List String) : Yaml → Option (List (Option Yaml))
  | map entries => keys.mapM (once? entries)
  | seq items =>
    if items.length ≤ keys.length then
      some (items.map some ++ List.replicate (keys.length - items.length) none)
    else none
  | scalar "" true => some (keys.map fun _ => none)
  | scalar _ _ => none

/-- The value of a field that has a default. -/
def fieldOr (read : Yaml → Option α) (default : α) (fields : List (Option Yaml)) (place : Nat) : Option α :=
  match fields[place]? with
  | some (some v) => read v
  | _ => some default

/-! ### Writing -/

/-- Words that other readers take for truth values. -/
def oldBoolWords : List String :=
  ["y", "Y", "yes", "Yes", "YES", "n", "N", "no", "No", "NO", "on", "On", "ON", "off", "Off", "OFF"]

/-- Whether a text would not be read as a text without quotes. -/
def meansOther (s : String) : Bool :=
  let cs := s.toList
  let integer := (textNat? cs).isSome || match cs with
    | '-' :: rest => (magnitude? rest).isSome
    | _ => false
  s.isEmpty || nullWords.contains s || boolWords.contains s || oldBoolWords.contains s || integer ||
    hasNeedlessZero cs || (textFloat? cs).isSome

/-- Whether a character can be written as it is. -/
def isPrintable (c : Char) : Bool :=
  let n := c.toNat
  n == 10 || (0x20 ≤ n && n ≤ 0x7e) || (0xa0 ≤ n && n != 0xfeff && n < 0xfffe)

/-- Whether a character has a meaning at the start of a plain scalar. -/
def marksStart (c : Char) (next : List Char) : Bool :=
  "#,[]\x7b\x7d&*!|>'\"%@".toList.contains c || c.toNat == 0x60 || ((c == '?' || c == ':' || c == '-') && endsWord next)

/-- Whether something with a meaning comes after the start of a plain scalar. -/
def marksInside (afterBlank : Bool) : List Char → Bool
  | [] => false
  | c :: rest =>
    (c == ':' && endsWord rest) || (c == '#' && afterBlank) || marksInside (c == ' ' || c == '\t') rest

/-- Whether a text can stand without quotes. -/
def canBePlain (s : String) : Bool :=
  match s.toList with
  | [] => false
  | c :: rest =>
    let marked := s.startsWith "---" || s.startsWith "..."
    !marked && !marksStart c rest && !marksInside false rest && c != ' ' && (c :: rest).getLast? != some ' ' &&
      (c :: rest).all fun c => isPrintable c && c != '\n'

/-- A number in a base of sixteen with so many digits. -/
def upperHex (width n : Nat) : String :=
  String.ofList ((List.range width).reverse.map fun i => (Text.hexDigit (n / Nat.pow 16 i % 16)).toUpper)

/-- A character between double quotes. -/
def doubleQuotedChar (c : Char) : String :=
  let n := c.toNat
  match [(0, "0"), (7, "a"), (8, "b"), (9, "t"), (10, "n"), (11, "v"), (12, "f"), (13, "r"), (27, "e"), (34, "\""),
      (92, "\\"), (0x85, "N"), (0xa0, "_"), (0x2028, "L"), (0x2029, "P")].lookup n with
  | some letter => if n == 0xa0 then c.toString else "\\" ++ letter
  | none =>
    if isPrintable c then c.toString
    else if n < 0x100 then "\\x" ++ upperHex 2 n
    else if n < 0x10000 then "\\u" ++ upperHex 4 n
    else "\\U" ++ upperHex 8 n

/-- A text as a scalar. -/
def written (s : String) : String :=
  if !s.toList.all (fun c => isPrintable c && c != '\n') then
    "\"" ++ String.join (s.toList.map doubleQuotedChar) ++ "\""
  else if meansOther s || !canBePlain s then
    "'" ++ String.join (s.toList.map fun c => if c == '\'' then "''" else c.toString) ++ "'"
  else s

end ScriptAgent.Yaml
