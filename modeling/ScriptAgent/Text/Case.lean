import ScriptAgent.Text.CaseTable

/-!
# Lower and upper case of texts
-/

namespace ScriptAgent.Text

/-- A code point moved by the run that covers it. -/
def moveBy (runs : List CaseRun) (c : Char) : Option Char :=
  (runs.find? (·.covers c.toNat)).map fun r => Char.ofNat ((c.toNat : Int) + r.shift).toNat

/-- The upper case of one character, which may be several. -/
def upperChar (c : Char) : List Char :=
  if c.toNat < 128 then [c.toUpper]
  else
    match upperExpansions.lookup c.toNat with
    | some cs => cs.map Char.ofNat
    | none => [(moveBy upperRuns c).getD c]

/-- The lower case of one character outside of its context. -/
def lowerChar (c : Char) : List Char :=
  if c.toNat < 128 then [c.toLower]
  else if c.toNat == 0x130 then ['i', Char.ofNat 0x307]
  else [(moveBy lowerRuns c).getD c]

/-- Whether a character has an upper or a lower case of its own. -/
def isCased (c : Char) : Bool :=
  upperChar c != [c] || lowerChar c != [c]

/-- Marks that the rule for a final sigma looks past. -/
def isCaseIgnorable (c : Char) : Bool :=
  let n := c.toNat
  n == 0x27 || n == 0x2e || n == 0x3a || n == 0x5e || n == 0x60 || n == 0xa8 || n == 0xad || n == 0xaf ||
    n == 0xb4 || n == 0xb7 || n == 0xb8 || n == 0x2019 || (0x300 ≤ n && n ≤ 0x36f)

/-- Whether the first character that is not passed over is a cased letter. -/
def meetsCased (cs : List Char) : Bool :=
  match cs.dropWhile isCaseIgnorable with
  | c :: _ => isCased c
  | [] => false

/-- Lower case of characters, `before` holding those already read in reverse: a capital sigma that
ends a word takes its final form. -/
def lowerChars (before : List Char) : List Char → List Char
  | [] => []
  | c :: rest =>
    let lowered :=
      if c.toNat == 0x3a3 then
        [if meetsCased before && !meetsCased rest then Char.ofNat 0x3c2 else Char.ofNat 0x3c3]
      else lowerChar c
    lowered ++ lowerChars (c :: before) rest

/-- A text in lower case. -/
def lower (s : String) : String :=
  String.ofList (lowerChars [] s.toList)

/-- A text in upper case. -/
def upper (s : String) : String :=
  String.ofList (s.toList.flatMap upperChar)

/-- Equality of texts that does not tell ASCII capitals from small letters. -/
def sameIgnoringAsciiCase (a b : String) : Bool :=
  a.toList.map Char.toLower == b.toList.map Char.toLower

example : upper "straße" = "STRASSE" ∧ lower "ÀΣ" = "àς" ∧ upper "é" = "É" := by decide +kernel

end ScriptAgent.Text
