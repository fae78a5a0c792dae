/-!
# Blank characters and trimming

Blank means the Unicode property `White_Space`.
-/

namespace ScriptAgent.Text

/-- The characters with the property `White_Space`. -/
def isBlank (c : Char) : Bool :=
  let n := c.toNat
  (9 ≤ n && n ≤ 13) || n == 0x20 || n == 0x85 || n == 0xa0 || n == 0x1680 || (0x2000 ≤ n && n ≤ 0x200a) ||
    n == 0x2028 || n == 0x2029 || n == 0x202f || n == 0x205f || n == 0x3000

/-- Characters without the blanks they start with. -/
def dropBlank (cs : List Char) : List Char :=
  cs.dropWhile isBlank

/-- Characters without the blanks they end with. -/
def dropBlankEnd (cs : List Char) : List Char :=
  (cs.reverse.dropWhile isBlank).reverse

/-- Characters without the blanks on either side. -/
def trimChars (cs : List Char) : List Char :=
  dropBlankEnd (dropBlank cs)

/-- A text without the blanks on either side. -/
def trim (s : String) : String :=
  String.ofList (trimChars s.toList)

/-- A text without the blanks it starts with. -/
def trimStart (s : String) : String :=
  String.ofList (dropBlank s.toList)

/-- A text that is empty or blank throughout. -/
def isBlankText (s : String) : Bool :=
  s.toList.all isBlank

end ScriptAgent.Text
