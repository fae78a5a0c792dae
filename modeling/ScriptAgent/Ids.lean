import ScriptAgent.Text.Find
import ScriptAgent.Text.Hex

/-!
# Identifiers

Contexts, tool calls and snapshots are named by what they are, the time in milliseconds and four
hexadecimal digits; an iteration is named by its context and its place.
-/

namespace ScriptAgent.Ids

/-- Four hexadecimal digits of a number. -/
def hex4 (n : Nat) : String :=
  String.ofList [Text.hexDigit (n / 4096 % 16), Text.hexDigit (n / 256 % 16), Text.hexDigit (n / 16 % 16),
    Text.hexDigit (n % 16)]

/-- The identifier of a thing made at a time; the salt tells things of one millisecond apart. -/
def make (kind : String) (millis salt : Nat) : String :=
  kind ++ "-" ++ Text.padLeft 13 '0' (toString millis) ++ "-" ++ hex4 salt

/-- The identifier of the `n`-th iteration of a context. -/
def iteration (context : String) (n : Nat) : String :=
  context ++ "_" ++ toString n

end ScriptAgent.Ids
