import ScriptAgent.Json.Printer
import ScriptAgent.Json.Reader
import ScriptAgent.Script.Parser
import ScriptAgent.Text.Case

/-!
# Backends and limits

A script runs inline or isolated.  The isolated backend passes every value as text, allows deeper
scripts, and gives nothing back of a script that was stopped.
-/

namespace ScriptAgent

/-- Where a script runs. -/
inductive Backend where
  | inline
  | isolated
deriving DecidableEq, Repr

/-- The limits of a run. -/
structure Limits where
  timeout : Nat := 60000
  memory : Nat := 33554432
  slowTool : Nat := 15000
deriving DecidableEq, Repr

/-- How large the values of a run may grow, and how deep its calls. -/
structure SizeLimits where
  text : Nat
  items : Nat
  entries : Nat
  /-- What all variables together may hold. -/
  budget : Nat
  calls : Nat
deriving DecidableEq, Repr

namespace Json

mutual

/-- How deep arrays and objects are nested. -/
def depth : Json → Nat
  | .arr items => depthAll items + 1
  | .obj fields => depthFields fields + 1
  | _ => 0

/-- The depth of the deepest item. -/
def depthAll : List Json → Nat
  | [] => 0
  | v :: rest => max (depth v) (depthAll rest)

/-- The depth of the deepest entry. -/
def depthFields : List (String × Json) → Nat
  | [] => 0
  | (_, v) :: rest => max (depth v) (depthFields rest)

end

/-- The double that the text of a double reads back as. -/
def reread (x : Float) : Float :=
  match parse? (Number.jsonStyle.render x) with
  | some (.num (.float y)) => y
  | _ => x

mutual

/-- A value whose doubles went through their texts. -/
def rereadFloats : Json → Json
  | .num (.float x) => .num (.float (reread x))
  | .arr items => .arr (rereadAll items)
  | .obj fields => .obj (rereadFields fields)
  | v => v

/-- Items whose doubles went through their texts. -/
def rereadAll : List Json → List Json
  | [] => []
  | v :: rest => rereadFloats v :: rereadAll rest

/-- Entries whose doubles went through their texts. -/
def rereadFields : List (String × Json) → List (String × Json)
  | [] => []
  | (k, v) :: rest => (k, rereadFloats v) :: rereadFields rest

end

end Json

namespace Backend

/-- The name of a backend. -/
def name : Backend → String
  | .inline => "inline"
  | .isolated => "isolated"

/-- Reads the name of a backend in any case; the name in small letters if there is none. -/
def parse (s : String) : Except String Backend :=
  let s := Text.lower s
  if s == "inline" then .ok .inline
  else if s == "isolated" then .ok .isolated
  else .error s

/-- What is said of an unknown name. -/
def unknownMessage (name : String) : String :=
  "Unknown VM backend: " ++ name

/-- How deep a value may be nested to be passed as text. -/
def maxDepth : Nat := 127

/-- A value on the other side of the border: as it is, or written and read again. -/
def pass (b : Backend) (v : Json) : Json :=
  match b with
  | .inline => v
  | .isolated => if v.depth ≤ maxDepth then v.rereadFloats else .null

/-- The size limits of a run with so much memory. -/
def sizeLimits (b : Backend) (memory : Nat) : SizeLimits where
  text := max memory 1
  items := max (memory / 64) 1
  entries := max (memory / 64) 1
  budget := max memory 1
  calls := match b with
    | .inline => 8
    | .isolated => 64

/-- The limits a script is parsed with before it runs. -/
def parseLimits (b : Backend) (sizes : SizeLimits) : Script.ParseLimits where
  depth := match b with
    | .inline => 32
    | .isolated => 64
  functionDepth := match b with
    | .inline => 16
    | .isolated => 32
  text := some sizes.text
  array := some sizes.items
  map := some sizes.entries

end Backend

end ScriptAgent
