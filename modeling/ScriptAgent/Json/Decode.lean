import ScriptAgent.Json.Basic

/-!
# Taking records out of JSON

A reader of a field says whether the field must be there.  Null counts as missing where a field may
be missing; fields that nobody asks for are ignored.
-/

namespace ScriptAgent.Json

/-- A field that must be there. -/
def required (v : Json) (key : String) (read : Json → Option α) : Option α := do
  read (← v.get? key)

/-- A field that may be missing or null. -/
def optional (v : Json) (key : String) (read : Json → Option α) : Option (Option α) :=
  match v.get? key with
  | none | some .null => some none
  | some w => (read w).map some

/-- A field that has a default. -/
def withDefault (v : Json) (key : String) (read : Json → Option α) (default : α) : Option α :=
  match v.get? key with
  | none => some default
  | some w => read w

/-- Any value. -/
def any? (v : Json) : Option Json := some v

/-- A truth value. -/
def bool? : Json → Option Bool
  | .bool b => some b
  | _ => none

/-- A list of values read alike. -/
def list? (read : Json → Option α) (v : Json) : Option (List α) :=
  v.items?.bind (·.mapM read)

/-- An object as a dictionary of values read alike. -/
def dict? (read : Json → Option α) (v : Json) : Option (Dict α) :=
  v.fields?.bind (·.mapM fun (k, w) => (read w).map (k, ·))

/-- A natural below `2^32`. -/
def word32? (v : Json) : Option Nat :=
  v.nat?.filter (· < UInt32.size)

/-- A natural below `2^64`. -/
def word64? (v : Json) : Option Nat :=
  v.nat?.filter (· < UInt64.size)

/-- An object of those entries that are there. -/
def recordOf (entries : List (String × Option Json)) : Json :=
  .object (entries.filterMap fun (k, v) => v.map (k, ·))

end ScriptAgent.Json
