import ScriptAgent.Object.Instance

/-!
# Records

A plain object that is handed to a script becomes a record: its fields can be read and written, but
no field can be added or taken away.
-/

namespace ScriptAgent

/-- A plain object handed to a script under a name. -/
structure Record where
  name : String
  fields : Dict Json

namespace Record

/-- The value of a field. -/
def get? (r : Record) (key : String) : Option Json :=
  Dict.get? r.fields key

/-- The record with a field written. -/
def set (r : Record) (key : String) (value : Json) : Except ObjectError Record :=
  if Dict.contains r.fields key then .ok { r with fields := Dict.insert r.fields key value }
  else .error (.unknownProperty r.name key)

/-- Whether there is such a field. -/
def contains (r : Record) (key : String) : Bool :=
  Dict.contains r.fields key

/-- The names of the fields. -/
def keys (r : Record) : List String :=
  Dict.keys r.fields

/-- The record as a plain object. -/
def toJson (r : Record) : Json :=
  .obj r.fields

end Record

end ScriptAgent
