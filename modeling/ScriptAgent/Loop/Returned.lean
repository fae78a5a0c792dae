import ScriptAgent.Signal
import ScriptAgent.Text.Case

/-!
# What a script returned

A script asks for something by what it returns: a text names an action, an object names one under
`action`.  Some actions are signals, all others are exits.
-/

namespace ScriptAgent

/-- What a script asked for. -/
inductive Returned where
  | signal (s : Signal)
  | exit (action : String) (value : Json)
  | invalid (action message : String)
  | nothing

namespace Returned

/-- The action a value names, and the object it stands in. -/
def action? : Json → Option (String × Dict Json)
  | .str action => some (action, [])
  | .obj fields =>
    match Dict.get? fields "action" with
    | some (.str action) => some (action, fields)
    | _ => none
  | _ => none

/-- A text in an object. -/
def textIn (fields : Dict Json) (key : String) : Option String :=
  (Dict.get? fields key).bind Json.str?

/-- What a thought carries on: all but the action and the reason. -/
def thoughtContext (fields : Dict Json) : Option Json :=
  let rest := fields.filter fun (key, _) => key != "action" && key != "reason"
  if rest.isEmpty then none else some (.obj rest)

/-- What an action asks for. -/
def ofAction (action : String) (fields : Dict Json) : Returned :=
  let name := Text.lower action
  if name == "think" then
    .signal (.think ((textIn fields "reason").getD "Thinking") (thoughtContext fields))
  else if name == "listen" then .signal (.listen (textIn fields "reason"))
  else if name == "transition" then
    match textIn fields "target" with
    | some target => .signal (.transition target (textIn fields "reason"))
    | none => .invalid action "a transition needs a \"target\""
  else if name == "execute" then
    match textIn fields "target" with
    | some target => .signal (.execute target ((Dict.get? fields "input").getD .null))
    | none => .invalid action "an execute needs a \"target\""
  else .exit action ((Dict.get? fields "value").getD .null)

/-- What a returned value asks for. -/
def ofValue (v : Json) : Returned :=
  match action? v with
  | some (action, fields) => ofAction action fields
  | none => .nothing

end Returned

end ScriptAgent
