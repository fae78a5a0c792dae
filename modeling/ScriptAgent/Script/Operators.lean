import ScriptAgent.Script.Fault
import ScriptAgent.Text.Find

/-!
# Operators

What the operators of scripts compute.  Integer arithmetic is checked; an integer beside a double
counts as a double; values of different types are never equal and never ordered.
-/

namespace ScriptAgent.Script

namespace Operator

/-- An operator that does not exist for its operands. -/
def missing (op : String) (operands : List Value) : Fault :=
  .functionNotFound (op ++ " (" ++ ", ".intercalate (operands.map Value.signatureName) ++ ")")

/-- An integer, or a fault that shows the operation if it does not fit into 64 bits. -/
def checked (what op : String) (a b n : Int) : Except Fault Value :=
  if fitsInt n then .ok (.int n)
  else .error (.arithmetic (what ++ ": " ++ toString a ++ " " ++ op ++ " " ++ toString b))

/-- A power of integers. -/
def power (a b : Int) : Except Fault Value :=
  if b > 4294967295 then
    .error (.arithmetic ("Exponential overflow: " ++ toString a ++ " ** " ++ toString b))
  else if b < 0 then
    .error (.arithmetic ("Integer raised to a negative power: " ++ toString a ++ " ** " ++ toString b))
  else if a == 0 || a == 1 || a == -1 then
    .ok (.int (if b == 0 then 1 else if a == -1 && b % 2 == 0 then 1 else a))
  else checked "Exponential overflow" "**" a b (if b > 64 then UInt64.size else a.pow b.toNat)

/-- A quotient toward zero. -/
def quotient (a b : Int) : Except Fault Value :=
  if b == 0 then .error (.arithmetic ("Division by zero: " ++ toString a ++ " / " ++ toString b))
  else checked "Division overflow" "/" a b (a.tdiv b)

/-- What a division toward zero leaves. -/
def modulo (a b : Int) : Except Fault Value :=
  if b == 0 || (b == -1 && a == -9223372036854775808) then
    .error (.arithmetic ("Modulo division by zero or overflow: " ++ toString a ++ " % " ++ toString b))
  else .ok (.int (a.tmod b))

/-- The bits of a word moved up, or down by a negative distance. -/
def shiftUp (a b : Int) : Int :=
  if b ≥ 64 then 0
  else if b ≥ 0 then (Int64.ofInt a <<< Int64.ofInt b).toInt
  else if b ≤ -64 then (if a ≥ 0 then 0 else -1)
  else (Int64.ofInt a >>> Int64.ofInt (-b)).toInt

/-- A comparison by its operator, from what holds of the operands. -/
def comparison? (op : String) (eq lt gt : Bool) : Option Bool :=
  if op == "==" then some eq
  else if op == "!=" then some !eq
  else if op == "<" then some lt
  else if op == ">" then some gt
  else if op == "<=" then some (lt || eq)
  else if op == ">=" then some (gt || eq)
  else none

/-- A comparison of values of an ordered type. -/
def compared? {α : Type} [BEq α] [LT α] [DecidableLT α] (op : String) (a b : α) : Option Bool :=
  comparison? op (a == b) (a < b) (b < a)

/-- An operator on integers. -/
def onInts (op : String) (a b : Int) : Except Fault Value :=
  match compared? op a b with
  | some holds => .ok (.bool holds)
  | none =>
    if op == "+" then checked "Addition overflow" op a b (a + b)
    else if op == "-" then checked "Subtraction overflow" op a b (a - b)
    else if op == "*" then checked "Multiplication overflow" op a b (a * b)
    else if op == "/" then quotient a b
    else if op == "%" then modulo a b
    else if op == "**" then power a b
    else if op == "<<" then .ok (.int (shiftUp a b))
    else if op == ">>" then .ok (.int (shiftUp a (-b)))
    else if op == "&" then .ok (.int (Int64.ofInt a &&& Int64.ofInt b).toInt)
    else if op == "|" then .ok (.int (Int64.ofInt a ||| Int64.ofInt b).toInt)
    else if op == "^" then .ok (.int (Int64.ofInt a ^^^ Int64.ofInt b).toInt)
    else if op == ".." then .ok (.range a b false)
    else if op == "..=" then .ok (.range a b true)
    else .error (missing op [.int a, .int b])

/-- An operator on doubles, the operands as they were written kept for the fault. -/
def onFloats (op : String) (a b : Float) (operands : List Value) : Except Fault Value :=
  match comparison? op (a == b) (a < b) (b < a) with
  | some holds => .ok (.bool holds)
  | none =>
    if op == "+" then .ok (.float (a + b))
    else if op == "-" then .ok (.float (a - b))
    else if op == "*" then .ok (.float (a * b))
    else if op == "/" then .ok (.float (a / b))
    else if op == "%" then .ok (.float (Number.remainder a b))
    else if op == "**" then .ok (.float (a.pow b))
    else .error (missing op operands)

/-- An operator on truth values. -/
def onBools (op : String) (a b : Bool) : Except Fault Value :=
  match comparison? op (a == b) (!a && b) (a && !b) with
  | some holds => .ok (.bool holds)
  | none =>
    if op == "&" then .ok (.bool (a && b))
    else if op == "|" then .ok (.bool (a || b))
    else if op == "^" then .ok (.bool (a != b))
    else .error (missing op [.bool a, .bool b])

/-- An operator on texts, of which some may be characters. -/
def onTexts (op : String) (a b : String) (operands : List Value) : Except Fault Value :=
  match compared? op a b with
  | some holds => .ok (.bool holds)
  | none =>
    if op == "+" then .ok (.str (a ++ b))
    else if op == "-" then .ok (.str (if b.isEmpty then a else Text.replace a b ""))
    else .error (missing op operands)

/-- An operator on values of types that have nothing in common. -/
def onOthers (op : String) (a b : Value) : Except Fault Value :=
  match comparison? op false false false with
  | some holds =>
    if a.typeName == b.typeName then .error (missing op [a, b]) else .ok (.bool holds)
  | none => .error (missing op [a, b])

/-- Equality of values of one composed type. -/
def onComposed (op : String) (a b : Value) : Except Fault Value :=
  if op == "==" then .ok (.bool (a.same true b))
  else if op == "!=" then .ok (.bool !(a.same true b))
  else .error (missing op [a, b])

/-- What a binary operator computes, given the text of values. -/
def binary (text : Value → String) (op : String) (a b : Value) : Except Fault Value :=
  match a, b with
  | .int x, .int y => onInts op x y
  | .float x, .float y => onFloats op x y [a, b]
  | .int x, .float y => onFloats op (Float.ofInt x) y [a, b]
  | .float x, .int y => onFloats op x (Float.ofInt y) [a, b]
  | .bool x, .bool y => onBools op x y
  | .str x, .str y => onTexts op x y [a, b]
  | .str x, .char y => onTexts op x y.toString [a, b]
  | .char x, .str y => onTexts op x.toString y [a, b]
  | .char x, .char y => onTexts op x.toString y.toString [a, b]
  | .unit, .unit =>
    match comparison? op true false false with
    | some holds => .ok (.bool (op == "==" && holds))
    | none => .error (missing op [a, b])
  | .array x, .array y => if op == "+" then .ok (.array (x ++ y)) else onComposed op a b
  | .map x, .map y => if op == "+" then .ok (.map (Dict.overlay x y)) else onComposed op a b
  | .range .., .range .. => onComposed op a b
  | .str x, other => if op == "+" then .ok (.str (x ++ text other)) else onOthers op a b
  | other, .str y => if op == "+" then .ok (.str (text other ++ y)) else onOthers op a b
  | _, _ => onOthers op a b

/-- What a variable holds after an assignment through an operator: an array takes up an item, or the
items of another array; else the operator is applied. -/
def assigned (text : Value → String) (op : String) (old new : Value) : Except Fault Value :=
  match old, new with
  | .array xs, .array ys => if op == "+" then .ok (.array (xs ++ ys)) else binary text op old new
  | .array xs, v => if op == "+" then .ok (.array (xs ++ [v])) else binary text op old new
  | _, _ => binary text op old new

/-- What a unary operator computes. -/
def unary (op : String) (v : Value) : Except Fault Value :=
  match v with
  | .int n =>
    if op == "-" then
      if fitsInt (-n) then .ok (.int (-n)) else .error (.arithmetic ("Negation overflow: -" ++ toString n))
    else if op == "+" then .ok v
    else .error (missing op [v])
  | .float x =>
    if op == "-" then .ok (.float (-x)) else if op == "+" then .ok v else .error (missing op [v])
  | .bool b => if op == "!" then .ok (.bool !b) else .error (missing op [v])
  | _ => .error (missing op [v])

end Operator

end ScriptAgent.Script
