import ScriptAgent.Number.Nearest
import ScriptAgent.Script.Operators
import ScriptAgent.Text.Blank
import ScriptAgent.Text.Case

/-!
# Functions of the language

The functions every script can call, found by name and by the type of the first argument.  A
function takes its first argument, looks at it in place, or changes it in place; only the last kind
is refused on a constant.
-/

namespace ScriptAgent.Script

/-- How a function uses its first argument. -/
inductive Access where
  | takes
  | reads
  | changes
deriving DecidableEq, Repr

/-- A function applied: the result, and the first argument afterwards. -/
structure Builtin where
  access : Access
  outcome : Except Fault (Value × Value)

namespace Library

/-- A result of a function that takes its first argument. -/
def takes (v : Value) : Option Builtin :=
  some ⟨.takes, .ok (v, .unit)⟩

/-- A result of a function that looks at its first argument. -/
def reads (target v : Value) : Option Builtin :=
  some ⟨.reads, .ok (v, target)⟩

/-- A result of a function that changes its first argument. -/
def changes (target v : Value) : Option Builtin :=
  some ⟨.changes, .ok (v, target)⟩

/-- A function that fails. -/
def fails (access : Access) (f : Fault) : Option Builtin :=
  some ⟨access, .error f⟩

/-- A place in a sequence, counted from its end if negative. -/
def place? (size : Nat) (index : Int) : Option Nat :=
  if index ≥ 0 then (if index.toNat < size then some index.toNat else none)
  else if (-index).toNat ≤ size then some (size - (-index).toNat) else none

/-- A start and a length cut down to a sequence; a negative start counts from its end. -/
def window (size : Nat) (start len : Int) : Nat × Nat :=
  let offset :=
    if start ≥ 0 then min start.toNat size
    else if (-start).toNat ≤ size then size - (-start).toNat else 0
  (offset, min len.toNat (size - offset))

/-- The part of a sequence in a window. -/
def slice (items : List α) (start len : Int) : List α :=
  let (offset, count) := window items.length start len
  (items.drop offset).take count

/-- The integer a text writes, in the given base. -/
def parseInt (s : String) (base : Nat) : Except Fault Value :=
  let fail (why : String) : Except Fault Value :=
    .error (.arithmetic ("Error parsing integer number '" ++ s ++ "': " ++ why))
  let cs := (Text.trim s).toList
  let (negative, digits) := match cs with
    | '-' :: rest => (true, rest)
    | '+' :: rest => (false, rest)
    | _ => (false, cs)
  if cs.isEmpty then fail "cannot parse integer from empty string"
  else
    match digits.mapM fun c => (digit? c).bind fun d => if d < base then some d else none with
    | none => fail "invalid digit found in string"
    | some [] => fail "invalid digit found in string"
    | some ds =>
      let n : Int := (ds.foldl (fun n d => n * base + d) 0 : Nat)
      let n := if negative then -n else n
      if fitsInt n then .ok (.int n)
      else if negative then fail "number too small to fit in target type"
      else fail "number too large to fit in target type"
where
  /-- The value of a digit up to `z`. -/
  digit? (c : Char) : Option Nat :=
    if c.isDigit then some (c.toNat - 48)
    else if 'a' ≤ c ∧ c ≤ 'z' then some (c.toNat - 87)
    else if 'A' ≤ c ∧ c ≤ 'Z' then some (c.toNat - 55)
    else none

/-- The double a decimal text writes. -/
def parseFloat (s : String) : Except Fault Value :=
  let cs := (Text.trim s).toList
  let (negative, body) := match cs with
    | '-' :: rest => (true, rest)
    | '+' :: rest => (false, rest)
    | _ => (false, cs)
  match Number.readFloat? body with
  | some x => .ok (.float (if negative then -x else x))
  | none => invalid
where
  /-- The fault of a text that writes no number. -/
  invalid : Except Fault Value :=
    .error (.arithmetic ("Error parsing floating-point number '" ++ s ++ "': invalid float literal"))

/-- A text or a character, as a text. -/
def piece? : Value → Option String
  | .str s => some s
  | .char c => some c.toString
  | _ => none

/-- The pieces of a text between separators; an empty separator parts all characters. -/
def split (s separator : String) : List String :=
  if separator.isEmpty then "" :: s.toList.map Char.toString ++ [""] else Text.splitOn s separator

/-- The words of a text. -/
def wordsOf (s : String) : List String :=
  (s.toList.splitBy fun a b => !Text.isBlank a && !Text.isBlank b).filterMap fun cs =>
    if cs.all Text.isBlank then none else some (String.ofList cs)

/-- The place of the first occurrence of a piece at or after a start, or minus one. -/
def indexOf (s piece : String) (start : Nat) : Int :=
  match Text.cut? piece.toList (s.toList.drop start) with
  | some (before, _) => start + before.length
  | none => -1

/-- Functions of texts. -/
def ofText (s : String) (name : String) (rest : List Value) : Option Builtin :=
  let cs := s.toList
  match name, rest with
  | "len", [] => takes (.int cs.length)
  | "bytes", [] => takes (.int s.utf8ByteSize)
  | "is_empty", [] => takes (.bool s.isEmpty)
  | "to_upper", [] => takes (.str (Text.upper s))
  | "to_lower", [] => takes (.str (Text.lower s))
  | "make_upper", [] => changes (.str (Text.upper s)) .unit
  | "make_lower", [] => changes (.str (Text.lower s)) .unit
  | "to_chars", [] => takes (.array (cs.map .char))
  | "to_debug", [] => takes (.str (Text.quoted s))
  | "to_string", [] => takes (.str s)
  | "trim", [] => changes (.str (Text.trim s)) .unit
  | "clear", [] => changes (.str "") .unit
  | "parse_int", [] =>
    some ⟨.takes, (parseInt s 10).map (·, .unit)⟩
  | "parse_int", [.int base] =>
    if 2 ≤ base ∧ base ≤ 36 then some ⟨.takes, (parseInt s base.toNat).map (·, .unit)⟩
    else fails .takes (.arithmetic ("Invalid radix: '" ++ toString base ++ "'"))
  | "parse_float", [] => some ⟨.takes, (parseFloat s).map (·, .unit)⟩
  | "contains", [v] => (piece? v).bind fun p => takes (.bool (Text.contains s p))
  | "starts_with", [.str p] => takes (.bool (Text.afterStart? p.toList cs).isSome)
  | "ends_with", [.str p] => takes (.bool (Text.afterStart? p.toList.reverse cs.reverse).isSome)
  | "index_of", [v] => (piece? v).bind fun p => takes (.int (indexOf s p 0))
  | "index_of", [v, .int start] =>
    (piece? v).bind fun p => takes (.int (indexOf s p (window cs.length start 0).1))
  | "sub_string", [.int start] => takes (.str (String.ofList (slice cs start cs.length)))
  | "sub_string", [.int start, .int len] => takes (.str (String.ofList (slice cs start len)))
  | "sub_string", [.range low high inclusive] =>
    takes (.str (String.ofList (slice cs low (high - low + (if inclusive then 1 else 0)))))
  | "split", [] => takes (.array ((wordsOf s).map .str))
  | "split", [.int at_] =>
    let offset := (window cs.length at_ 0).1
    takes (.array [.str (String.ofList (cs.take offset)), .str (String.ofList (cs.drop offset))])
  | "split", [v] => (piece? v).bind fun p => takes (.array ((split s p).map .str))
  | "replace", [find, put] => do
    let find ← piece? find
    let put ← piece? put
    changes (.str (put.intercalate (split s find))) .unit
  | "remove", [v] => (piece? v).bind fun p => changes (.str (String.join (split s p))) .unit
  | "append", [v] => (piece? v).bind fun p => changes (.str (s ++ p)) .unit
  | "truncate", [.int len] => changes (.str (String.ofList (cs.take len.toNat))) .unit
  | "crop", [.int start] => changes (.str (String.ofList (slice cs start cs.length))) .unit
  | "crop", [.int start, .int len] => changes (.str (String.ofList (slice cs start len))) .unit
  | "pop", [] =>
    match cs.reverse with
    | [] => changes (.str s) .unit
    | c :: before => changes (.str (String.ofList before.reverse)) (.char c)
  | "pop", [.int len] =>
    let kept := cs.length - len.toNat
    changes (.str (String.ofList (cs.take kept))) (.str (String.ofList (cs.drop kept)))
  | "pad", [.int len, v] => (piece? v).bind fun p => changes (.str (padded cs len.toNat p.toList)) .unit
  | "get", [.int i] =>
    takes (((place? cs.length i).bind fun n => cs[n]?).elim .unit .char)
  | "set", [.int i, .char c] =>
    changes (.str (match place? cs.length i with
      | some n => String.ofList (cs.set n c)
      | none => s)) .unit
  | _, _ => none
where
  /-- Characters filled up to a length with a repeated piece. -/
  padded (cs : List Char) (len : Nat) (p : List Char) : String :=
    if p.isEmpty then String.ofList cs
    else String.ofList (cs ++ ((List.replicate (len - cs.length) p).flatten.take (len - cs.length)))

/-- Items without those that equal their predecessor. -/
def dedup : List Value → List Value
  | [] => []
  | [v] => [v]
  | v :: w :: rest => if v.same true w then dedup (v :: rest) else v :: dedup (w :: rest)
termination_by items => items.length

/-- Items in their natural order, if they are of one ordered type. -/
def sorted (items : List Value) : Except Fault (List Value) :=
  match items with
  | [] | [_] => .ok items
  | first :: rest =>
    if rest.any fun v => v.typeName != first.typeName then
      .error (.functionNotFound "elements of different types cannot be compared")
    else
      match first with
      | .int _ | .float _ | .char _ | .str _ | .bool _ => .ok (items.mergeSort le)
      | .unit => .ok items
      | _ => .error (.functionNotFound ("< (" ++ first.signatureName ++ ", " ++ first.signatureName ++ ")"))
where
  /-- Whether a value comes no later than another of its type. -/
  le : Value → Value → Bool
    | .int a, .int b => a ≤ b
    | .float a, .float b => !(b < a)
    | .char a, .char b => a ≤ b
    | .str a, .str b => !(b < a)
    | .bool a, .bool b => !a || b
    | _, _ => true

/-- The place of the first item that equals a value, at or after a start, or minus one. -/
def indexIn (items : List Value) (v : Value) (start : Nat) : Int :=
  match (items.drop start).findIdx? (·.same true v) with
  | some n => start + n
  | none => -1

/-- Functions of arrays that need no function of the script. -/
def ofArray (items : List Value) (name : String) (rest : List Value) : Option Builtin :=
  let it : Value := .array items
  match name, rest with
  | "len", [] => reads it (.int items.length)
  | "is_empty", [] => reads it (.bool items.isEmpty)
  | "push", [v] => changes (.array (items ++ [v])) .unit
  | "append", [.array more] => changes (.array (items ++ more)) .unit
  | "insert", [.int i, v] =>
    let at_ :=
      if i ≥ 0 then min i.toNat items.length
      else if (-i).toNat ≤ items.length then items.length - (-i).toNat else 0
    changes (.array (items.take at_ ++ v :: items.drop at_)) .unit
  | "pop", [] =>
    match items.reverse with
    | [] => changes it .unit
    | v :: before => changes (.array before.reverse) v
  | "shift", [] =>
    match items with
    | [] => changes it .unit
    | v :: after => changes (.array after) v
  | "remove", [.int i] =>
    match place? items.length i with
    | some n => changes (.array (items.eraseIdx n)) (items[n]?.getD .unit)
    | none => changes it .unit
  | "clear", [] => changes (.array []) .unit
  | "truncate", [.int len] => changes (.array (items.take len.toNat)) .unit
  | "chop", [.int len] => changes (.array (items.drop (items.length - len.toNat))) .unit
  | "reverse", [] => changes (.array items.reverse) .unit
  | "dedup", [] => changes (.array (dedup items)) .unit
  | "sort", [] =>
    some ⟨.changes, (sorted items).map fun items => (.unit, .array items)⟩
  | "contains", [v] => reads it (.bool (items.any (·.same true v)))
  | "index_of", [v] => if v.isFn then none else reads it (.int (indexIn items v 0))
  | "index_of", [v, .int start] =>
    if v.isFn then none else reads it (.int (indexIn items v (window items.length start 0).1))
  | "get", [.int i] => reads it (((place? items.length i).bind fun n => items[n]?).getD .unit)
  | "set", [.int i, v] =>
    match place? items.length i with
    | some n => changes (.array (items.set n v)) .unit
    | none => fails .changes (.arrayBounds items.length i)
  | "extract", [.int start] => reads it (.array (slice items start items.length))
  | "extract", [.int start, .int len] => reads it (.array (slice items start len))
  | "split", [.int at_] =>
    let offset := (window items.length at_ 0).1
    changes (.array (items.take offset)) (.array (items.drop offset))
  | "pad", [.int len, v] =>
    changes (.array (items ++ List.replicate (len.toNat - items.length) v)) .unit
  | _, _ => none

/-- Functions of maps that need no function of the script. -/
def ofMap (entries : Dict Value) (name : String) (rest : List Value) : Option Builtin :=
  let it : Value := .map entries
  match name, rest with
  | "len", [] => reads it (.int entries.length)
  | "is_empty", [] => reads it (.bool entries.isEmpty)
  | "keys", [] => reads it (.array (entries.keys.map .str))
  | "values", [] => reads it (.array entries.values)
  | "contains", [.str key] => reads it (.bool (entries.contains key))
  | "get", [.str key] => reads it ((entries.get? key).getD .unit)
  | "set", [.str key, v] => changes (.map (entries.insert key v)) .unit
  | "remove", [.str key] => changes (.map (entries.erase key)) ((entries.get? key).getD .unit)
  | "clear", [] => changes (.map []) .unit
  | "mixin", [.map more] => changes (.map (entries.overlay more)) .unit
  | "fill_with", [.map more] => changes (.map (Dict.overlay more entries)) .unit
  | _, _ => none

/-- The digits of a word in a base that is a power of two. -/
def wordDigits (base : Nat) (n : Int) : String :=
  String.ofList (Nat.toDigits base (Int64.ofInt n).toUInt64.toNat)

/-- Functions of integers. -/
def ofInt (n : Int) (name : String) (rest : List Value) : Option Builtin :=
  match name, rest with
  | "to_float", [] => takes (.float (Float.ofInt n))
  | "to_int", [] => takes (.int n)
  | "to_hex", [] => takes (.str (wordDigits 16 n))
  | "to_octal", [] => takes (.str (wordDigits 8 n))
  | "to_binary", [] => takes (.str (wordDigits 2 n))
  | "abs", [] =>
    if fitsInt n.natAbs then takes (.int n.natAbs)
    else fails .takes (.arithmetic ("Negation overflow: -" ++ toString n))
  | "sign", [] => takes (.int n.sign)
  | "is_odd", [] => takes (.bool (n % 2 == 1))
  | "is_even", [] => takes (.bool (n % 2 == 0))
  | "is_zero", [] => takes (.bool (n == 0))
  | "max", [.int m] => takes (.int (max n m))
  | "min", [.int m] => takes (.int (min n m))
  | "max", [.float y] => takes (.float (if Float.ofInt n < y then y else Float.ofInt n))
  | "min", [.float y] => takes (.float (if y < Float.ofInt n then y else Float.ofInt n))
  | "range", [.int m] => takes (.range n m false)
  | _, _ => none

/-- Functions of doubles. -/
def ofFloat (x : Float) (name : String) (rest : List Value) : Option Builtin :=
  match name, rest with
  | "to_int", [] | "int", [] =>
    if Number.isFinite x && fitsInt (Number.truncate x) then takes (.int (Number.truncate x))
    else fails .takes (.arithmetic ("Integer overflow: to_int(" ++ Number.plainStyle.render x ++ ")"))
  | "to_float", [] => takes (.float x)
  | "floor", [] => takes (.float x.floor)
  | "ceiling", [] => takes (.float x.ceil)
  | "round", [] => takes (.float x.round)
  | "abs", [] => takes (.float x.abs)
  | "sqrt", [] => takes (.float x.sqrt)
  | "exp", [] => takes (.float x.exp)
  | "ln", [] => takes (.float x.log)
  | "fraction", [] =>
    takes (.float (if Number.isFinite x then x - (if x < 0.0 then x.ceil else x.floor) else x - x))
  | "sign", [] =>
    if Number.isNaN x then fails .takes (.arithmetic "Sign of NaN is undefined")
    else takes (.int (if x == 0.0 then 0 else if x < 0.0 then -1 else 1))
  | "is_zero", [] => takes (.bool (x == 0.0))
  | "is_nan", [] => takes (.bool (Number.isNaN x))
  | "is_finite", [] => takes (.bool (Number.isFinite x))
  | "is_infinite", [] => takes (.bool (!Number.isFinite x && !Number.isNaN x))
  | "max", [.float y] => takes (.float (if x < y then y else x))
  | "min", [.float y] => takes (.float (if y < x then y else x))
  | "max", [.int m] => takes (.float (if x < Float.ofInt m then Float.ofInt m else x))
  | "min", [.int m] => takes (.float (if Float.ofInt m < x then Float.ofInt m else x))
  | _, _ => none

/-- Functions of characters. -/
def ofChar (c : Char) (name : String) (rest : List Value) : Option Builtin :=
  let cased (s : String) : Value :=
    match s.toList with
    | [d] => .char d
    | _ => .char c
  match name, rest with
  | "to_upper", [] => takes (cased (Text.upper c.toString))
  | "to_lower", [] => takes (cased (Text.lower c.toString))
  | "to_int", [] => takes (.int c.toNat)
  | _, _ => none

/-- Functions of ranges. -/
def ofRange (low high : Int) (inclusive : Bool) (name : String) (rest : List Value) : Option Builtin :=
  let it : Value := .range low high inclusive
  match name, rest with
  | "contains", [.int n] => reads it (.bool (low ≤ n && (if inclusive then n ≤ high else n < high)))
  | "is_empty", [] => reads it (.bool (if inclusive then high < low else high ≤ low))
  | "start", [] => reads it (.int low)
  | "end", [] => reads it (.int high)
  | "is_inclusive", [] => reads it (.bool inclusive)
  | "is_exclusive", [] => reads it (.bool !inclusive)
  | _, _ => none

/-- A function for the type of its first argument. -/
def find? (name : String) (target : Value) (rest : List Value) : Option Builtin :=
  match target with
  | .str s => ofText s name rest
  | .array items => ofArray items name rest
  | .map entries => ofMap entries name rest
  | .int n => ofInt n name rest
  | .float x => ofFloat x name rest
  | .char c => ofChar c name rest
  | .range low high inclusive => ofRange low high inclusive name rest
  | _ => none

/-- A function for values of every type, given the text of values. -/
def anyType? (text : Value → String) (name : String) (target : Value) (rest : List Value) :
    Option Builtin :=
  let access : Access := match target with
    | .array _ | .map _ | .fn .. | .range .. | .record _ | .object _ | .console => .reads
    | _ => .takes
  match name, rest with
  | "to_string", [] => some ⟨access, .ok (.str (text target), target)⟩
  | "to_debug", [] => some ⟨access, .ok (.str (target.inner Value.typeName), target)⟩
  | "type_of", [] => takes (.str target.typeName)
  | _, _ => none

/-- Properties that values of the language have. -/
def property? (name : String) (target : Value) : Option Value :=
  let known : Bool := match target with
    | .str _ | .array _ => ["len", "is_empty"].contains name
    | .int _ => ["is_odd", "is_even", "is_zero"].contains name
    | .float _ =>
      ["int", "fraction", "floor", "ceiling", "round", "is_nan", "is_finite", "is_infinite",
        "is_zero"].contains name
    | .range .. => ["start", "end", "is_empty", "is_inclusive", "is_exclusive"].contains name
    | _ => false
  match target with
  | .fn callee _ =>
    if name == "name" then some (.str (Value.calleeName callee))
    else if name == "is_anonymous" then
      some (.bool (match callee with
        | .closure .. => true
        | .named _ => false))
    else none
  | .str s => if name == "bytes" then some (.int s.utf8ByteSize) else viaFunction known
  | _ => viaFunction known
where
  /-- A property that is a function without arguments. -/
  viaFunction (known : Bool) : Option Value :=
    if known then
      (find? name target []).bind fun b => match b.outcome with
        | .ok (v, _) => some v
        | .error _ => none
    else none

end Library

end ScriptAgent.Script
