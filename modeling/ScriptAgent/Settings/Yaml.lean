import ScriptAgent.Text.Hex

/-!
# Reading YAML

Block and flow collections, plain, quoted and block scalars, comments, and one document.  Scalars
keep their text; what it means is decided by whoever reads them.  Anchors, tags and keys that are
not scalars are refused.
-/

namespace ScriptAgent

/-- A value of a document. -/
inductive Yaml where
  | scalar (text : String) (plain : Bool)
  | seq (items : List Yaml)
  | map (entries : List (String × Yaml))
deriving Inhabited

namespace Yaml

/-- The value of a key that nothing follows. -/
def empty : Yaml := scalar "" true

/-! ### Characters -/

/-- A place in a document. -/
structure Cursor where
  rest : List Char
  column : Nat

/-- A blank, a line feed, or nothing. -/
def endsWord : List Char → Bool
  | [] => true
  | c :: _ => c == ' ' || c == '\t' || c == '\n'

/-- A character with a meaning in flow collections. -/
def isFlowMark (c : Char) : Bool :=
  c == ',' || c == '[' || c == ']' || c == '\x7b' || c == '\x7d'

/-- Whether a colon that ends a key comes first. -/
def atColon (flow : Bool) : List Char → Bool
  | ':' :: rest =>
    endsWord rest || (flow && match rest with
      | c :: _ => isFlowMark c
      | [] => true)
  | _ => false

/-- Whether a dash that starts an item comes first. -/
def atDash : List Char → Bool
  | '-' :: rest => endsWord rest
  | _ => false

/-- Whether a line that separates documents starts here. -/
def atMarker (c : Cursor) : Bool :=
  c.column == 0 &&
    match c.rest with
    | '-' :: '-' :: '-' :: rest => endsWord rest
    | '.' :: '.' :: '.' :: rest => endsWord rest
    | _ => false

/-- The next place behind blanks and comments, and whether a line ended before it.  A tab is a blank
where `tabs` says so, and in flow collections. -/
def skipFrom (flow tabs comment crossed : Bool) (column : Nat) : List Char → Cursor × Bool
  | [] => (⟨[], column⟩, crossed)
  | c :: rest =>
    if c == '\n' then skipFrom flow flow false true 0 rest
    else if comment then skipFrom flow tabs true crossed (column + 1) rest
    else if c == ' ' || (c == '\t' && tabs) then skipFrom flow tabs false crossed (column + 1) rest
    else if c == '#' then skipFrom flow tabs true crossed (column + 1) rest
    else (⟨c :: rest, column⟩, crossed)

/-- The next place behind blanks and comments within a line of a block. -/
def skipInline (c : Cursor) : Cursor × Bool :=
  skipFrom false true false false c.column c.rest

/-- The next place behind blanks and comments at the start of a line. -/
def skipLines (c : Cursor) : Cursor × Bool :=
  skipFrom false false false false c.column c.rest

/-- The next place behind blanks and comments in a flow collection. -/
def skipFlow (c : Cursor) : Cursor :=
  (skipFrom true true false false c.column c.rest).1

/-! ### Scalars -/

/-- Whether a plain scalar can start here. -/
def startsPlain (flow : Bool) : List Char → Bool
  | [] => false
  | c :: rest =>
    if c == '-' || c == '?' || c == ':' then
      !endsWord rest && !(flow && match rest with
        | d :: _ => isFlowMark d
        | [] => true)
    else !("-?:,[]\x7b\x7d#&*!|>'\"%@\t\n ".toList.contains c || c.toNat == 0x60)

/-- The rest of a plain scalar on its line, in reverse, and what follows. -/
def plainFrom (flow : Bool) (acc : List Char) (column : Nat) : List Char → List Char × Cursor
  | [] => (acc, ⟨[], column⟩)
  | c :: rest =>
    let commented := c == '#' && match acc with
      | p :: _ => p == ' ' || p == '\t'
      | [] => false
    if c == '\n' || commented || atColon flow (c :: rest) || (flow && isFlowMark c) then (acc, ⟨c :: rest, column⟩)
    else plainFrom flow (c :: acc) (column + 1) rest

/-- A plain scalar on one line, without the blanks after it. -/
def readPlainLine (flow : Bool) (c : Cursor) : List Char × Cursor :=
  let (acc, after) := plainFrom flow [] c.column c.rest
  ((acc.dropWhile fun c => c == ' ' || c == '\t').reverse, after)

/-- How many lines end before the next character that is not blank, and its place. -/
def blankLines (ended : Nat) (column : Nat) : List Char → Nat × Cursor
  | [] => (ended, ⟨[], column⟩)
  | c :: rest =>
    if c == '\n' then blankLines (ended + 1) 0 rest
    else if c == ' ' || (c == '\t' && (ended == 0 || 0 < column)) then blankLines ended (column + 1) rest
    else (ended, ⟨c :: rest, column⟩)

/-- What stands for ended lines inside a scalar. -/
def folded (ended : Nat) : List Char :=
  if ended ≤ 1 then [' '] else List.replicate (ended - 1) '\n'

/-- A plain scalar with the lines that continue it, which start at `least` or further right. -/
def readPlain (flow : Bool) (least : Nat) : Nat → Cursor → Option (List Char × Cursor)
  | 0, _ => none
  | fuel + 1, c =>
    let (text, after) := readPlainLine flow c
    let (ended, next) := blankLines 0 after.column after.rest
    let goesOn := 0 < ended && !next.rest.isEmpty && (flow || (least ≤ next.column && !atMarker next)) &&
      next.rest.head? != some '#' && !(flow && next.rest.head?.any isFlowMark) && !atColon flow next.rest
    if !goesOn then some (text, after)
    else if !flow && next.rest.head? == some '\t' then none
    else do
      let (more, after) ← readPlain flow least fuel next
      -- a key cannot start on a line that continues a scalar
      if !flow && atColon flow after.rest then none
      else return (text ++ folded ended ++ more, after)

/-- The value of hexadecimal digits. -/
def hexCode? (digits : List Char) : Option Char := do
  let values ← digits.mapM Text.hexValue?
  let n := values.foldl (fun n d => n * 16 + d) 0
  if n < 0xd800 || (0xdfff < n && n < 0x110000) then some (Char.ofNat n) else none

/-- The character of an escape of one letter. -/
def escaped? (c : Char) : Option Char :=
  ([('0', 0), ('a', 7), ('b', 8), ('t', 9), ('\t', 9), ('n', 10), ('v', 11), ('f', 12), ('r', 13), ('e', 27), (' ', 32),
    ('"', 34), ('/', 47), ('\\', 92), ('N', 0x85), ('_', 0xa0), ('L', 0x2028), ('P', 0x2029)].lookup c).map Char.ofNat

/-- How many digits follow the letter of an escape. -/
def escapeWidth? (c : Char) : Option Nat :=
  [('x', 2), ('u', 4), ('U', 8)].lookup c

/-- Characters without the blanks they start with, which are read in reverse. -/
def dropSpaces (cs : List Char) : List Char :=
  cs.dropWhile fun c => c == ' ' || c == '\t'

/-- The rest of a quoted scalar, `acc` holding what was read in reverse. -/
def readQuoted (quote : Char) (acc : List Char) : Nat → Cursor → Option (String × Cursor)
  | 0, _ => none
  | fuel + 1, c =>
    match c.rest with
    | [] => none
    | ch :: rest =>
      let next : Cursor := ⟨rest, c.column + 1⟩
      if ch == quote then
        match quote, rest with
        | '\'', '\'' :: rest => readQuoted quote ('\'' :: acc) fuel ⟨rest, c.column + 2⟩
        | _, _ => some (String.ofList acc.reverse, next)
      else if ch == '\n' then
        let (ended, next) := blankLines 0 c.column c.rest
        let next : Cursor := ⟨dropSpaces next.rest, next.column⟩
        if atMarker next then none
        else readQuoted quote ((folded ended).reverse ++ dropSpaces acc) fuel next
      else if ch == '\\' && quote == '"' then
        match rest with
        | [] => none
        | e :: rest =>
          if e == '\n' then
            readQuoted quote acc fuel ⟨dropSpaces rest, 0⟩
          else
            match escapeWidth? e with
            | some width => do
              let ch ← hexCode? (rest.take width)
              if rest.length < width then none
              else readQuoted quote (ch :: acc) fuel ⟨rest.drop width, c.column + 2 + width⟩
            | none => do
              let ch ← escaped? e
              readQuoted quote (ch :: acc) fuel ⟨rest, c.column + 2⟩
      else readQuoted quote (ch :: acc) fuel next

/-- How a block scalar starts: whether its lines are folded, how its end is kept, and how far its
lines are indented. -/
structure BlockHeader where
  fold : Bool
  chomp : Option Bool := none
  indent : Option Nat := none

/-- Reads the marks of a block scalar. -/
def readHeader (h : BlockHeader) : List Char → Option (BlockHeader × List Char)
  | [] => some (h, [])
  | c :: rest =>
    if c == '+' then readHeader { h with chomp := some true } rest
    else if c == '-' then readHeader { h with chomp := some false } rest
    else if '1' ≤ c && c ≤ '9' then readHeader { h with indent := some (c.toNat - 48) } rest
    else
      let after := (c :: rest).dropWhile fun c => c == ' ' || c == '\t'
      match after with
      | [] => some (h, [])
      | '\n' :: rest => some (h, rest)
      | '#' :: rest => some (h, (rest.dropWhile (· != '\n')).drop 1)
      | _ => none

/-- The lines of a block scalar that are blank or start at `indent` or further right. -/
def blockLines (indent : Nat) : Nat → List Char → List (List Char) × List Char
  | 0, cs => ([], cs)
  | fuel + 1, cs =>
    if cs.isEmpty then ([], [])
    else
      let line := cs.takeWhile (· != '\n')
      let rest := (cs.dropWhile (· != '\n')).drop 1
      let spaces := (line.takeWhile (· == ' ')).length
      if spaces == line.length && spaces ≤ indent then
        let (more, after) := blockLines indent fuel rest
        ([] :: more, after)
      else if spaces < indent then ([], cs)
      else
        let (more, after) := blockLines indent fuel rest
        (line.drop indent :: more, after)

/-- Lines joined by line feeds, or by blanks where a fold is made. -/
def joinBlock (fold : Bool) : List (List Char) → List Char
  | [] => []
  | [line] => line
  | line :: next :: rest =>
    let isText (l : List Char) : Bool := !l.isEmpty && l.head? != some ' ' && l.head? != some '\t'
    if fold && isText line && isText next then line ++ [' '] ++ joinBlock fold (next :: rest)
    else if fold && isText line && next.isEmpty then line ++ joinBlock fold (next :: rest)
    else line ++ ['\n'] ++ joinBlock fold (next :: rest)

/-- The indentation of the first line that is not blank. -/
def firstIndent : Nat → List Char → Nat
  | 0, _ => 0
  | fuel + 1, cs =>
    let spaces := (cs.takeWhile (· == ' ')).length
    match cs.drop spaces with
    | '\n' :: rest => firstIndent fuel rest
    | _ => spaces

/-- Reads a block scalar after its first mark. -/
def readBlockScalar (fold : Bool) (least : Nat) (c : Cursor) : Option (Yaml × Cursor) := do
  let (h, rest) ← readHeader { fold } c.rest
  let indent := match h.indent with
    | some n => (least - 1) + n
    | none => max least (firstIndent rest.length rest)
  let (lines, after) := blockLines indent (rest.length + 1) rest
  let kept := (lines.reverse.dropWhile (·.isEmpty)).reverse
  let text := joinBlock h.fold kept
  let ending := match h.chomp with
    | some false => []
    | some true => List.replicate (lines.length - kept.length + (if kept.isEmpty then 0 else 1)) '\n'
    | none => if kept.isEmpty then [] else ['\n']
  return (scalar (String.ofList (text ++ ending)) false, ⟨after, 0⟩)

/-- Reads a scalar on one line that may be a key. -/
def readKey (flow : Bool) (c : Cursor) : Option (String × Cursor) :=
  match c.rest with
  | '"' :: rest => readQuoted '"' [] (rest.length + 1) ⟨rest, c.column + 1⟩
  | '\'' :: rest => readQuoted '\'' [] (rest.length + 1) ⟨rest, c.column + 1⟩
  | cs =>
    if startsPlain flow cs then
      let (text, after) := readPlainLine flow c
      some (String.ofList text, after)
    else none

/-- The place behind blanks within a line. -/
def skipSpaces (c : Cursor) : Cursor :=
  let n := (c.rest.takeWhile fun c => c == ' ' || c == '\t').length
  ⟨c.rest.drop n, c.column + n⟩

/-- Whether a key and its colon start here. -/
def atKey (c : Cursor) : Bool :=
  match readKey false c with
  | some (_, after) => atColon false (skipSpaces after).rest
  | none => false

/-! ### Collections -/

mutual

/-- Reads a value inside a flow collection. -/
def readFlow : Nat → Cursor → Option (Yaml × Cursor)
  | 0, _ => none
  | fuel + 1, c =>
    match c.rest with
    | '[' :: rest => readFlowItems [] fuel (skipFlow ⟨rest, c.column + 1⟩)
    | '\x7b' :: rest => readFlowEntries [] fuel (skipFlow ⟨rest, c.column + 1⟩)
    | '"' :: _ | '\'' :: _ => do
      let (text, after) ← readKey true c
      return (scalar text false, after)
    | cs =>
      if startsPlain true cs then do
        let (text, after) ← readPlain true 0 fuel c
        return (scalar (String.ofList text) true, after)
      else none

/-- Reads what follows the colon of a flow key. -/
def readFlowValue : Nat → Cursor → Option (Yaml × Cursor)
  | 0, _ => none
  | fuel + 1, c =>
    match c.rest with
    | ',' :: _ | ']' :: _ | '\x7d' :: _ => some (empty, c)
    | _ => readFlow fuel c

/-- Reads the items of a flow sequence. -/
def readFlowItems (acc : List Yaml) : Nat → Cursor → Option (Yaml × Cursor)
  | 0, _ => none
  | fuel + 1, c =>
    match c.rest with
    | ']' :: rest => some (seq acc.reverse, ⟨rest, c.column + 1⟩)
    | _ => do
      let (item, after) ← readFlow fuel c
      let after := skipFlow after
      let (item, after) ← match after.rest, item with
        | ':' :: rest, .scalar key _ => do
          let (value, after) ← readFlowValue fuel (skipFlow ⟨rest, after.column + 1⟩)
          pure (map [(key, value)], skipFlow after)
        | _, _ => pure (item, after)
      match after.rest with
      | ',' :: rest => readFlowItems (item :: acc) fuel (skipFlow ⟨rest, after.column + 1⟩)
      | ']' :: rest => some (seq (item :: acc).reverse, ⟨rest, after.column + 1⟩)
      | _ => none

/-- Reads the entries of a flow mapping. -/
def readFlowEntries (acc : List (String × Yaml)) : Nat → Cursor → Option (Yaml × Cursor)
  | 0, _ => none
  | fuel + 1, c =>
    match c.rest with
    | '\x7d' :: rest => some (map acc.reverse, ⟨rest, c.column + 1⟩)
    | _ => do
      let (key, after) ← readFlow fuel c
      let .scalar key _ := key | none
      let after := skipFlow after
      let (value, after) ← match after.rest with
        | ':' :: rest => readFlowValue fuel (skipFlow ⟨rest, after.column + 1⟩)
        | _ => pure (empty, after)
      let after := skipFlow after
      match after.rest with
      | ',' :: rest => readFlowEntries ((key, value) :: acc) fuel (skipFlow ⟨rest, after.column + 1⟩)
      | '\x7d' :: rest => some (map ((key, value) :: acc).reverse, ⟨rest, after.column + 1⟩)
      | _ => none

end

mutual

/-- Reads a value of a block that starts here.  Lines that continue it start at `least` or further
right; `inline` says that a key stands before it on its line. -/
def readNode (inline : Bool) (least : Nat) : Nat → Cursor → Option (Yaml × Cursor)
  | 0, _ => none
  | fuel + 1, c =>
    if atDash c.rest then if inline then none else readItems c.column [] fuel c
    else if atKey c then if inline then none else readEntries c.column [] fuel c
    else
      match c.rest with
      | '[' :: _ | '\x7b' :: _ => do
        let (v, after) ← readFlow fuel c
        if atColon false (skipSpaces after).rest then none else return (v, after)
      | '"' :: _ | '\'' :: _ => do
        let (text, after) ← readKey false c
        return (scalar text false, after)
      | '|' :: rest => readBlockScalar false least ⟨rest, c.column + 1⟩
      | '>' :: rest => readBlockScalar true least ⟨rest, c.column + 1⟩
      | cs =>
        if startsPlain false cs then do
          let (text, after) ← readPlain false least fuel c
          if atColon false after.rest then none else return (scalar (String.ofList text) true, after)
        else none
termination_by structural fuel => fuel

/-- Reads what follows a dash or a colon in a collection at a column; `dashes` says that a sequence
may start at the same column. -/
def readBelow (inline dashes : Bool) (column : Nat) : Nat → Cursor → Option (Yaml × Cursor)
  | 0, _ => none
  | fuel + 1, c =>
    let (next, crossed) := skipInline c
    if next.rest.isEmpty || (crossed && atMarker next) then some (empty, next)
    else if !crossed then readNode inline (column + 1) fuel next
    else if column < next.column then readNode false (column + 1) fuel next
    else if dashes && next.column == column && atDash next.rest then readItems column [] fuel next
    else some (empty, next)
termination_by structural fuel => fuel

/-- Reads the items of a block sequence, whose dashes stand at a column. -/
def readItems (column : Nat) (acc : List Yaml) : Nat → Cursor → Option (Yaml × Cursor)
  | 0, _ => none
  | fuel + 1, c => do
    let (item, after) ← readBelow false false column fuel ⟨c.rest.drop 1, c.column + 1⟩
    let (next, crossed) := if after.column == 0 then skipLines after else skipInline after
    let items := item :: acc
    if next.rest.isEmpty || atMarker next || next.column < column then return (seq items.reverse, next)
    else if next.column == column && (crossed || after.column == 0 || next.column == after.column) then
      if atDash next.rest then readItems column items fuel next else return (seq items.reverse, next)
    else none
termination_by structural fuel => fuel

/-- Reads the entries of a block mapping, whose keys stand at a column. -/
def readEntries (column : Nat) (acc : List (String × Yaml)) : Nat → Cursor → Option (Yaml × Cursor)
  | 0, _ => none
  | fuel + 1, c => do
    let (key, after) ← readKey false c
    let after := skipSpaces after
    let (value, after) ← readBelow true true column fuel ⟨after.rest.drop 1, after.column + 1⟩
    let (next, _) := if after.column == 0 then skipLines after else skipInline after
    let entries := (key, value) :: acc
    if next.rest.isEmpty || atMarker next || next.column < column then return (map entries.reverse, next)
    else if next.column == column then
      if atKey next then readEntries column entries fuel next else none
    else none
termination_by structural fuel => fuel

end

/-! ### Documents -/

/-- Characters whose lines end with line feeds only. -/
def normalized : List Char → List Char
  | [] => []
  | '\r' :: '\n' :: rest => '\n' :: normalized rest
  | '\r' :: rest => '\n' :: normalized rest
  | c :: rest => c :: normalized rest

/-- The place behind a marker. -/
def afterMarker (c : Cursor) : Cursor :=
  ⟨c.rest.drop 3, c.column + 3⟩

/-- Whether nothing follows but the end of the document. -/
def endsHere (c : Cursor) : Bool :=
  if c.rest.isEmpty then true
  else
    match c.rest with
    | '.' :: _ => atMarker c && (skipLines (skipInline (afterMarker c)).1).1.rest.isEmpty
    | _ => false

/-- Reads a document; one without a value is empty. -/
def parse? (source : String) : Option Yaml := do
  let cs := normalized source.toList
  let cs := match cs with
    | c :: rest => if c.toNat == 0xfeff then rest else cs
    | [] => []
  let fuel := 4 * cs.length + 8
  let (start, _) := skipLines ⟨cs, 0⟩
  let marked := atMarker start && start.rest.head? == some '-'
  let (start, _) := if marked then skipInline (afterMarker start) else (start, false)
  if start.rest.isEmpty || atMarker start then
    if endsHere start then some empty else none
  else do
    let (v, after) ← readNode false 0 fuel start
    let (after, _) := if after.column == 0 then skipLines after else skipInline after
    if endsHere after then some v else none

end Yaml

end ScriptAgent
