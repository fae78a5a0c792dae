import ScriptAgent.Cli.Files

/-!
# Patterns of paths

A pattern names files: `?` stands for a character, `*` for any characters of a name, `**` for any
directories, and brackets for one of several characters.
-/

namespace ScriptAgent.Cli

/-- A piece of a pattern. -/
inductive GlobToken where
  | char (c : Char)
  | any
  | many
  /-- Any directories. -/
  | deep
  /-- A character of these ranges, or none of them. -/
  | oneOf (negated : Bool) (ranges : List (Char × Char))
deriving DecidableEq, Repr

/-- Why a pattern is none. -/
structure GlobError where
  position : Nat
  message : String
deriving DecidableEq, Repr

/-- The text of an error. -/
def GlobError.render (e : GlobError) : String :=
  "Pattern syntax error near position " ++ toString e.position ++ ": " ++ e.message

namespace Glob

/-- The ranges between brackets. -/
def rangesOf : List Char → List (Char × Char)
  | a :: '-' :: b :: rest => (a, b) :: rangesOf rest
  | a :: rest => (a, a) :: rangesOf rest
  | [] => []

/-- What stands between brackets, at least one character, and what follows. -/
def bracketed? : List Char → Option (List Char × List Char)
  | [] => none
  | first :: rest =>
    match Text.cut? [']'] rest with
    | some (more, after) => some (first :: more, after)
    | none => none

/-- Reads the token of a pattern after its opening bracket. -/
def readBrackets? : List Char → Option (GlobToken × List Char)
  | '!' :: rest => (bracketed? rest).map fun (inside, after) => (.oneOf true (rangesOf inside), after)
  | rest => (bracketed? rest).map fun (inside, after) => (.oneOf false (rangesOf inside), after)

/-- How many stars come first. -/
def stars (cs : List Char) : Nat :=
  (cs.takeWhile (· == '*')).length

/-- The tokens of a pattern: `position` counts the characters before, `fresh` says that a path
component starts here. -/
def tokensFrom (position : Nat) (fresh : Bool) : Nat → List Char → Except GlobError (List GlobToken)
  | 0, _ => .ok []
  | fuel + 1, cs =>
    match cs with
    | [] => .ok []
    | '?' :: rest => do return .any :: (← tokensFrom (position + 1) false fuel rest)
    | '*' :: _ =>
      let n := stars cs
      let rest := cs.drop n
      let after := position + n
      if n == 1 then do return .many :: (← tokensFrom after false fuel rest)
      else if 2 < n then .error ⟨position + 2, "wildcards are either regular `*` or recursive `**`"⟩
      else
        let misplaced := "recursive wildcards must form a single path component"
        if !fresh then .error ⟨position - 1, misplaced⟩
        else
          match rest with
          | [] => .ok [.deep]
          | '/' :: rest => do return .deep :: (← tokensFrom (after + 1) true fuel rest)
          | _ => .error ⟨after, misplaced⟩
    | '[' :: rest =>
      match readBrackets? rest with
      | some (token, after) => do
        return token :: (← tokensFrom (position + (cs.length - after.length)) false fuel after)
      | none => .error ⟨position, "invalid range pattern"⟩
    | c :: rest => do return .char c :: (← tokensFrom (position + 1) (c == '/') fuel rest)

/-- The tokens of a pattern. -/
def tokens (pattern : String) : Except GlobError (List GlobToken) :=
  tokensFrom 0 true (pattern.length + 1) pattern.toList

/-- Whether a token that stands for one character stands for this one. -/
def GlobToken.admits (c : Char) : GlobToken → Bool
  | .char d => c == d
  | .any => true
  | .oneOf negated ranges => ranges.any (fun (low, high) => low ≤ c && c ≤ high) != negated
  | .many | .deep => false

/-- A list and what is left of it after each of its items. -/
def suffixes : List Char → List (List Char)
  | [] => [[]]
  | c :: rest => (c :: rest) :: suffixes rest

/-- Whether tokens match a name as a whole. -/
def nameMatches : List GlobToken → List Char → Bool
  | [], cs => cs.isEmpty
  | t :: ts, cs =>
    match t with
    | .many | .deep => (suffixes cs).any (nameMatches ts)
    | _ =>
      match cs with
      | [] => false
      | c :: rest => GlobToken.admits c t && nameMatches ts rest

/-- The name that tokens spell, if there is only one. -/
def spelled? (ts : List GlobToken) : Option String :=
  (ts.mapM fun t => match t with
    | GlobToken.char c => some c
    | _ => none).map String.ofList

/-- The patterns of the names on a path. -/
def components (pattern : String) : List String :=
  let pieces := Text.splitOn pattern "/"
  if pieces.getLast? == some "" then pieces.dropLast else pieces

/-- A pattern that is ready to be used. -/
structure Ready where
  /-- Where to start. -/
  start : String
  names : List (List GlobToken)
  /-- Whether only directories are meant. -/
  onlyDirectories : Bool

/-- Reads a pattern. -/
def parse (pattern : String) : Except GlobError Ready := do
  let _ ← tokens pattern
  let root := pattern.toList.takeWhile (· == '/')
  let rest := String.ofList (pattern.toList.drop root.length)
  let names ← (components rest).mapM tokens
  return { start := if root.isEmpty then "." else String.ofList root
           names := if rest.isEmpty then names ++ [[]] else names
           onlyDirectories := pattern.endsWith "/" }

/-- The path of a name in a directory; the current directory is left out. -/
def below (directory name : String) : String :=
  if directory == "." then name else if directory.endsWith "/" then directory ++ name else directory ++ "/" ++ name

/-- The last name on a path. -/
def nameOf (path : String) : String :=
  ((Text.splitOn path "/").filter (!·.isEmpty)).getLastD ""

variable {m : Type → Type} [Monad m]

/-- The results for several paths, one after the other. -/
def collect (f : String → m (List String)) : List String → m (List String)
  | [] => pure []
  | path :: rest => do return (← f path) ++ (← collect f rest)

/-- Patterns without those for any directories at their start. -/
def afterDeep : List (List GlobToken) → List (List GlobToken)
  | [.deep] :: rest => afterDeep rest
  | rest => rest

mutual

/-- The paths below a path that patterns name; the fuel bounds how deep directories are nested. -/
def expand (t : Files m) (only : Bool) (fuel : Nat) (patterns : List (List GlobToken)) (path : String) :
    m (List String) :=
  match fuel, patterns with
  | 0, _ => pure []
  | _, [] => do return if only && !(← t.isDirectory path) then [] else [path]
  | fuel + 1, p :: rest =>
    match spelled? p with
    | some name => do
      let next := below path name
      let special := name == "." || name == ".."
      let there ← if special then t.isDirectory path else t.present next
      if there then expand t only fuel rest next else return []
    | none => do
      if !(← t.isDirectory path) then return []
      else
        let join (name : String) : String := if path == "." then "./" ++ name else below path name
        let special (name : String) : m (List String) :=
          if p.head? == some (.char '.') && nameMatches p name.toList then expand t only fuel rest (join name)
          else pure []
        let up ← special ".."
        let here ← special "."
        let found ← collect (visit t only fuel (p :: rest)) ((← t.names path).map (below path))
        return up ++ here ++ found
termination_by structural fuel

/-- The paths at or below an entry of a directory, whose name the first pattern has to match. -/
def visit (t : Files m) (only : Bool) (fuel : Nat) (patterns : List (List GlobToken)) (path : String) :
    m (List String) :=
  match fuel, patterns with
  | 0, _ => pure []
  | _, [] => pure []
  | fuel + 1, p :: rest =>
    let matched (p : List GlobToken) (rest : List (List GlobToken)) : m (List String) :=
      if nameMatches p (nameOf path).toList then expand t only fuel rest path else pure []
    if p == [.deep] then do
      let directory ← t.isDirectory path
      let deeper ← if directory then expand t only fuel ([.deep] :: afterDeep rest) path else pure []
      match afterDeep rest with
      | [] => return if directory then path :: deeper else []
      | next :: rest => return (← matched next rest) ++ deeper
    else matched p rest
termination_by structural fuel

end

/-- How deep directories may be nested. -/
def depthFuel : Nat := 1000

/-- The paths that a pattern names. -/
def find (t : Files m) (r : Ready) : m (List String) :=
  expand t r.onlyDirectories depthFuel r.names r.start

end Glob

end ScriptAgent.Cli
