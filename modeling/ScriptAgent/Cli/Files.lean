import ScriptAgent.Text.Find

/-!
# Files

The commands ask for files through a small interface, so that they run on a disk as well as on a
tree of texts.
-/

namespace ScriptAgent.Cli

/-- Why a file cannot be read. -/
inductive FileError where
  | notFound
  | notDirectory
  | isDirectory
  /-- Its bytes are no text. -/
  | notText
  | other (text : String)
deriving DecidableEq, Repr

/-- The text of an error. -/
def FileError.message : FileError → String
  | notFound => "No such file or directory (os error 2)"
  | notDirectory => "Not a directory (os error 20)"
  | isDirectory => "Is a directory (os error 21)"
  | notText => "stream did not contain valid UTF-8"
  | other text => text

/-- What is asked of files. -/
structure Files (m : Type → Type) where
  /-- Whether there is something at a path. -/
  present : String → m Bool
  isDirectory : String → m Bool
  /-- The names in a directory, in order. -/
  names : String → m (List String)
  read : String → m (Except FileError String)

/-- Texts by their paths, which are lists of names. -/
structure FileTree where
  texts : List (List String × String)

namespace FileTree

/-- What is at a path: a text, or a directory. -/
inductive Entry where
  | text (content : String)
  | directory
deriving DecidableEq, Repr

/-- The names on a path as it is written. -/
def namesOn (path : String) : List String :=
  Text.splitOn path "/"

/-- A tree of texts by their written paths. -/
def ofTexts (texts : List (String × String)) : FileTree :=
  ⟨texts.map fun (path, content) => ((namesOn path).filter fun n => !n.isEmpty && n != ".", content)⟩

/-- Whether a path leads to the root of the tree or to a directory that holds the root. -/
def isOuter (path : List String) : Bool :=
  path.all (· == "..")

/-- What is at a path without detours. -/
def entry? (t : FileTree) (path : List String) : Option Entry :=
  match t.texts.lookup path with
  | some content => some (.text content)
  | none => if isOuter path || t.texts.any (path.isPrefixOf ·.1) then some .directory else none

/-- Follows the names on a path from a directory: the path without detours. -/
def follow (t : FileTree) (at_ : List String) : List String → Except FileError (List String)
  | [] => .ok at_
  | name :: rest =>
    match t.entry? at_ with
    | none => .error .notFound
    | some (.text _) => .error .notDirectory
    | some .directory =>
      if name.isEmpty || name == "." then t.follow at_ rest
      else if name == ".." && !isOuter at_ then t.follow at_.dropLast rest
      else t.follow (at_ ++ [name]) rest

/-- What is at a path as it is written. -/
def find (t : FileTree) (path : String) : Except FileError (List String × Entry) :=
  if path.isEmpty || path.startsWith "/" then .error .notFound
  else do
    let at_ ← t.follow [] (namesOn path)
    match t.entry? at_ with
    | some e => return (at_, e)
    | none => throw .notFound

/-- The names in a directory, in order. -/
def namesIn (t : FileTree) (directory : List String) : List String :=
  let below := t.texts.filterMap fun (path, _) =>
    if directory.isPrefixOf path then path[directory.length]? else none
  below.eraseDups.mergeSort (fun a b => !(b < a))

/-- A tree as files. -/
def files (t : FileTree) : Files Id where
  present path := (t.find path).isOk
  isDirectory path :=
    match t.find path with
    | .ok (_, .directory) => true
    | _ => false
  names path :=
    match t.find path with
    | .ok (at_, .directory) => t.namesIn at_
    | _ => []
  read path :=
    match t.find path with
    | .ok (_, .text content) => .ok content
    | .ok (_, .directory) => .error .isDirectory
    | .error e => .error e

end FileTree

end ScriptAgent.Cli
