import ScriptAgent.Sandbox.Backend

/-!
# Arguments of the command line

Options stand before or after the command; what may be given to every command may also stand before
it.  An option is given at most once at each of these places.
-/

namespace ScriptAgent.Cli

/-- What the program is asked to do. -/
inductive Command where
  /-- Run a script. -/
  | run (script : String) (backend : Option Backend) (given : List String)
  /-- Compile scripts. -/
  | check (patterns : List String)
  /-- Let the model solve a task. -/
  | ask (instructions : String) (hostTools : Bool)
  /-- Show the settings. -/
  | config
deriving DecidableEq, Repr

/-- A command with what may be given to every command. -/
structure Arguments where
  config : Option String := none
  verbose : Bool := false
  command : Command
deriving DecidableEq, Repr

/-- What came of reading arguments. -/
inductive Parsed where
  | command (arguments : Arguments)
  | help
  | version
  | invalid (message : String)
deriving DecidableEq, Repr

/-- An option. -/
structure OptionSpec where
  long : String
  short : Option Char := none
  takesValue : Bool := false
  /-- Whether it can be given more than once. -/
  repeats : Bool := false
  /-- Whether a value is one it takes. -/
  admits : String → Bool := fun _ => true

/-- Options and values as they were given, at one place. -/
structure Given where
  options : List (String × String) := []
  values : List String := []

namespace Given

/-- The value of an option. -/
def value? (g : Given) (long : String) : Option String :=
  g.options.lookup long

/-- Whether an option was given. -/
def has (g : Given) (long : String) : Bool :=
  (g.value? long).isSome

end Given

/-- Why arguments are not read further. -/
inductive Halted where
  | help
  | version
  | invalid (message : String)

/-- How far arguments are read: what was given, the option that waits for its value, and whether
only values follow. -/
structure Reading where
  given : Given := {}
  waiting : Option OptionSpec := none
  valuesOnly : Bool := false

namespace Reading

/-- Takes an option with its value. -/
def takeOption (r : Reading) (o : OptionSpec) (value : String) : Except Halted Reading :=
  if o.long == "help" then .error .help
  else if o.long == "version" then .error .version
  else if !o.admits value then
    .error (.invalid ("invalid value '" ++ value ++ "' for '--" ++ o.long ++ "'"))
  else if !o.repeats && r.given.has o.long then
    .error (.invalid ("the argument '--" ++ o.long ++ "' cannot be used multiple times"))
  else .ok { r with given := { r.given with options := r.given.options ++ [(o.long, value)] }, waiting := none }

/-- Refuses to leave an option without its value. -/
def settled (r : Reading) : Except Halted Reading :=
  match r.waiting with
  | some o => .error (.invalid ("a value is required for '--" ++ o.long ++ "' but none was supplied"))
  | none => .ok r

/-- Takes a long option, without its dashes. -/
def takeLong (specs : List OptionSpec) (r : Reading) (word : List Char) : Except Halted Reading := do
  let r ← r.settled
  let name := String.ofList (word.takeWhile (· != '='))
  let attached := match word.dropWhile (· != '=') with
    | _ :: value => some (String.ofList value)
    | [] => none
  match specs.find? (·.long == name), attached with
  | none, _ => .error (.invalid ("unexpected argument '--" ++ name ++ "' found"))
  | some o, some value =>
    if o.takesValue then r.takeOption o value
    else .error (.invalid ("unexpected value '" ++ value ++ "' for '--" ++ name ++ "' found; no more were expected"))
  | some o, none => if o.takesValue then .ok { r with waiting := some o } else r.takeOption o ""

/-- Takes short options that stand together; the rest after one that takes a value is its value. -/
def takeShort (specs : List OptionSpec) (r : Reading) : List Char → Except Halted Reading
  | [] => .ok r
  | c :: rest => do
    let r ← r.settled
    match specs.find? (·.short == some c) with
    | none => .error (.invalid ("unexpected argument '-" ++ c.toString ++ "' found"))
    | some o =>
      if !o.takesValue then
        if rest.head? == some '=' then .error (.invalid "unexpected value found; no more were expected")
        else takeShort specs (← r.takeOption o "") rest
      else
        match rest with
        | [] => .ok { r with waiting := some o }
        | '=' :: value => r.takeOption o (String.ofList value)
        | value => r.takeOption o (String.ofList value)

/-- Takes a value. -/
def takeValue (r : Reading) (word : String) : Except Halted Reading :=
  match r.waiting with
  | some o => if r.valuesOnly then r.settled else r.takeOption o word
  | none => .ok { r with given := { r.given with values := r.given.values ++ [word] } }

/-- Takes one argument. -/
def take (specs : List OptionSpec) (r : Reading) (word : String) : Except Halted Reading :=
  if r.valuesOnly then r.takeValue word
  else
    match word.toList with
    | ['-', '-'] => .ok { r with valuesOnly := true }
    | '-' :: '-' :: long => r.takeLong specs long
    | '-' :: c :: short => r.takeShort specs (c :: short)
    | _ => r.takeValue word

end Reading

/-- The options that may be given to every command. -/
def commonOptions : List OptionSpec := [
  { long := "config", short := some 'c', takesValue := true, admits := fun v => !v.isEmpty },
  { long := "verbose", short := some 'v' },
  { long := "help", short := some 'h' }]

/-- The options before a command. -/
def outerOptions : List OptionSpec :=
  commonOptions ++ [{ long := "version", short := some 'V' }]

/-- Whether a name is that of a backend. -/
def isBackend (name : String) : Bool :=
  match Backend.parse name with
  | .ok _ => true
  | .error _ => false

/-- The options of a command. -/
def optionsOf? (command : String) : Option (List OptionSpec) :=
  if command == "run" then some (commonOptions ++ [
    { long := "backend", short := some 'b', takesValue := true, admits := isBackend },
    { long := "var", takesValue := true, repeats := true }])
  else if command == "ask" then some (commonOptions ++ [{ long := "script-tools" }])
  else if command == "check" || command == "config" then some commonOptions
  else none

/-- Takes arguments up to a command: what was given, and the command with the arguments after it. -/
def takeOuter (r : Reading) : List String → Except Halted (Given × Option (String × List String))
  | [] => do return ((← r.settled).given, none)
  | word :: rest => do
    if r.waiting.isNone && !r.valuesOnly && !word.startsWith "-" then return (r.given, some (word, rest))
    else
      let next ← r.take outerOptions word
      if next.given.values.isEmpty then takeOuter next rest
      else .error (.invalid ("unexpected argument '" ++ word ++ "' found"))

/-- The command that was given. -/
def commandOf (name : String) (g : Given) : Except String Command :=
  let backend := match (g.value? "backend").map Backend.parse with
    | some (.ok b) => some b
    | _ => none
  match name, g.values with
  | "run", [script] =>
    if script.isEmpty then .error "a value is required for '<SCRIPT>' but none was supplied"
    else .ok (.run script backend ((g.options.filter (·.1 == "var")).map (·.2)))
  | "check", [] => .error "the following required arguments were not provided: <PATTERNS>..."
  | "check", patterns => .ok (.check patterns)
  | "ask", [instructions] => .ok (.ask instructions (g.has "script-tools"))
  | "config", [] => .ok .config
  | _, [] => .error "required arguments were not provided"
  | _, value :: _ => .error ("unexpected argument '" ++ value ++ "' found")

/-- Reads arguments up to the end or to what halts it. -/
def read (args : List String) : Except Halted Arguments := do
  let (outer, command?) ← takeOuter {} args
  let some (name, rest) := command? | throw (.invalid "a command is required")
  if name == "help" then throw .help
  let some specs := optionsOf? name | throw (.invalid ("unrecognized subcommand '" ++ name ++ "'"))
  let inner ← (← rest.foldlM (Reading.take specs) {}).settled
  let g := inner.given
  match commandOf name g with
  | .error message => throw (.invalid message)
  | .ok command =>
    return { config := (g.value? "config").or (outer.value? "config")
             verbose := g.has "verbose" || outer.has "verbose", command }

/-- Reads arguments. -/
def parse (args : List String) : Parsed :=
  match read args with
  | .ok a => .command a
  | .error .help => .help
  | .error .version => .version
  | .error (.invalid message) => .invalid message

example : parse ["-v", "run", "a", "--backend=isolated", "--var", "x=1", "-cs.yml"] =
    .command ⟨some "s.yml", true, .run "a" (some .isolated) ["x=1"]⟩ := by decide +kernel

end ScriptAgent.Cli
