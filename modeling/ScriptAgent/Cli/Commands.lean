import ScriptAgent.Cli.Arguments
import ScriptAgent.Cli.Clock
import ScriptAgent.Cli.Glob
import ScriptAgent.Loop.Run
import ScriptAgent.Settings.Settings

/-!
# Commands

What the program does with its arguments.  A command prints lines and may fail with a chain of
causes, the outermost first; lines that were printed before it failed stay.
-/

namespace ScriptAgent.Cli

/-- What a command is surrounded by. -/
structure Surroundings (m : Type → Type) where
  files : Files m
  /-- The value of an environment variable. -/
  env : String → m (Option String)
  /-- The texts of files that a tool may read. -/
  exposed : String → Except FileError String := fun _ => .error .notFound
  /-- The clock when the program started. -/
  now : Millis := 0
  /-- Tells apart what is made in one millisecond. -/
  salt : Nat := 0

/-- How the program ended. -/
structure Report where
  code : Nat
  /-- What it printed. -/
  lines : List String
  /-- What it complained about. -/
  complaint : Option String := none

/-- A computation that prints lines and may fail with causes. -/
abbrev Session (m : Type → Type) := ExceptT (List String) (StateT (List String) m)

/-- The lines of a cause in a list of causes, the first after a mark and the others under it; empty
lines stay empty. -/
def causeText (mark rest : String) (cause : String) : String :=
  "\n".intercalate <| (Text.splitOn cause "\n").mapIdx fun i line =>
    if line.isEmpty then line else (if i == 0 then mark else rest) ++ line

/-- A chain of causes as it is complained about; several causes of an error are numbered. -/
def complaintOf : List String → String
  | [] => "Error: "
  | [error] => "Error: " ++ error
  | [error, cause] => "Error: " ++ error ++ "\n\nCaused by:\n" ++ causeText "    " "    " cause
  | error :: causes =>
    "Error: " ++ error ++ "\n\nCaused by:\n" ++ "\n".intercalate (causes.mapIdx fun i cause =>
      causeText (Text.padLeft 4 ' ' (toString i) ++ ": ") "      " cause)

namespace Session

variable {m : Type → Type} [Monad m]

/-- Prints a line. -/
def say (line : String) : Session m Unit :=
  modify (· ++ [line])

/-- Prints lines. -/
def sayAll (lines : List String) : Session m Unit :=
  modify (· ++ lines)

/-- Fails with a chain of causes. -/
def fail (causes : List String) : Session m α :=
  throw causes

/-- Puts an error around the causes of a failure. -/
def within (error : String) (x : Session m α) : Session m α :=
  tryCatchThe (List String) x fun causes => throw (error :: causes)

/-- Asks the surroundings. -/
def ask (x : m α) : Session m α :=
  liftM x

/-- The text of a file that has to be there. -/
def readFile (s : Surroundings m) (error path : String) : Session m String := do
  match ← ask (s.files.read path) with
  | .ok text => return text
  | .error e => fail [error, e.message]

end Session

open Session

variable {m : Type → Type} [Monad m]

/-! ### Settings -/

/-- The settings of a project. -/
def projectSettings : String :=
  ".codeloop.yml"

/-- The directory that a variable names, if it names one from the root; otherwise one in the home. -/
def userDirectory? (s : Surroundings m) (name inHome : String) : m (Option String) := do
  match (← s.env name).filter (·.startsWith "/") with
  | some directory => return some directory
  | none => return ((← s.env "HOME").filter (!·.isEmpty)).map (· ++ "/" ++ inHome)

/-- The settings of a user. -/
def userSettings? (s : Surroundings m) : m (Option String) := do
  return (← userDirectory? s "XDG_CONFIG_HOME" ".config").map (· ++ "/codeloop/codeloop.yml")

/-- Where the log is kept. -/
def logDirectory (s : Surroundings m) : m String := do
  return (← userDirectory? s "XDG_DATA_HOME" ".local/share").getD "." ++ "/codeloop/logs"

/-- Reads settings from a file that was named. -/
def loadSettings (s : Surroundings m) (path : String) : Session m Settings :=
  within ("Failed to load config from " ++ path) do
    let text ← readFile s "Failed to read config file" path
    match Settings.parse? text with
    | some settings => return settings
    | none => fail ["Failed to parse config file", "malformed settings"]

/-- Settings from the first of several files that can be read as settings. -/
def firstSettings (s : Surroundings m) : List String → m (Option Settings)
  | [] => pure none
  | path :: rest => do
    match ← s.files.read path with
    | .ok text =>
      match Settings.parse? text with
      | some settings => return some settings
      | none => firstSettings s rest
    | .error _ => firstSettings s rest

/-- The settings that hold. -/
def settingsFor (s : Surroundings m) (path : Option String) : Session m Settings :=
  within "Failed to load configuration" do
    let settings ← match path with
      | some path => loadSettings s path
      | none => do
        let places := projectSettings :: (← ask (userSettings? s)).toList
        pure ((← ask (firstSettings s places)).getD {})
    match settings.problem? with
    | some problem => fail [problem]
    | none => return settings

/-! ### Traces -/

/-- What a trace tells, in a few words. -/
def describe : Trace → String
  | .log _ message _ => message
  | .comment _ line text => "line " ++ toString line ++ ": " ++ text
  | .property _ object member value => object ++ "." ++ member ++ " = " ++ value.compact
  | .toolCall c =>
    c.tool ++ " (" ++ (if c.success then "ok" else "failed") ++ ", " ++ toString (c.endedAt - c.startedAt) ++ " ms)"
  | .toolSlow _ _ tool _ _ duration => tool ++ " still running after " ++ toString duration ++ " ms"
  | .signal _ _ s => s.render
  | .abortSignal _ reason => reason
  | .codeExecution _ _ lines => toString lines ++ " lines executed"
  | .codeExecutionException _ message _ _ _ | .invalidCodeException _ message _ => message
  | .modelCallStarted _ model => model
  | .modelCallSuccess _ _ _ input output => toString input ++ " in / " ++ toString output ++ " out tokens"
  | .yield _ value => value.compact

/-- The line of a trace. -/
def traceLine (t : Trace) : String :=
  "  " ++ Clock.timeOfDay t.startedAt ++ " " ++ Text.padRight 26 ' ' t.typeName ++ " " ++ describe t

/-! ### Running a script -/

/-- Reads what is given for a variable: a value, or a text that is none. -/
def variableOf (given : String) : Session m (String × Json) :=
  match Text.cut? ['='] given.toList with
  | none => fail ["Invalid --var '" ++ given ++ "', expected NAME=JSON"]
  | some (name, raw) =>
    let raw := String.ofList raw
    pure (Text.trim (String.ofList name), (Json.parse? raw).getD (.str raw))

/-- The lines that tell how an execution ended. -/
def outcomeLines : Outcome → List String
  | .completed value => ["Completed: " ++ value.compact]
  | .suspended signal => ["Suspended: " ++ signal.render]
  | .failed error =>
    ("Failed: " ++ error.message) :: match error with
    | .execution _ stack _ _ | .assignment _ stack _ => [stack]
    | _ => []

/-- The lines of an execution. -/
def executionLines (e : Execution) (traces : List Trace) : List String :=
  outcomeLines e.outcome
    ++ (if e.variables.isEmpty then [] else
      "Variables:" :: e.variables.map fun (name, value) => "  " ++ name ++ " = " ++ value.compact)
    ++ (if traces.isEmpty then [] else "Traces:" :: traces.map traceLine)

/-- Runs a script. -/
def runScript (s : Surroundings m) (settings : Settings) (path : String) (backend : Option Backend)
    (given : List String) : Session m Unit := do
  let source ← readFile s ("Failed to read " ++ path) path
  match compile source with
  | .error e => fail ["Invalid code in " ++ path ++ ": " ++ e.render]
  | .ok compiled =>
    let vars := Dict.ofList (← given.mapM variableOf)
    let backend := backend.getD settings.backend
    say ("Running: " ++ path ++ " (" ++ backend.name ++ ")")
    let job : Job := { backend, compiled, «variables» := vars, limits := settings.limits }
    let (execution, host) := job.execute { micros := s.now * 1000 }
    sayAll (executionLines execution host.traces)
    if execution.outcome.error?.isSome then fail ["Script failed"]

/-! ### Checking scripts -/

/-- Compiles a script: whether it compiles. -/
def checkScript (s : Surroundings m) (path : String) : Session m Bool := do
  match compile (← readFile s ("Failed to read " ++ path) path) with
  | .ok _ =>
    say ("ok " ++ path)
    return true
  | .error e =>
    say ("invalid " ++ path ++ ": " ++ e.render)
    return false

/-- Compiles the scripts that a pattern names. -/
def checkPattern (s : Surroundings m) (pattern : String) : Session m (List Bool) := do
  match Glob.parse pattern with
  | .error e => fail ["Invalid glob pattern: " ++ pattern, e.render]
  | .ok ready => (← ask (Glob.find s.files ready)).mapM (checkScript s)

/-- Compiles the scripts that patterns name. -/
def checkScripts (s : Surroundings m) (patterns : List String) : Session m Unit := do
  let checked := (← patterns.mapM (checkPattern s)).flatten
  let invalid := checked.count false
  if checked.isEmpty then fail ["No files matched"]
  if 0 < invalid then
    fail [toString invalid ++ " of " ++ toString checked.length ++ " file(s) have invalid code"]

/-! ### Asking the model -/

/-- Where the model is asked. -/
def modelAddress : String :=
  "https://api.anthropic.com/v1/messages"

/-- Whether a character may stand in a header of a request. -/
def inHeader (c : Char) : Bool :=
  (' ' ≤ c && c != '\x7f') || c == '\t'

/-- A client without a network: it fails before or when it sends a request. -/
def offlineClient (settings : AnthropicSettings) (key : String) : ModelClient where
  respond _ _ := .error (.network <|
    if key.toList.all inHeader then "error sending request for url (" ++ modelAddress ++ ")" else "builder error")
  details := settings.details

/-- The tools of the command line: the date, and the texts of files. -/
def hostTools (now : Millis) (read : String → Except FileError String) : List Tool :=
  [{ name := "current_time"
     description := "Current local date and time (RFC 3339)"
     handler := fun _ _ _ => { outcome := some (.value (.str (Clock.dateTime now))) } },
   { name := "read_file"
     description := "Read a UTF-8 text file"
     inputSchema := some (.object [("type", .str "string")])
     key := 1
     handler := fun input _ _ => { outcome := some <|
       match input with
       | .str path =>
         match read path with
         | .ok text => .value (.str text)
         | .error e => .failed ("Failed to read " ++ path ++ ": " ++ e.message)
       | _ => .failed "read_file expects a path string" } }]

/-- The line of what an observer saw. -/
def observationLine : Observation → String
  | .trace t => traceLine t
  | .iterationEnd i => "Iteration " ++ i.id ++ " " ++ i.status.name

/-- The line of an iteration with an error. -/
def iterationLine? (i : Iteration) : Option String :=
  i.error.map fun e => "  " ++ i.id ++ " " ++ i.status.name ++ ": " ++ e.message

/-- The lines of a run that reached its end. -/
def successLines (r : RunResult) : List String :=
  ("Success after " ++ toString r.context.iterations.length ++ " iteration(s)")
    :: (r.exit.map ("  exit: " ++ ·)).toList
    ++ (r.returnValue.map ("  value: " ++ ·.compact)).toList
    ++ ((r.context.lastIteration?.bind (·.signal)).map ("  signal: " ++ ·.render)).toList

/-- Tells how a run ended. -/
def sayResult (r : RunResult) : Session m Unit := do
  sayAll (r.context.iterations.filterMap iterationLine?)
  match r.ending with
  | .success => sayAll (successLines r)
  | .interrupted snapshot _ => sayAll ["Interrupted", snapshot.write]
  | .failed e => fail ["Run failed: " ++ e.message]

/-- Lets the model solve a task. -/
def askModel (s : Surroundings m) (settings : Settings) (instructions : String) (withTools verbose : Bool) :
    Session m Unit := do
  let client := settings.clientSettings
  match ← ask (s.env client.keyVariable) with
  | none => fail [(ModelFailure.missingKey client.keyVariable).message]
  | some key =>
    let context : Context := {
      id := Ids.make "ctx" s.now s.salt
      instructions
      options := settings.contextOptions
      tools := if withTools then hostTools s.now s.exposed else [] }
    let agent : Agent := { client := offlineClient client key, settings := settings.loopSettings }
    let result := agent.run context { host := { micros := s.now * 1000 } }
    if verbose then sayAll (result.world.observed.map observationLine)
    sayResult result

/-! ### The program -/

/-- Does what a command asks for. -/
def perform (s : Surroundings m) (settings : Settings) (verbose : Bool) : Command → Session m Unit
  | .run script backend given => runScript s settings script backend given
  | .check patterns => checkScripts s patterns
  | .ask instructions withTools => askModel s settings instructions withTools verbose
  | .config => sayAll settings.lines

/-- Does what arguments ask for. -/
def execute (s : Surroundings m) (a : Arguments) : Session m Unit := do
  let settings ← settingsFor s a.config
  within "Application failed" do
    if a.verbose then say "Verbose mode enabled"
    perform s settings a.verbose a.command

/-- How a session ended. -/
def Report.ofSession (x : Session m Unit) : m Report := do
  match ← x.run.run [] with
  | (.ok (), lines) => return { code := 0, lines }
  | (.error causes, lines) => return { code := 1, lines, complaint := some (complaintOf causes) }

/-- What the program tells about itself. -/
def helpLines : List String :=
  ["codeloop - runs model-written scripts in a bounded sandbox",
    "",
    "Usage: codeloop [OPTIONS] <COMMAND>",
    "",
    "Commands:",
    "  run     Execute a script file in the sandbox",
    "  check   Compile script files and report invalid code",
    "  ask     Let the model solve a task by writing scripts",
    "  config  Print the resolved configuration",
    "  help    Print this message",
    "",
    "Options:",
    "  -c, --config <CONFIG>  Optional config file path",
    "  -v, --verbose          Verbose output",
    "  -h, --help             Print help",
    "  -V, --version          Print version"]

/-- Runs the program. -/
def program (s : Surroundings m) (args : List String) : m Report :=
  match parse args with
  | .help => pure { code := 0, lines := helpLines }
  | .version => pure { code := 0, lines := ["codeloop 0.1.0"] }
  | .invalid message => pure { code := 2, lines := [], complaint := some ("error: " ++ message) }
  | .command a => Report.ofSession (execute s a)

end ScriptAgent.Cli
