import ScriptAgent.Abort
import ScriptAgent.Cli.Arguments
import ScriptAgent.Cli.Clock
import ScriptAgent.Cli.Commands
import ScriptAgent.Cli.Files
import ScriptAgent.Cli.Glob
import ScriptAgent.Dict
import ScriptAgent.Digest
import ScriptAgent.Exit
import ScriptAgent.Ids
import ScriptAgent.Instrument.Compile
import ScriptAgent.Instrument.Hooks
import ScriptAgent.Instrument.LineScanner
import ScriptAgent.Instrument.Names
import ScriptAgent.Instrument.SourceMap
import ScriptAgent.Iteration
import ScriptAgent.Json.Basic
import ScriptAgent.Json.Decode
import ScriptAgent.Json.Equality
import ScriptAgent.Json.Printer
import ScriptAgent.Json.Reader
import ScriptAgent.Loop.Context
import ScriptAgent.Loop.Returned
import ScriptAgent.Loop.Run
import ScriptAgent.Loop.Turn
import ScriptAgent.Main
import ScriptAgent.Model.Anthropic
import ScriptAgent.Model.Client
import ScriptAgent.Model.Failure
import ScriptAgent.Model.Message
import ScriptAgent.Number.Binary64
import ScriptAgent.Number.Nearest
import ScriptAgent.Number.Shortest
import ScriptAgent.Number.Text
import ScriptAgent.Object.Draft
import ScriptAgent.Object.Instance
import ScriptAgent.Prompt.Convention
import ScriptAgent.Prompt.Feedback
import ScriptAgent.Prompt.System
import ScriptAgent.Prompt.Template
import ScriptAgent.Proofs.Instrument.Agreement
import ScriptAgent.Proofs.Instrument.ApplyTwins
import ScriptAgent.Proofs.Instrument.ChainTwins
import ScriptAgent.Proofs.Instrument.EvaluationTwins
import ScriptAgent.Proofs.Instrument.ExpressionTwins
import ScriptAgent.Proofs.Instrument.HostTwins
import ScriptAgent.Proofs.Instrument.MachineTwins
import ScriptAgent.Proofs.Instrument.PlaceTwins
import ScriptAgent.Proofs.Instrument.StatementTwins
import ScriptAgent.Proofs.Instrument.Twins
import ScriptAgent.Proofs.Instrument.Woven
import ScriptAgent.Proofs.Loop.Drive
import ScriptAgent.Proofs.Loop.Objects
import ScriptAgent.Proofs.Loop.Result
import ScriptAgent.Proofs.Loop.TurnOutcome
import ScriptAgent.Proofs.Object.Sealed
import ScriptAgent.Proofs.Sandbox.Computation
import ScriptAgent.Proofs.Sandbox.Crossing
import ScriptAgent.Proofs.Sandbox.Deeds
import ScriptAgent.Proofs.Sandbox.EvaluationConduct
import ScriptAgent.Proofs.Sandbox.HostConduct
import ScriptAgent.Proofs.Sandbox.Obedience
import ScriptAgent.Proofs.Sandbox.RunConduct
import ScriptAgent.Proofs.Sandbox.Signals
import ScriptAgent.Proofs.Sandbox.Writes
import ScriptAgent.RunError
import ScriptAgent.Sandbox.Apply
import ScriptAgent.Sandbox.Backend
import ScriptAgent.Sandbox.Binding
import ScriptAgent.Sandbox.Chain
import ScriptAgent.Sandbox.Excerpt
import ScriptAgent.Sandbox.Execution
import ScriptAgent.Sandbox.HostCall
import ScriptAgent.Sandbox.Machine
import ScriptAgent.Sandbox.Record
import ScriptAgent.Sandbox.Run
import ScriptAgent.Sandbox.Step
import ScriptAgent.Schema.Basic
import ScriptAgent.Schema.Check
import ScriptAgent.Script.Ast
import ScriptAgent.Script.Fault
import ScriptAgent.Script.Lexer
import ScriptAgent.Script.Library
import ScriptAgent.Script.Operators
import ScriptAgent.Script.ParseError
import ScriptAgent.Script.Parser
import ScriptAgent.Script.Quoted
import ScriptAgent.Script.Token
import ScriptAgent.Script.Value
import ScriptAgent.Settings.Scalar
import ScriptAgent.Settings.Settings
import ScriptAgent.Settings.Yaml
import ScriptAgent.Signal
import ScriptAgent.Snapshot
import ScriptAgent.Text.Blank
import ScriptAgent.Text.Case
import ScriptAgent.Text.CaseTable
import ScriptAgent.Text.Find
import ScriptAgent.Text.Hex
import ScriptAgent.Text.Lines
import ScriptAgent.Text.Quote
import ScriptAgent.Tool.Basic
import ScriptAgent.Tool.Bridge
import ScriptAgent.Trace
import ScriptAgent.Window.Truncate
import ScriptAgent.Window.Wrapping
import ScriptAgent.Proofs.Instrument.EndTwins
import ScriptAgent.Proofs.Instrument.Meaning
import ScriptAgent.Proofs.Dict
import ScriptAgent.Proofs.Loop.Resume
import ScriptAgent.Proofs.Loop.Validity
import ScriptAgent.Proofs.Sandbox.Announcements
import ScriptAgent.Proofs.Sandbox.BackendAgreement
import ScriptAgent.Proofs.Sandbox.Calls
import ScriptAgent.Proofs.Window.Cuts
import ScriptAgent.Proofs.Window.ExactFit
import ScriptAgent.Proofs.Json.Records
import ScriptAgent.Proofs.Loop.Persistence
import ScriptAgent.Proofs.Loop.Classification
import ScriptAgent.Proofs.Loop.Continuation
import ScriptAgent.Proofs.Object.Replay
import ScriptAgent.Proofs.Object.Tracking
import ScriptAgent.Proofs.Sandbox.Overload
import ScriptAgent.Proofs.Loop.Recovery
import ScriptAgent.Proofs.Loop.Invariant
import ScriptAgent.Proofs.Loop.ScriptOutcome
import ScriptAgent.Proofs.Window.Budget
import ScriptAgent.Proofs.Text.Case
import ScriptAgent.Proofs.Loop.Exits
import ScriptAgent.Proofs.Loop.Success
import ScriptAgent.Proofs.Loop.History
import ScriptAgent.Proofs.Sandbox.Exchange
import ScriptAgent.Proofs.Sandbox.ExchangeCalls
import ScriptAgent.Proofs.Sandbox.ExchangeOrder
import ScriptAgent.Proofs.Sandbox.Schedule
import ScriptAgent.Proofs.Loop.Disturbance
import ScriptAgent.Proofs.Loop.Aborting
import ScriptAgent.Proofs.Loop.Attempts
import ScriptAgent.Proofs.Loop.Chronicle
import ScriptAgent.Proofs.Window.Shrinking
import ScriptAgent.Proofs.Json.Storable
import ScriptAgent.Proofs.Loop.Settling
import ScriptAgent.Proofs.Window.Fairness
import ScriptAgent.Proofs.Window.Trimming
import ScriptAgent.Proofs.Object.Writing
import ScriptAgent.Proofs.Schema.Meaning
import ScriptAgent.Proofs.Schema.Defaults
import ScriptAgent.Proofs.Object.WritingBack
import ScriptAgent.Proofs.Schema.Culprit
import ScriptAgent.Proofs.Object.Repeating
import ScriptAgent.Proofs.Loop.ExitChoice
import ScriptAgent.Proofs.Loop.NewGlobals
import ScriptAgent.Proofs.Loop.Untouched
import ScriptAgent.Proofs.Sandbox.Pointing
import ScriptAgent.Proofs.Instrument.Columns
import ScriptAgent.Proofs.Instrument.HookPlaces
import ScriptAgent.Proofs.Instrument.Erasing
import ScriptAgent.Proofs.Instrument.Comments
import ScriptAgent.Proofs.Prompt.Extraction
import ScriptAgent.Proofs.Sandbox.TakenOnce
import ScriptAgent.Proofs.Script.Calls
import ScriptAgent.Proofs.Script.Quoting
import ScriptAgent.Proofs.Text.Blanks
import ScriptAgent.Proofs.Tool.Invocation
import ScriptAgent.Proofs.Loop.Judging
