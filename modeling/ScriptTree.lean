import ScriptTree.Tree.Locate
import ScriptTree.Tree.Level
import ScriptTree.Tree.Traversal
import ScriptTree.Analysis.Payload
import ScriptTree.Number.Real
import ScriptTree.Text.Base64
import ScriptTree.Interpreter.Runner
import ScriptTree.Log.Journal
import ScriptTree.Log.Threads
import ScriptTree.Config.Preference
import ScriptTree.Docs.Markup
import ScriptTree.Docs.Packaged
import ScriptTree.Analysis.Service
import ScriptTree.Analysis.Session
import ScriptTree.Main
import ScriptTree.Shell.Console
import ScriptTree.Proofs.Interpreter.Sentinel
import ScriptTree.Proofs.Interpreter.Splitting
import ScriptTree.Proofs.Interpreter.Exchange
import ScriptTree.Proofs.Interpreter.Dialogue
import ScriptTree.Proofs.Tree.Linking
import ScriptTree.Proofs.Tree.Walk
import ScriptTree.Proofs.Tree.Forest
import ScriptTree.Proofs.Interpreter.Runner
import ScriptTree.Proofs.Interpreter.Lifetime
import ScriptTree.Proofs.Analysis.Session
import ScriptTree.Proofs.Json.Reader
import ScriptTree.Proofs.Analysis.Payload
import ScriptTree.Proofs.Analysis.History
import ScriptTree.Proofs.Interpreter.Isolation
import ScriptTree.Proofs.Interpreter.Live
import ScriptTree.Proofs.Interpreter.Generation
import ScriptTree.Proofs.Interpreter.Attribution
import ScriptTree.Proofs.Interpreter.Reply
import ScriptTree.Proofs.Interpreter.ErrorText
import ScriptTree.Proofs.Tree.Preorder
import ScriptTree.Proofs.Tree.Layout
import ScriptTree.Proofs.Tree.Order
import ScriptTree.Proofs.Analysis.Reference
import ScriptTree.Proofs.Number.Range
import ScriptTree.Proofs.Json.Writer
import ScriptTree.Proofs.Json.RoundTrip
import ScriptTree.Proofs.Json.Bounds
import ScriptTree.Proofs.Tree.Wire
import ScriptTree.Proofs.CommandLine.Export
import ScriptTree.Proofs.Text.Utf8
import ScriptTree.Proofs.Text.Base64
import ScriptTree.Proofs.Analysis.Command
import ScriptTree.Proofs.Analysis.Observers
import ScriptTree.Proofs.Docs.Entry
import ScriptTree.Proofs.Docs.Catalog
import ScriptTree.Proofs.Tree.Traversal
import ScriptTree.Proofs.Config.Parser
import ScriptTree.Proofs.File.Path
import ScriptTree.Proofs.Interpreter.Lookup
import ScriptTree.Proofs.Text.Line
import ScriptTree.Proofs.CommandLine.Failures
import ScriptTree.Proofs.Tree.Locate
import ScriptTree.Proofs.Text.Part
import ScriptTree.Proofs.Text.Terminal
import ScriptTree.Proofs.Interpreter.Response
import ScriptTree.Proofs.Analysis.Quoting
import ScriptTree.Proofs.Json.Extension
import ScriptTree.Proofs.Json.Compose
import ScriptTree.Proofs.Number.Decimal
import ScriptTree.Proofs.Tree.Encoding
import ScriptTree.Proofs.Analysis.Items
import ScriptTree.Proofs.Tree.Parentage
import ScriptTree.Proofs.Analysis.Completion
import ScriptTree.Proofs.CommandLine.Outline
import ScriptTree.Proofs.Tree.Expansion
import ScriptTree.Proofs.Analysis.Emitter
import ScriptTree.Proofs.Interpreter.Attempt
import ScriptTree.Proofs.Analysis.Service
import ScriptTree.Proofs.Docs.Markup
import ScriptTree.Proofs.Text.Replacement
import ScriptTree.Proofs.Interpreter.Stream
import ScriptTree.Proofs.File.Directory
import ScriptTree.Proofs.File.Way
import ScriptTree.Proofs.Json.Line
import ScriptTree.Proofs.Log.Event
import ScriptTree.Proofs.Log.Journal
import ScriptTree.Proofs.Time.Moment
import ScriptTree.Proofs.Log.Rotation
import ScriptTree.Proofs.Shell.Apart
import ScriptTree.Proofs.Yaml.Whole
