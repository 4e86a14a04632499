import ServiceCall.Build.Basic
import ServiceCall.Build.Protoc
import ServiceCall.Client.Basic
import ServiceCall.Client.Init
import ServiceCall.CommandLine.Argument
import ServiceCall.CommandLine.Basic
import ServiceCall.CommandLine.Level
import ServiceCall.CommandLine.Run
import ServiceCall.CommandLine.Settings
import ServiceCall.Configuration
import ServiceCall.Description.Basic
import ServiceCall.Description.Declarations
import ServiceCall.Disk.Basic
import ServiceCall.Disk.Path
import ServiceCall.Display.Basic
import ServiceCall.Grpc.Proxy
import ServiceCall.Grpc.Status
import ServiceCall.Hash.Blake3
import ServiceCall.Http.Address
import ServiceCall.Http.Exchange
import ServiceCall.Invoker
import ServiceCall.Json.Document
import ServiceCall.Json.Printer
import ServiceCall.Json.Record
import ServiceCall.Json.Scan
import ServiceCall.Json.Value
import ServiceCall.Main
import ServiceCall.Message.Json.Fault
import ServiceCall.Message.Json.Read
import ServiceCall.Message.Json.Scalar
import ServiceCall.Message.Json.WellKnown
import ServiceCall.Message.Json.Write
import ServiceCall.Message.Value
import ServiceCall.Message.Wire
import ServiceCall.Number.Binary
import ServiceCall.Number.Literal
import ServiceCall.Number.Shortest
import ServiceCall.Process
import ServiceCall.Proofs.Basic.Except
import ServiceCall.Proofs.Build.Arguments
import ServiceCall.Proofs.Build.Located
import ServiceCall.Proofs.Build.Report
import ServiceCall.Proofs.Build.Scan
import ServiceCall.Proofs.Build.Sources
import ServiceCall.Proofs.Client.Collaborators
import ServiceCall.Proofs.Client.Isolation
import ServiceCall.Proofs.Client.Leftovers
import ServiceCall.Proofs.Client.Pipeline
import ServiceCall.Proofs.Client.Progress
import ServiceCall.Proofs.Client.Renewal
import ServiceCall.Proofs.Client.Resolution
import ServiceCall.Proofs.Client.Retry
import ServiceCall.Proofs.Client.Session
import ServiceCall.Proofs.Client.Stages
import ServiceCall.Proofs.CommandLine.Call
import ServiceCall.Proofs.CommandLine.Line
import ServiceCall.Proofs.CommandLine.Positional
import ServiceCall.Proofs.CommandLine.Reading
import ServiceCall.Proofs.CommandLine.Repeated
import ServiceCall.Proofs.CommandLine.Streams
import ServiceCall.Proofs.Configuration.Settings
import ServiceCall.Proofs.Description.Report
import ServiceCall.Proofs.Description.Uri
import ServiceCall.Proofs.Disk.Absolute
import ServiceCall.Proofs.Disk.Alike
import ServiceCall.Proofs.Disk.Ancestor
import ServiceCall.Proofs.Disk.Attempts
import ServiceCall.Proofs.Disk.Directories
import ServiceCall.Proofs.Disk.Growth
import ServiceCall.Proofs.Disk.Links
import ServiceCall.Proofs.Disk.Path
import ServiceCall.Proofs.Disk.Tree
import ServiceCall.Proofs.Disk.Walk
import ServiceCall.Proofs.Display.Shown
import ServiceCall.Proofs.Display.Unmarked
import ServiceCall.Proofs.Invoker.Order
import ServiceCall.Proofs.Invoker.Positional
import ServiceCall.Proofs.Invoker.Reply
import ServiceCall.Proofs.Invoker.Unwrapping
import ServiceCall.Proofs.Json.Members
import ServiceCall.Proofs.Json.Printed
import ServiceCall.Proofs.Json.Record
import ServiceCall.Proofs.Json.Scanned
import ServiceCall.Proofs.Json.Spelling
import ServiceCall.Proofs.Json.Weight
import ServiceCall.Proofs.Message.Decode
import ServiceCall.Proofs.Message.Fits
import ServiceCall.Proofs.Message.Json
import ServiceCall.Proofs.Message.Length
import ServiceCall.Proofs.Message.Listed
import ServiceCall.Proofs.Message.Members
import ServiceCall.Proofs.Message.Merge
import ServiceCall.Proofs.Message.Nesting
import ServiceCall.Proofs.Message.Put
import ServiceCall.Proofs.Message.Rebuild
import ServiceCall.Proofs.Message.Reread
import ServiceCall.Proofs.Message.ReturnedField
import ServiceCall.Proofs.Message.ReturnedMessage
import ServiceCall.Proofs.Message.RoundTrip
import ServiceCall.Proofs.Message.Same
import ServiceCall.Proofs.Message.Scalar
import ServiceCall.Proofs.Message.ScalarJson
import ServiceCall.Proofs.Number.Convert
import ServiceCall.Proofs.Number.Decimal
import ServiceCall.Proofs.Number.Range
import ServiceCall.Proofs.Registry.Declared
import ServiceCall.Proofs.Registry.Index
import ServiceCall.Proofs.Registry.Legible
import ServiceCall.Proofs.Registry.Load
import ServiceCall.Proofs.Registry.Verdict
import ServiceCall.Proofs.Schema.Compiled
import ServiceCall.Proofs.Schema.Declared
import ServiceCall.Proofs.Schema.Layout
import ServiceCall.Proofs.Schema.Loaded
import ServiceCall.Proofs.Schema.Names
import ServiceCall.Proofs.Schema.References
import ServiceCall.Proofs.Schema.Resolve
import ServiceCall.Proofs.Schema.Standard
import ServiceCall.Proofs.Text.Base64
import ServiceCall.Proofs.Text.Lines
import ServiceCall.Proofs.Text.Utf8
import ServiceCall.Proofs.WellKnown.Held
import ServiceCall.Proofs.WellKnown.Known
import ServiceCall.Proofs.WellKnown.Layers
import ServiceCall.Proofs.WellKnown.Mask
import ServiceCall.Proofs.WellKnown.Returned
import ServiceCall.Proofs.WellKnown.Settled
import ServiceCall.Proofs.WellKnown.Time
import ServiceCall.Proofs.Wire.Agreement
import ServiceCall.Proofs.Wire.Number
import ServiceCall.Proofs.Wire.Record
import ServiceCall.Proofs.Workspace.Apart
import ServiceCall.Proofs.Workspace.Layout
import ServiceCall.Proofs.Workspace.Prepare
import ServiceCall.Proofs.Workspace.Repeated
import ServiceCall.Proxy
import ServiceCall.Registry.Basic
import ServiceCall.Registry.Index
import ServiceCall.Registry.Signature
import ServiceCall.Schema.Default
import ServiceCall.Schema.Error
import ServiceCall.Schema.Kind
import ServiceCall.Schema.Lookup
import ServiceCall.Schema.Names
import ServiceCall.Schema.Pool
import ServiceCall.Schema.Resolve
import ServiceCall.Schema.Source
import ServiceCall.Schema.Standard
import ServiceCall.Shell.Arithmetic
import ServiceCall.Shell.Builtin.Basic
import ServiceCall.Shell.Builtin.Control
import ServiceCall.Shell.Builtin.Table
import ServiceCall.Shell.Builtin.Variable
import ServiceCall.Shell.Command
import ServiceCall.Shell.Condition
import ServiceCall.Shell.Editor.Basic
import ServiceCall.Shell.Editor.Reader
import ServiceCall.Shell.Editor.Run
import ServiceCall.Shell.Evaluation
import ServiceCall.Shell.Expansion
import ServiceCall.Shell.Launch
import ServiceCall.Shell.Pattern
import ServiceCall.Shell.Print
import ServiceCall.Shell.Reader.Basic
import ServiceCall.Shell.Reader.Command
import ServiceCall.Shell.Reader.Word
import ServiceCall.Shell.Redirection
import ServiceCall.Shell.Regex
import ServiceCall.Shell.State
import ServiceCall.Shell.Syntax
import ServiceCall.Shell.Utility.Basic
import ServiceCall.Shell.Utility.Count
import ServiceCall.Shell.Utility.Cut
import ServiceCall.Shell.Utility.Edit
import ServiceCall.Shell.Utility.Evaluate
import ServiceCall.Shell.Utility.File
import ServiceCall.Shell.Utility.Grep
import ServiceCall.Shell.Utility.List
import ServiceCall.Shell.Utility.Path
import ServiceCall.Shell.Utility.Show
import ServiceCall.Shell.Utility.Sort
import ServiceCall.Shell.Utility.Start
import ServiceCall.Shell.Work
import ServiceCall.Text.Base64
import ServiceCall.Text.Blank
import ServiceCall.Text.Hex
import ServiceCall.Text.Hidden
import ServiceCall.Text.Likeness
import ServiceCall.Text.Octets
import ServiceCall.Text.Utf8
import ServiceCall.WellKnown.Basic
import ServiceCall.WellKnown.FieldMask
import ServiceCall.WellKnown.Held
import ServiceCall.WellKnown.Time
import ServiceCall.Wire.Raw
import ServiceCall.Wire.Varint
import ServiceCall.Workspace
