import ClientForge.Address
import ClientForge.Address.Host
import ClientForge.Client.Axios
import ClientForge.Client.Call
import ClientForge.Client.File
import ClientForge.Client.Flavor
import ClientForge.Client.Form
import ClientForge.Client.Hook
import ClientForge.Client.Registry
import ClientForge.Client.Request
import ClientForge.Client.Swr
import ClientForge.CommandLine.Arguments
import ClientForge.CommandLine.Run
import ClientForge.Config.Override
import ClientForge.Config.Reader
import ClientForge.Contract.Basic
import ClientForge.Contract.Parameter
import ClientForge.Contract.Payload
import ClientForge.Contract.Surface
import ClientForge.Data.Binary64
import ClientForge.Data.Display
import ClientForge.Data.Moment
import ClientForge.Data.Value
import ClientForge.Document
import ClientForge.Failure
import ClientForge.Files.Filing
import ClientForge.Files.Path
import ClientForge.Files.Structured
import ClientForge.Files.Table
import ClientForge.Imports.Block
import ClientForge.Imports.Dependency
import ClientForge.Imports.Ref
import ClientForge.Json.Comments
import ClientForge.Json.Printer
import ClientForge.Json.Reader
import ClientForge.Main
import ClientForge.Models
import ClientForge.Naming
import ClientForge.Operation
import ClientForge.Package
import ClientForge.Profile
import ClientForge.Proofs.Client.Bindings
import ClientForge.Proofs.Client.Closedness
import ClientForge.Proofs.Client.Delivery
import ClientForge.Proofs.Client.Exports
import ClientForge.Proofs.Client.Failures
import ClientForge.Proofs.Client.Forms
import ClientForge.Proofs.Client.Forwarding
import ClientForge.Proofs.Client.Helpers
import ClientForge.Proofs.Client.Imports
import ClientForge.Proofs.Client.Names
import ClientForge.Proofs.Client.Order
import ClientForge.Proofs.Client.Presets
import ClientForge.Proofs.Client.Refusals
import ClientForge.Proofs.Client.Scopes
import ClientForge.Proofs.Client.Transport
import ClientForge.Proofs.Client.Wording
import ClientForge.Proofs.CommandLine.Outcome
import ClientForge.Proofs.Config.CompilerSettings
import ClientForge.Proofs.Config.Layers
import ClientForge.Proofs.Config.Loading
import ClientForge.Proofs.Config.Shapes
import ClientForge.Proofs.Contract.Answers
import ClientForge.Proofs.Contract.Imports
import ClientForge.Proofs.Contract.Optionality
import ClientForge.Proofs.Contract.ParameterLists
import ClientForge.Proofs.Contract.Surfaces
import ClientForge.Proofs.Data.Attempt
import ClientForge.Proofs.Data.Keys
import ClientForge.Proofs.Data.Part
import ClientForge.Proofs.Data.Rounding
import ClientForge.Proofs.Data.Shortest
import ClientForge.Proofs.Files.Reading
import ClientForge.Proofs.Files.Runs
import ClientForge.Proofs.Files.Writing
import ClientForge.Proofs.Imports.Forms
import ClientForge.Proofs.Imports.Order
import ClientForge.Proofs.Imports.Statements
import ClientForge.Proofs.Models.Emission
import ClientForge.Proofs.Models.File
import ClientForge.Proofs.Models.Identifiers
import ClientForge.Proofs.Models.Integrity
import ClientForge.Proofs.Models.Merging
import ClientForge.Proofs.Models.Records
import ClientForge.Proofs.Models.Refusals
import ClientForge.Proofs.Models.SchemaNames
import ClientForge.Proofs.Models.Spelling
import ClientForge.Proofs.Naming.Algebra
import ClientForge.Proofs.Naming.Characters
import ClientForge.Proofs.Naming.Identifiers
import ClientForge.Proofs.Naming.Joining
import ClientForge.Proofs.Naming.Routes
import ClientForge.Proofs.Operation.Merging
import ClientForge.Proofs.Operation.Parameters
import ClientForge.Proofs.Operation.Schemas
import ClientForge.Proofs.Operation.Shapes
import ClientForge.Proofs.Package.Failures
import ClientForge.Proofs.Package.Isolation
import ClientForge.Proofs.Package.Places
import ClientForge.Proofs.Package.Writing
import ClientForge.Proofs.Reference.Expansion
import ClientForge.Proofs.Reference.Failures
import ClientForge.Proofs.Reference.Inlining
import ClientForge.Proofs.Reference.Lookup
import ClientForge.Proofs.Reference.Meaning
import ClientForge.Proofs.Reference.Provenance
import ClientForge.Proofs.Reference.Reaching
import ClientForge.Proofs.Reference.Recursion
import ClientForge.Proofs.Reference.Replay
import ClientForge.Proofs.Reference.SchemaName
import ClientForge.Proofs.Reference.Session
import ClientForge.Proofs.Reference.Step
import ClientForge.Proofs.Reference.Target
import ClientForge.Proofs.Reference.Termination
import ClientForge.Proofs.Reference.Walk
import ClientForge.Proofs.Text.Numerals
import ClientForge.Proofs.Text.Strings
import ClientForge.Proofs.Text.Words
import ClientForge.Proofs.Types.Dereferencing
import ClientForge.Proofs.Types.Description
import ClientForge.Proofs.Types.Emitter
import ClientForge.Proofs.Types.Expressions
import ClientForge.Proofs.Types.Grouping
import ClientForge.Proofs.Types.Literals
import ClientForge.Proofs.Types.Reader
import ClientForge.Proofs.Types.Reading
import ClientForge.Proofs.Types.Refusals
import ClientForge.Proofs.Types.Relabelling
import ClientForge.Proofs.Types.Rendering
import ClientForge.Proofs.Types.Structure
import ClientForge.Proofs.Types.Texts
import ClientForge.Proofs.Types.Traversal
import ClientForge.Proofs.Types.Tree
import ClientForge.Proofs.Types.Unapplied
import ClientForge.Proofs.Types.Writing
import ClientForge.Proofs.Yaml.Refusals
import ClientForge.Reference.Pointer
import ClientForge.Reference.Resolver
import ClientForge.Text.Alphanumeric
import ClientForge.Text.CaseMap
import ClientForge.Text.Integer
import ClientForge.Text.Pieces
import ClientForge.Text.Printable
import ClientForge.Text.Quoted
import ClientForge.Text.Ranges
import ClientForge.Text.Utf8
import ClientForge.Text.WholeWord
import ClientForge.Traced
import ClientForge.Types.Expression
import ClientForge.Types.Literal
import ClientForge.Types.Schema
import ClientForge.Yaml.Cursor
import ClientForge.Yaml.Node
import ClientForge.Yaml.Plain
import ClientForge.Yaml.Reader
import ClientForge.Yaml.Token
