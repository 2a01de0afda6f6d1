import ContractBindings.AbiType
import ContractBindings.AbiType.Descriptor
import ContractBindings.Binding.Encoding
import ContractBindings.Binding.Plan
import ContractBindings.Binding.TypeMap
import ContractBindings.Config
import ContractBindings.Contract
import ContractBindings.Decimal.Layout
import ContractBindings.Decimal.Shortest
import ContractBindings.Error
import ContractBindings.Fetch
import ContractBindings.Files.Fault
import ContractBindings.Files.Path
import ContractBindings.Files.Tree
import ContractBindings.Flags
import ContractBindings.Flags.Help
import ContractBindings.Host
import ContractBindings.Identifier.Distinct
import ContractBindings.Identifier.Members
import ContractBindings.Identifier.Reserved
import ContractBindings.Identifier.Resolve
import ContractBindings.Identifier.Words
import ContractBindings.Json.Fault
import ContractBindings.Json.Reader
import ContractBindings.Json.Record
import ContractBindings.Json.Scalars
import ContractBindings.Json.Shape
import ContractBindings.Json.Skip
import ContractBindings.Json.Value
import ContractBindings.Json.Writer
import ContractBindings.Log
import ContractBindings.Log.Filter
import ContractBindings.Main
import ContractBindings.Manifest.Document
import ContractBindings.Manifest.Fault
import ContractBindings.Manifest.Loading
import ContractBindings.Manifest.Warned
import ContractBindings.Members
import ContractBindings.Module.Client
import ContractBindings.Module.Comment
import ContractBindings.Module.Generate
import ContractBindings.Module.Implementation
import ContractBindings.Module.Lines
import ContractBindings.Module.Prelude
import ContractBindings.Node.Answer
import ContractBindings.Node.Endpoint
import ContractBindings.Node.Fault
import ContractBindings.Node.Request
import ContractBindings.Node.Status
import ContractBindings.Options
import ContractBindings.Outcome
import ContractBindings.Proofs.AbiType.Completion
import ContractBindings.Proofs.AbiType.Depth
import ContractBindings.Proofs.AbiType.Grammar
import ContractBindings.Proofs.AbiType.Stopping
import ContractBindings.Proofs.AbiType.Style
import ContractBindings.Proofs.AbiType.UnknownNames
import ContractBindings.Proofs.Binding.Decoders
import ContractBindings.Proofs.Binding.Sketch
import ContractBindings.Proofs.Binding.Spelled
import ContractBindings.Proofs.Binding.Supported
import ContractBindings.Proofs.Encoding.ArgumentText
import ContractBindings.Proofs.Encoding.Arguments
import ContractBindings.Proofs.Encoding.Definitions
import ContractBindings.Proofs.Encoding.Evaluation
import ContractBindings.Proofs.Encoding.TypeText
import ContractBindings.Proofs.Encoding.Typing
import ContractBindings.Proofs.Files.Path
import ContractBindings.Proofs.Files.Tree
import ContractBindings.Proofs.Identifier.AddedMethods
import ContractBindings.Proofs.Identifier.BorrowedNames
import ContractBindings.Proofs.Identifier.Casing
import ContractBindings.Proofs.Identifier.Copies
import ContractBindings.Proofs.Identifier.Counted
import ContractBindings.Proofs.Identifier.DeclarationOrder
import ContractBindings.Proofs.Identifier.Distinct
import ContractBindings.Proofs.Identifier.Indivisible
import ContractBindings.Proofs.Identifier.Marks
import ContractBindings.Proofs.Identifier.MethodNames
import ContractBindings.Proofs.Identifier.Occurrences
import ContractBindings.Proofs.Identifier.Overloads
import ContractBindings.Proofs.Identifier.ParameterNames
import ContractBindings.Proofs.Identifier.Stems
import ContractBindings.Proofs.Identifier.Underscores
import ContractBindings.Proofs.Identifier.Usable
import ContractBindings.Proofs.Json.Containers
import ContractBindings.Proofs.Json.Integers
import ContractBindings.Proofs.Json.RecordFields
import ContractBindings.Proofs.Json.RecordParts
import ContractBindings.Proofs.Json.Records
import ContractBindings.Proofs.Json.RoundTrip
import ContractBindings.Proofs.Json.Skipped
import ContractBindings.Proofs.Json.StringLiteral
import ContractBindings.Proofs.Json.Tree
import ContractBindings.Proofs.Manifest.Descriptors
import ContractBindings.Proofs.Manifest.Entries
import ContractBindings.Proofs.Manifest.Faults
import ContractBindings.Proofs.Manifest.Forgiven
import ContractBindings.Proofs.Manifest.Lenient
import ContractBindings.Proofs.Manifest.Loaded
import ContractBindings.Proofs.Manifest.UnknownMembers
import ContractBindings.Proofs.Members
import ContractBindings.Proofs.Module.ClassReader
import ContractBindings.Proofs.Module.ClientImage
import ContractBindings.Proofs.Module.Comment
import ContractBindings.Proofs.Module.CommentEnds
import ContractBindings.Proofs.Module.Faults
import ContractBindings.Proofs.Module.Imports
import ContractBindings.Proofs.Module.Layout
import ContractBindings.Proofs.Module.Lexer
import ContractBindings.Proofs.Module.NamedHash
import ContractBindings.Proofs.Module.Pieces
import ContractBindings.Proofs.Module.ReadBack
import ContractBindings.Proofs.Module.SameInvocations
import ContractBindings.Proofs.Module.Scopes
import ContractBindings.Proofs.Module.Skeleton
import ContractBindings.Proofs.Module.Text
import ContractBindings.Proofs.Module.TopLevel
import ContractBindings.Proofs.Node.AnswerTree
import ContractBindings.Proofs.Node.ManifestText
import ContractBindings.Proofs.Results
import ContractBindings.Proofs.Run.ChosenHash
import ContractBindings.Proofs.Run.Fetching
import ContractBindings.Proofs.Run.NodeOutcome
import ContractBindings.Proofs.Run.OneSource
import ContractBindings.Proofs.Run.QueriedContract
import ContractBindings.Proofs.Run.Sources
import ContractBindings.Proofs.Run.Steps
import ContractBindings.Proofs.Run.Stopped
import ContractBindings.Proofs.Run.Trace
import ContractBindings.Proofs.Run.Written
import ContractBindings.Proofs.ScriptHash.Canonical
import ContractBindings.Proofs.ScriptHash.Spelling
import ContractBindings.Proofs.Text.Alphabet
import ContractBindings.Proofs.Text.Letters
import ContractBindings.Proofs.Text.PrefixFree
import ContractBindings.Proofs.Text.Runs
import ContractBindings.Proofs.Text.Splitting
import ContractBindings.Run
import ContractBindings.ScriptHash
import ContractBindings.ScriptHash.Json
import ContractBindings.Source
import ContractBindings.Text.Bytes
import ContractBindings.Text.Hex
import ContractBindings.Text.Quoted
import ContractBindings.Text.Space
import ContractBindings.Text.Split
import ContractBindings.Text.Unprintable
import ContractBindings.Url
import ContractBindings.Url.Host
import ContractBindings.Url.Percent
import ContractBindings.Url.Punycode
import ContractBindings.Word
import ContractBindings.World
import ContractBindings.Yaml.Cursor
import ContractBindings.Yaml.Node
import ContractBindings.Yaml.Scalar
import ContractBindings.Yaml.Token
