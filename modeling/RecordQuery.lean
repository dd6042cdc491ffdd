import RecordQuery.Table
import RecordQuery.Text.Utf8
import RecordQuery.Text.Case
import RecordQuery.Text.Blank
import RecordQuery.Text.Quoted
import RecordQuery.Text.Numeral
import RecordQuery.Binary64.Decimal
import RecordQuery.Binary64.Arithmetic
import RecordQuery.Json
import RecordQuery.Json.Writer
import RecordQuery.Json.Reader
import RecordQuery.Json.Typed
import RecordQuery.Data.Misfit
import RecordQuery.Toml.Reader
import RecordQuery.Value
import RecordQuery.Value.Text
import RecordQuery.Value.Path
import RecordQuery.Value.Json
import RecordQuery.Value.Diagnostic
import RecordQuery.Error
import RecordQuery.Log
import RecordQuery.Random
import RecordQuery.Time.Pattern
import RecordQuery.Record
import RecordQuery.Query
import RecordQuery.Query.Context
import RecordQuery.Query.Machine
import RecordQuery.Query.Eval
import RecordQuery.Query.Targets
import RecordQuery.Query.Builder
import RecordQuery.Registry
import RecordQuery.Execution
import RecordQuery.Document
import RecordQuery.Document.Decode
import RecordQuery.Document.Read
import RecordQuery.Settings
import RecordQuery.Settings.Decode
import RecordQuery.Settings.CommandLine
import RecordQuery.Settings.Override
import RecordQuery.Files
import RecordQuery.Files.FileTree
import RecordQuery.Run
import RecordQuery.Program
import RecordQuery.Main
import RecordQuery.Proofs.Reach
import RecordQuery.Proofs.Targets
import RecordQuery.Proofs.InStep
import RecordQuery.Proofs.TargetSoundness
import RecordQuery.Proofs.Alike
import RecordQuery.Proofs.ErrorModes
import RecordQuery.Proofs.Independence
import RecordQuery.Proofs.Extension
import RecordQuery.Proofs.Bound
import RecordQuery.Proofs.Utf8
import RecordQuery.Proofs.JsonText
import RecordQuery.Proofs.Tables
import RecordQuery.Proofs.Lines
import RecordQuery.Proofs.Sessions
import RecordQuery.Proofs.Written
import RecordQuery.Proofs.RoundTrip
import RecordQuery.Proofs.Building
import RecordQuery.Proofs.Outcomes
import RecordQuery.Proofs.Inherited
import RecordQuery.Proofs.WellFormed
import RecordQuery.Proofs.Construction
import RecordQuery.Proofs.Traced
import RecordQuery.Proofs.Cells
import RecordQuery.Proofs.Instances
import RecordQuery.Proofs.Canonical
import RecordQuery.Proofs.Rereading
import RecordQuery.Proofs.Framing
import RecordQuery.Proofs.Output
import RecordQuery.Proofs.Keys
import RecordQuery.Proofs.Lifting
import RecordQuery.Proofs.WholeNumbers
import RecordQuery.Proofs.Finite
import RecordQuery.Proofs.Constants
import RecordQuery.Proofs.Equality
import RecordQuery.Proofs.Seeds
import RecordQuery.Proofs.Conversion
import RecordQuery.Proofs.Remainders
import RecordQuery.Proofs.Positions
import RecordQuery.Proofs.Projection
import RecordQuery.Proofs.Composition
import RecordQuery.Proofs.Chains
import RecordQuery.Proofs.Application
import RecordQuery.Proofs.Acyclic
import RecordQuery.Proofs.Expansion
import RecordQuery.Proofs.Descent
import RecordQuery.Proofs.Overrides
import RecordQuery.Proofs.Hashing
import RecordQuery.Proofs.Failures
import RecordQuery.Proofs.PlainText
import RecordQuery.Proofs.Escapes
import RecordQuery.Proofs.Arguments
import RecordQuery.Proofs.Registrations
import RecordQuery.Proofs.DottedPaths
import RecordQuery.Proofs.Indices
