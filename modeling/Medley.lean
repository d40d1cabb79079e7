import Medley.CommandLine.Arguments
import Medley.CommandLine.Command
import Medley.CommandLine.Help
import Medley.CommandLine.Run
import Medley.Config.Basic
import Medley.Config.Expansion
import Medley.Config.Reader
import Medley.Config.Written
import Medley.Error
import Medley.FileSystem
import Medley.IdList
import Medley.Json.Basic
import Medley.Json.Reader
import Medley.Json.Written
import Medley.Kind
import Medley.Main
import Medley.Media.Evaluation
import Medley.Media.Glob
import Medley.Media.Library
import Medley.Media.Order
import Medley.Media.Value
import Medley.Namespace
import Medley.Node
import Medley.Pattern.Context
import Medley.Pattern.Grammar
import Medley.Pattern.Lexer
import Medley.Pattern.Token
import Medley.Position
import Medley.Proofs.Config.Expansion
import Medley.Proofs.IdList
import Medley.Proofs.Meaning.Agreement
import Medley.Proofs.Meaning.Asking
import Medley.Proofs.Meaning.Commutation
import Medley.Proofs.Meaning.Containing
import Medley.Proofs.Meaning.Denotation
import Medley.Proofs.Meaning.Drawing
import Medley.Proofs.Meaning.Evaluation
import Medley.Proofs.Meaning.Fetching
import Medley.Proofs.Meaning.Filtering
import Medley.Proofs.Meaning.Finding
import Medley.Proofs.Meaning.IdAlias
import Medley.Proofs.Meaning.Lowering
import Medley.Proofs.Meaning.Narrowing
import Medley.Proofs.Meaning.Paging
import Medley.Proofs.Meaning.Peeling
import Medley.Proofs.Meaning.Quoting
import Medley.Proofs.Meaning.Ranges
import Medley.Proofs.Meaning.Rearrangement
import Medley.Proofs.Meaning.Registration
import Medley.Proofs.Meaning.Relinking
import Medley.Proofs.Meaning.Removal
import Medley.Proofs.Meaning.Renaming
import Medley.Proofs.Meaning.Rows
import Medley.Proofs.Meaning.Searching
import Medley.Proofs.Meaning.Selection
import Medley.Proofs.Meaning.Unfolding
import Medley.Proofs.Meaning.Unions
import Medley.Proofs.Meaning.Unsharing
import Medley.Proofs.Meaning.Wrapping
import Medley.Proofs.Media.Arrangement
import Medley.Proofs.Media.Classes
import Medley.Proofs.Media.Components
import Medley.Proofs.Media.Likeness
import Medley.Proofs.Media.Order
import Medley.Proofs.Media.Wildcards
import Medley.Proofs.Pattern.Classification
import Medley.Proofs.Pattern.Derivations
import Medley.Proofs.Pattern.Positions
import Medley.Proofs.Pattern.Progress
import Medley.Proofs.Pattern.Spelling
import Medley.Proofs.Pattern.Tokenizing
import Medley.Proofs.Pattern.Validity
import Medley.Proofs.Pattern.Words
import Medley.Proofs.Persistence.ActivePlaylist
import Medley.Proofs.Persistence.Calls
import Medley.Proofs.Persistence.Deferred
import Medley.Proofs.Persistence.Interrupted
import Medley.Proofs.Persistence.Mirror
import Medley.Proofs.Persistence.Mirroring
import Medley.Proofs.Persistence.Protection
import Medley.Proofs.Persistence.Restored
import Medley.Proofs.Persistence.Rollback
import Medley.Proofs.Record.Grammar
import Medley.Proofs.Record.RoundTrip
import Medley.Proofs.References.Acceptance
import Medley.Proofs.References.Chains
import Medley.Proofs.References.Cycles
import Medley.Proofs.References.Descent
import Medley.Proofs.References.Reachability
import Medley.Proofs.Registry.Aliases
import Medley.Proofs.Registry.Arena
import Medley.Proofs.Registry.Binding
import Medley.Proofs.Registry.Changes
import Medley.Proofs.Registry.Frames
import Medley.Proofs.Registry.Identities
import Medley.Proofs.Registry.Occupancy
import Medley.Proofs.Registry.Restoring
import Medley.Proofs.Registry.Runs
import Medley.Proofs.Registry.Stripping
import Medley.Proofs.Registry.WellFormed
import Medley.Proofs.Sql.Aliases
import Medley.Proofs.Sql.Columns
import Medley.Proofs.Sql.Correspondence
import Medley.Proofs.Sql.Independence
import Medley.Proofs.Sql.Lexing
import Medley.Proofs.Sql.Outline
import Medley.Proofs.Sql.Rendering
import Medley.Proofs.Sql.Unambiguity
import Medley.Proofs.Store.Agreement
import Medley.Proofs.Store.Files
import Medley.Proofs.Store.Memory
import Medley.Proofs.Store.Places
import Medley.Proofs.Store.Requests
import Medley.Proofs.Text.Lines
import Medley.Proofs.Text.Numerals
import Medley.Proofs.Text.Percent
import Medley.Proofs.Tree.Inlining
import Medley.Proofs.Tree.Substitution
import Medley.Proofs.Tree.Validity
import Medley.Query.Compile
import Medley.Query.Compiled
import Medley.Query.Json
import Medley.Query.Predicate
import Medley.Record.Reader
import Medley.Record.Written
import Medley.Registry.Basic
import Medley.Registry.Binding
import Medley.Registry.Change
import Medley.Registry.Queries
import Medley.Registry.Restore
import Medley.Registry.Scheduler
import Medley.Registry.State
import Medley.Registry.Validation
import Medley.SortedMap
import Medley.Store.Basic
import Medley.Store.Either
import Medley.Store.Files
import Medley.Store.Memory
import Medley.Text.Blank
import Medley.Text.CaseTable
import Medley.Text.Integer
import Medley.Text.Lowercase
import Medley.Text.Percent
import Medley.Text.Split
import Medley.Text.Utf8
import Medley.Tree.Basic
import Medley.Tree.Build
import Medley.Tree.View
import Medley.Yaml.Cursor
import Medley.Yaml.Reader
import Medley.Yaml.Scalar
import Medley.Yaml.Written
