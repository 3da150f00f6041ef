import SchemaTables.Artifacts
import SchemaTables.Check.Run
import SchemaTables.CommandLine.Run
import SchemaTables.Files.Store
import SchemaTables.Generation
import SchemaTables.Identifiers
import SchemaTables.Main
import SchemaTables.Proofs.Ordered
import SchemaTables.Proofs.Path.Comparison
import SchemaTables.Proofs.Dependency.Graph
import SchemaTables.Proofs.Dependency.Closure
import SchemaTables.Proofs.Except
import SchemaTables.Proofs.Table.Compile
import SchemaTables.Proofs.Schema.View
import SchemaTables.Proofs.Options
import SchemaTables.Proofs.Table.Relation
import SchemaTables.Proofs.Artifacts.Compile
import SchemaTables.Proofs.Artifacts.Metadata
import SchemaTables.Proofs.Artifacts.Convergence
import SchemaTables.Proofs.Table.Metadata
import SchemaTables.Proofs.Artifacts.ForeignKeys
import SchemaTables.Proofs.Files.Frame
import SchemaTables.Proofs.Check.Column
import SchemaTables.Proofs.Files.Whole
import SchemaTables.Proofs.Check.Run
import SchemaTables.Proofs.Plan.Build
import SchemaTables.Proofs.Path.FileName
import SchemaTables.Proofs.Artifacts.Checks
import SchemaTables.Proofs.Artifacts.Columns
import SchemaTables.Proofs.Dependency.Incremental
import SchemaTables.Proofs.Dependency.Convergence
import SchemaTables.Proofs.Check.Separator
import SchemaTables.Proofs.Files.Directory
import SchemaTables.Proofs.CommandLine.Reader
import SchemaTables.Proofs.Plan.Command
import SchemaTables.Proofs.Schema.Reordering
import SchemaTables.Proofs.Table.Reordering
import SchemaTables.Proofs.Dependency.Reordering
import SchemaTables.Proofs.Artifacts.Reordering
import SchemaTables.Proofs.Plan.CommandCheck
import SchemaTables.Proofs.Schema.Inheritance
import SchemaTables.Proofs.Table.Alignment
import SchemaTables.Proofs.Table.Validity
import SchemaTables.Proofs.Shape.Acceptance
import SchemaTables.Proofs.Plan.Form
import SchemaTables.Proofs.Path.Components
import SchemaTables.Proofs.Files.Walk
import SchemaTables.Proofs.Files.Sound
import SchemaTables.Proofs.Files.Footprint
import SchemaTables.Proofs.Check.Footprint
import SchemaTables.Proofs.Text.Utf8
import SchemaTables.Proofs.Csv.RoundTrip
import SchemaTables.Proofs.Files.Parent
import SchemaTables.Proofs.Files.Content
import SchemaTables.Proofs.Identifiers
import SchemaTables.Proofs.Files.Removal
import SchemaTables.Proofs.Files.Agreement
import SchemaTables.Proofs.Files.Apart
import SchemaTables.Proofs.Files.Ways
import SchemaTables.Proofs.Files.Room
import SchemaTables.Proofs.Check.Logs
import SchemaTables.Proofs.Check.Ready
import SchemaTables.Proofs.Check.Isolation
import SchemaTables.Proofs.Json.Fits
import SchemaTables.Proofs.Json.Record
import SchemaTables.Proofs.Json.Printer
import SchemaTables.Proofs.Schema.Form
import SchemaTables.Proofs.Files.Faults
import SchemaTables.Proofs.Path.Join
import SchemaTables.Proofs.Files.Replace
import SchemaTables.Proofs.Artifacts.Writing
import SchemaTables.Proofs.Path.Inside
import SchemaTables.Proofs.Artifacts.Places
import SchemaTables.Proofs.Artifacts.Apart
import SchemaTables.Proofs.Triples.Grammar
import SchemaTables.Proofs.Triples.Statement
import SchemaTables.Proofs.Triples.Layout
import SchemaTables.Proofs.Text.Search
import SchemaTables.Proofs.Text.Replace
import SchemaTables.Proofs.Address.Reference
import SchemaTables.Proofs.Triples.Row
import SchemaTables.Proofs.Text.Pieces
import SchemaTables.Proofs.Path.Relative
import SchemaTables.Proofs.Address.Parts
import SchemaTables.Proofs.Address.Resolution
import SchemaTables.Proofs.Csv.Grammar
import SchemaTables.Proofs.Csv.Table
import SchemaTables.Proofs.Check.Missing
import SchemaTables.Proofs.Plan.Validity
import SchemaTables.Proofs.Plan.BuildValidity
import SchemaTables.Proofs.Artifacts.Templates
import SchemaTables.Proofs.Text.Rows
import SchemaTables.Proofs.Artifacts.Descriptions
import SchemaTables.Proofs.Plan.Makefile
import SchemaTables.Proofs.Plan.BuildMakefile
import SchemaTables.Proofs.Artifacts.Makefile
