import RecordMapping.Json.Printer
import RecordMapping.Json.Reader
import RecordMapping.Dialect
import RecordMapping.Dictionary
import RecordMapping.Calendar.Reading
import RecordMapping.Mapping.Values
import RecordMapping.Store.RecordStore
import RecordMapping.Definition.Projects
import RecordMapping.Yaml.Reading
import RecordMapping.CommandLine.Run
import RecordMapping.Main
import RecordMapping.Proofs.Dictionary
import RecordMapping.Proofs.Document.Forks
import RecordMapping.Proofs.Document.ReadWrite
import RecordMapping.Proofs.Document.InPlace
import RecordMapping.Proofs.Document.Conflicts
import RecordMapping.Proofs.Document.Lens
import RecordMapping.Proofs.Document.Writes
import RecordMapping.Proofs.Plan.Places
import RecordMapping.Proofs.Plan.Resolve
import RecordMapping.Proofs.Plan.ReadBack
import RecordMapping.Proofs.Mapping.Built
import RecordMapping.Proofs.Mapping.Extraction
import RecordMapping.Proofs.Mapping.Creation
import RecordMapping.Proofs.Mapping.Recoverable
import RecordMapping.Proofs.Mapping.RoundTrip
import RecordMapping.Proofs.Document.Turns
import RecordMapping.Proofs.Plan.Turns
import RecordMapping.Proofs.Mapping.Tables
import RecordMapping.Proofs.Mapping.Unblocked
import RecordMapping.Proofs.Store.Records
import RecordMapping.Proofs.Store.Runs
import RecordMapping.Proofs.Mapping.Required
import RecordMapping.Proofs.Store.Sessions
import RecordMapping.Proofs.Store.Failures
import RecordMapping.Proofs.Number.Literals
import RecordMapping.Proofs.Json.Strings
import RecordMapping.Proofs.Json.Layouts
import RecordMapping.Proofs.Json.Formed
import RecordMapping.Proofs.Json.ReadBack
import RecordMapping.Proofs.Text.Lines
import RecordMapping.Proofs.Files.Written
import RecordMapping.Proofs.Store.Texts
import RecordMapping.Proofs.Store.Reopening
import RecordMapping.Proofs.JsonPath.Tokens
import RecordMapping.Proofs.JsonPath.Forms
import RecordMapping.Proofs.JsonPath.Programs
import RecordMapping.Proofs.JsonPath.Walks
import RecordMapping.Proofs.JsonPath.Chains
import RecordMapping.Proofs.JsonPath.ReadBack
import RecordMapping.Proofs.Mapping.Acceptance
import RecordMapping.Proofs.JsonPath.Items
import RecordMapping.Proofs.Store.Sorting
import RecordMapping.Proofs.Mapping.Items
import RecordMapping.Proofs.Calendar.Days
import RecordMapping.Proofs.Calendar.Written
import RecordMapping.Proofs.Calendar.Stored
import RecordMapping.Proofs.Schema.Normalize
import RecordMapping.Proofs.Document.Leaves
import RecordMapping.Proofs.Mapping.Origins
import RecordMapping.Proofs.Store.Paging
import RecordMapping.Proofs.JsonPath.Members
import RecordMapping.Proofs.Definition.Blocks
import RecordMapping.Proofs.Definition.Structures
import RecordMapping.Proofs.Definition.ReadBack
import RecordMapping.Proofs.Plan.Segments
import RecordMapping.Proofs.Plan.Wildcards
import RecordMapping.Proofs.Store.Identity
import RecordMapping.Proofs.Mapping.Independence
import RecordMapping.Proofs.Files.Frames
import RecordMapping.Proofs.CommandLine.Saving
import RecordMapping.Proofs.Text.Runs
import RecordMapping.Proofs.Document.Swaps
import RecordMapping.Proofs.JsonPath.Grammar
import RecordMapping.Proofs.Plan.Texts
import RecordMapping.Proofs.Plan.Lookups
import RecordMapping.Proofs.Store.Loading
import RecordMapping.Proofs.Mapping.Identifiers
import RecordMapping.Proofs.Number.Rounding
import RecordMapping.Proofs.Number.Shortest
import RecordMapping.Proofs.Number.Numerals
import RecordMapping.Proofs.Schema.NumberTexts
import RecordMapping.Proofs.Calendar.Shapes
import RecordMapping.Proofs.Calendar.Forms
import RecordMapping.Proofs.Calendar.Layouts
import RecordMapping.Proofs.Calendar.Unambiguous
import RecordMapping.Proofs.Schema.Merging
import RecordMapping.Proofs.Number.Doubles
import RecordMapping.Proofs.Json.Legible
import RecordMapping.Proofs.CommandLine.Documents
import RecordMapping.Proofs.CommandLine.Wrapping
import RecordMapping.Proofs.CommandLine.Skipping
import RecordMapping.Proofs.Json.Equality
import RecordMapping.Proofs.Store.LooseEquality
import RecordMapping.Proofs.Yaml.Lines
import RecordMapping.Proofs.Yaml.Scalars
import RecordMapping.Proofs.Yaml.Blocks
import RecordMapping.Proofs.Yaml.Entries
import RecordMapping.Proofs.Yaml.Contents
import RecordMapping.Proofs.Yaml.Values
import RecordMapping.Proofs.Yaml.Mappings
import RecordMapping.Proofs.Definition.Names
import RecordMapping.Proofs.Files.Joined
import RecordMapping.Proofs.CommandLine.Configurations
import RecordMapping.Proofs.CommandLine.Naming
