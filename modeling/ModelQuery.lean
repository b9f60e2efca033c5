import ModelQuery.Main
import ModelQuery.Machine.Basic
import ModelQuery.Proofs.Outcome
import ModelQuery.Proofs.Text.Trimming
import ModelQuery.Proofs.Text.Cutting
import ModelQuery.Proofs.Filter.Marker
import ModelQuery.Proofs.Filter.ClauseRun
import ModelQuery.Proofs.Filter.Scanning
import ModelQuery.Proofs.Filter.Tiling
import ModelQuery.Proofs.Filter.Pointing
import ModelQuery.Proofs.Filter.Balance
import ModelQuery.Proofs.Filter.Spelling
import ModelQuery.Proofs.Filter.Grammar
import ModelQuery.Proofs.Filter.Rows
import ModelQuery.Proofs.Filter.Routes
import ModelQuery.Proofs.Filter.Composing
import ModelQuery.Proofs.Filter.Written
import ModelQuery.Proofs.Filter.Compiled
import ModelQuery.Proofs.Filter.Spacing
import ModelQuery.Proofs.Filter.Trailing
import ModelQuery.Proofs.Filter.Planning
import ModelQuery.Proofs.Filter.Mirroring
import ModelQuery.Proofs.Filter.WellFormed
import ModelQuery.Proofs.Filter.Enclosing
import ModelQuery.Proofs.Criteria.Structure
import ModelQuery.Proofs.Criteria.Validation
import ModelQuery.Proofs.Catalog.Composition
import ModelQuery.Proofs.Keyed
import ModelQuery.Proofs.Catalog.Meaning
import ModelQuery.Proofs.Catalog.Partition
import ModelQuery.Proofs.Catalog.Answers
import ModelQuery.Proofs.Catalog.Naming
import ModelQuery.Proofs.Catalog.Suggestion
import ModelQuery.Proofs.Catalog.Spelled
import ModelQuery.Proofs.Catalog.AsText
import ModelQuery.Proofs.Catalog.Whole
import ModelQuery.Proofs.Selection.Lifetime
import ModelQuery.Proofs.Text.Casing
import ModelQuery.Proofs.Text.EditDistance
import ModelQuery.Proofs.Text.Lowering
import ModelQuery.Proofs.Filter.Casing
import ModelQuery.Proofs.Catalog.Casing
import ModelQuery.Proofs.Number.Digits
import ModelQuery.Proofs.Number.Exact
import ModelQuery.Proofs.Document.Scanning
import ModelQuery.Proofs.Document.RoundTrip
import ModelQuery.Proofs.Document.Record
import ModelQuery.Proofs.Criteria.Documented
import ModelQuery.Proofs.Catalog.Documented
import ModelQuery.Proofs.Selection.Calendar
import ModelQuery.Proofs.Selection.Moment
import ModelQuery.Proofs.Selection.Documented
import ModelQuery.Proofs.Selection.Purging
import ModelQuery.Proofs.Selection.Paging
import ModelQuery.Proofs.Sections.Quoted
import ModelQuery.Proofs.Sections.Scalar
import ModelQuery.Proofs.Sections.Reading
import ModelQuery.Proofs.Sections.Range
import ModelQuery.Proofs.Settings.Checked
import ModelQuery.Proofs.Settings.Stored
import ModelQuery.Proofs.Machine.Files
import ModelQuery.Proofs.Machine.Acts
import ModelQuery.Proofs.Command.Store
import ModelQuery.Proofs.Command.Effects
import ModelQuery.Proofs.Command.Keeping
import ModelQuery.Proofs.Command.Lifetime
import ModelQuery.Proofs.Command.Documents
import ModelQuery.Proofs.Command.Editing
import ModelQuery.Proofs.Report.Page
import ModelQuery.Proofs.Report.Outline
