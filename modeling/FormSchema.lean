import FormSchema.Form.Initial
import FormSchema.Form.Props
import FormSchema.Form.Report
import FormSchema.Schema.File
import FormSchema.Proofs.KeyReading
import FormSchema.Proofs.Stop
import FormSchema.Proofs.Ledger
import FormSchema.Form.Call
import FormSchema.Proofs.Steady
import FormSchema.Proofs.Causes
import FormSchema.Proofs.History
import FormSchema.Proofs.Members
import FormSchema.Proofs.Regular
import FormSchema.Proofs.Subfields
import FormSchema.Proofs.Route
import FormSchema.Proofs.Journal
import FormSchema.Proofs.Replay
import FormSchema.Proofs.Reported
import FormSchema.Proofs.Spellings
import FormSchema.Proofs.Precedence
import FormSchema.Proofs.Flags
import FormSchema.Proofs.Positions
import FormSchema.Proofs.Plain
import FormSchema.Proofs.Boxed
import FormSchema.Proofs.Chained
import FormSchema.Proofs.Trail
import FormSchema.Proofs.ListFields
import FormSchema.Proofs.Targets
import FormSchema.Proofs.Reading
import FormSchema.Proofs.Loading
import FormSchema.Proofs.Grammar
import FormSchema.Proofs.Flattening
import FormSchema.Proofs.Initial
import FormSchema.Proofs.Nested
import FormSchema.Proofs.Required
import FormSchema.Proofs.Items
import FormSchema.Proofs.Decimals
import FormSchema.Proofs.Choices
import FormSchema.Proofs.Details
import FormSchema.Proofs.EmptySegments
import FormSchema.Proofs.Joining
import FormSchema.Proofs.Warnings
import FormSchema.Proofs.Selection
import FormSchema.Proofs.NestedCalls
import FormSchema.Proofs.Labels
