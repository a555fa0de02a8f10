import GoSchema.Main
import GoSchema.Options.Reader
import GoSchema.Json.Reader
import GoSchema.Proofs.Schema.Acceptance
import GoSchema.Proofs.Rejection
import GoSchema.Proofs.FieldName.Identifiers
import GoSchema.Proofs.Formatting
import GoSchema.Proofs.Schema.Numbering
import GoSchema.Proofs.Schema.Reordering
import GoSchema.Proofs.Schema.Repetition
import GoSchema.Proofs.Schema.Extension
import GoSchema.Proofs.Schema.Modes
import GoSchema.Proofs.Schema.Siblings
import GoSchema.Proofs.MemberOrder
import GoSchema.Proofs.Source.Recognition
import GoSchema.Proofs.CommandLine.Batch
import GoSchema.Proofs.Files.Writing
import GoSchema.Proofs.CommandLine.Delivery
import GoSchema.Proofs.CommandLine.Atomicity
import GoSchema.Proofs.Schema.Merging
import GoSchema.Proofs.Source.WidthTable
import GoSchema.Proofs.Source.Places
import GoSchema.Proofs.ContributionOrder
import GoSchema.Proofs.Schema.Separation
import GoSchema.Proofs.Schema.SlotTree
import GoSchema.Proofs.Source.Spacing
import GoSchema.Proofs.Source.Lines
import GoSchema.Proofs.Number.Shortest
import GoSchema.Proofs.Source.Halting
