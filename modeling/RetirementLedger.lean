import RetirementLedger.Audit
import RetirementLedger.CommandLine.Server
import RetirementLedger.Http.Router
import RetirementLedger.Main
import RetirementLedger.Proofs.Cause
import RetirementLedger.Proofs.Checkpoint
import RetirementLedger.Proofs.Compliance
import RetirementLedger.Proofs.Enforcement
import RetirementLedger.Proofs.Exclusion
import RetirementLedger.Proofs.Exports
import RetirementLedger.Proofs.Interchange
import RetirementLedger.Proofs.Lookup
import RetirementLedger.Proofs.Notification
import RetirementLedger.Proofs.Permanence
import RetirementLedger.Proofs.Representation
import RetirementLedger.Proofs.Restoration
import RetirementLedger.Proofs.Surfaces
import RetirementLedger.Proofs.System.Whole
import RetirementLedger.Proofs.WatchTable
import RetirementLedger.Proofs.Database.Stages
import RetirementLedger.Proofs.Migration
import RetirementLedger.Proofs.Database.Batch
import RetirementLedger.Proofs.Delivery
import RetirementLedger.Proofs.Importing
import RetirementLedger.Proofs.Json.Choices
import RetirementLedger.Proofs.RoundTrip
import RetirementLedger.Proofs.Query.Bounds
import RetirementLedger.Proofs.Query.Criteria
import RetirementLedger.Proofs.Query.Filters
import RetirementLedger.Proofs.Paging
import RetirementLedger.Proofs.Instant.Notation
import RetirementLedger.Proofs.Policy
import RetirementLedger.Proofs.Atomicity
import RetirementLedger.Proofs.Cancellation
import RetirementLedger.Proofs.Reports
import RetirementLedger.Proofs.Rescan
import RetirementLedger.Proofs.ListingOrder
import RetirementLedger.Proofs.Disk.Reopening
import RetirementLedger.Proofs.Reason.Meaning
import RetirementLedger.Proofs.Instant.Milliseconds
import RetirementLedger.Proofs.SchemaReport
