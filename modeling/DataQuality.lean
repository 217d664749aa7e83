import DataQuality.Main
import DataQuality.Shell.Program
import DataQuality.Store.Faults
import DataQuality.Store.Memory
import DataQuality.Proofs.Sentence.Grammar
import DataQuality.Proofs.Sentence.Isolation
import DataQuality.Proofs.Sentence.Trailing
import DataQuality.Proofs.Sentence.Exclusion
import DataQuality.Proofs.Sentence.Presence
import DataQuality.Proofs.RuleSource
import DataQuality.Proofs.Store.TornJournal
import DataQuality.Proofs.Testing.Interruption
import DataQuality.Proofs.Selector.Denotation
import DataQuality.Proofs.Selector.RoundTrip
import DataQuality.Proofs.Testing.Results
import DataQuality.Proofs.Json.Torn
import DataQuality.Proofs.Store.FailedUpdate
import DataQuality.Proofs.CommandLine.Acceptance
import DataQuality.Proofs.CommandLine.Dispatch
import DataQuality.Proofs.Store.Agreement
import DataQuality.Proofs.Store.Ascent
import DataQuality.Proofs.Testing.Independence
import DataQuality.Proofs.Testing.Freshness
import DataQuality.Proofs.Testing.Numbering
import DataQuality.Proofs.Testing.InfoValues
import DataQuality.Proofs.Testing.Validity
import DataQuality.Proofs.Testing.Conclusion
import DataQuality.Proofs.Testing.Commits
import DataQuality.Proofs.Testing.Reservation
import DataQuality.Proofs.Testing.Separation
import DataQuality.Proofs.Queue.Blocking
import DataQuality.Proofs.Queue.Order
import DataQuality.Proofs.Queue.Sharing
import DataQuality.Proofs.Metric.Sectors
import DataQuality.Proofs.Metric.TotalBudgets
import DataQuality.Proofs.Metric.Spellings
import DataQuality.Proofs.Metric.Windows
import DataQuality.Proofs.Metric.Malformed
import DataQuality.Proofs.Testing.JobOrder
import DataQuality.Proofs.Testing.Replacement
import DataQuality.Proofs.Testing.Identifiers
import DataQuality.Proofs.Store.Conservation
import DataQuality.Proofs.Store.Uniqueness
import DataQuality.Proofs.Metric.Registry
import DataQuality.Proofs.Selector.Attributes
import DataQuality.Proofs.Selector.Confinement
import DataQuality.Proofs.Selector.DoubleSlash
import DataQuality.Proofs.Codelist
import DataQuality.Proofs.Job
import DataQuality.Proofs.Testing.TestedRun
import DataQuality.Proofs.Selector.Positions
