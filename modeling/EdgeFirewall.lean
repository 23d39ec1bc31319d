import EdgeFirewall.Provider
import EdgeFirewall.Service.Rehearsal
import EdgeFirewall.Proofs.Attribute.Form
import EdgeFirewall.Proofs.Policy.Reading
import EdgeFirewall.Proofs.Policy.Canonical
import EdgeFirewall.Proofs.Policy.Slots
import EdgeFirewall.Proofs.Lifecycle.Refinement
import EdgeFirewall.Proofs.Lifecycle.GuardedWrites
import EdgeFirewall.Proofs.Policy.Sound
import EdgeFirewall.Proofs.Lifecycle.SoundWrites
import EdgeFirewall.Proofs.Policy.NormalForm
import EdgeFirewall.Proofs.Attribute.Typing
import EdgeFirewall.Proofs.Policy.Violations
import EdgeFirewall.Proofs.Policy.SchemaAgreement
import EdgeFirewall.Proofs.Policy.Constraints
import EdgeFirewall.Proofs.Policy.Reports
import EdgeFirewall.Proofs.Policy.Completeness
import EdgeFirewall.Proofs.Service.Exchanges
import EdgeFirewall.Proofs.Service.Polling
import EdgeFirewall.Proofs.Service.HttpClient
import EdgeFirewall.Proofs.Lifecycle.EarnedSuccess
import EdgeFirewall.Proofs.Lifecycle.Handling
import EdgeFirewall.Proofs.Lifecycle.Absence
import EdgeFirewall.Proofs.Lifecycle.Rejections
import EdgeFirewall.Proofs.Text.Pieces
import EdgeFirewall.Proofs.ResourceId.Reading
import EdgeFirewall.Proofs.ResourceId.Grammar
import EdgeFirewall.Proofs.ResourceId.RoundTrip
import EdgeFirewall.Proofs.Lifecycle.DurableIds
import EdgeFirewall.Proofs.Service.Work
import EdgeFirewall.Proofs.Service.Timing
import EdgeFirewall.Proofs.Lifecycle.Conduct
import EdgeFirewall.Proofs.Lifecycle.Deadlines
import EdgeFirewall.Proofs.Lifecycle.Cancellation
import EdgeFirewall.Proofs.Text.Case
import EdgeFirewall.Proofs.Lifecycle.Addressing
import EdgeFirewall.Proofs.ResourceId.Casing
import EdgeFirewall.Proofs.Lifecycle.Spellings
import EdgeFirewall.Proofs.Document.Codec
import EdgeFirewall.Proofs.Json.Edits
import EdgeFirewall.Proofs.Json.Projection
import EdgeFirewall.Proofs.Document.Reading
import EdgeFirewall.Proofs.Service.Waiting
import EdgeFirewall.Proofs.Attribute.HasType
import EdgeFirewall.Proofs.Attribute.Faults
import EdgeFirewall.Proofs.Policy.Import
import EdgeFirewall.Proofs.Policy.Modifiers
import EdgeFirewall.Proofs.Settings.Resolution
import EdgeFirewall.Proofs.Text.Base64
import EdgeFirewall.Proofs.Service.Tokens
import EdgeFirewall.Proofs.Lifecycle.Secrecy
import EdgeFirewall.Proofs.Lifecycle.LatestTime
