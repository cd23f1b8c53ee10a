import Gatehouse.CommandLine.Program
import Gatehouse.Gateway
import Gatehouse.Main
import Gatehouse.Proofs.Keys.Lifecycle
import Gatehouse.Proofs.Observe.Relations
import Gatehouse.Proofs.Observe.Rest
import Gatehouse.Proofs.Keys.Course
import Gatehouse.Proofs.Keys.Vault
import Gatehouse.Proofs.Observe.Address
import Gatehouse.Proofs.Keys.Workload
import Gatehouse.Proofs.Observe.Isolation
import Gatehouse.Proofs.Keys.Interleaving
import Gatehouse.Proofs.Keys.Trail
import Gatehouse.Proofs.Observe.Conservation
import Gatehouse.Proofs.Observe.Service
import Gatehouse.Proofs.Keys.Owners
import Gatehouse.Proofs.Keys.Validity
import Gatehouse.Proofs.Keys.Header
import Gatehouse.Proofs.Keys.Verdict
import Gatehouse.Proofs.Http.Credentials
import Gatehouse.Proofs.Keys.Outage
import Gatehouse.Proofs.Keys.Configured
import Gatehouse.Proofs.Observe.Places
import Gatehouse.Proofs.Observe.Answers
import Gatehouse.Proofs.Http.Discretion
import Gatehouse.Proofs.Http.Duration
import Gatehouse.Proofs.Observe.Path
import Gatehouse.Proofs.Time.SpanText
import Gatehouse.Proofs.Observe.Outbox
import Gatehouse.Proofs.Message
import Gatehouse.Proofs.Keys.Written
import Gatehouse.Proofs.Config.Written
import Gatehouse.Proofs.Observe.Things
import Gatehouse.Proofs.Observe.Numbers
import Gatehouse.Proofs.Observe.Overlap
