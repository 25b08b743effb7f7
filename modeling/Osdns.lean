import Osdns.Framework.Logic
import Osdns.Framework.Discipline
import Osdns.Framework.AddressText
import Osdns.Framework.Evolution
import Osdns.Framework.Runs
import Osdns.Framework.Lists
import Osdns.Framework.Bytes
import Osdns.Framework.Selection
import Osdns.Framework.Traces
import Osdns.Framework.Spacing
import Osdns.Framework.Dictionaries
import Osdns.Framework.Transcripts
import Osdns.Framework.Shell
import Osdns.Model.Config
import Osdns.Model.Record
import Osdns.Model.Backend
import Osdns.Model.Calls
import Osdns.Model.Transaction
import Osdns.Model.Operations
import Osdns.Model.Schedule
import Osdns.Model.ManagerCalls
import Osdns.Model.Reconciliation
import Osdns.Model.Lease
import Osdns.Model.Manager
import Osdns.Model.World
import Osdns.Model.System
import Osdns.Model.Ownership
import Osdns.Serial.Cell
import Osdns.Serial.Evidence
import Osdns.Serial.Elsewhere
import Osdns.Serial.Mutation
import Osdns.Serial.LiveRecord
import Osdns.Serial.Transitions
import Osdns.Serial.Apply
import Osdns.Serial.Away
import Osdns.Serial.Restore
import Osdns.Serial.Update
import Osdns.Serial.Sessions
import Osdns.Serial.Pass
import Osdns.Serial.Leases
import Osdns.Serial.Managers
import Osdns.Serial.Runs
import Osdns.Serial.Guarantees
import Osdns.Engine.Residue
import Osdns.Engine.Mandate
import Osdns.Ownership.Discipline
import Osdns.Ownership.Exclusion
import Osdns.Platform.Text
import Osdns.Platform.Validation
import Osdns.Platform.Domains
import Osdns.Platform.Nrpt
import Osdns.Platform.NrptEncoding
import Osdns.Platform.NrptRegistry
import Osdns.Platform.NrptFaultless
import Osdns.Platform.NrptRuns
import Osdns.Platform.Openresolv
import Osdns.Platform.OpenresolvShell
import Osdns.Platform.ResolvConf
import Osdns.Platform.Resolved
import Osdns.Platform.NetworkManager
import Osdns.Platform.NetworkManagerCodec
import Osdns.Platform.Windows
import Osdns.Platform.Lossless
import Osdns.Platform.Readback
import Osdns.Platform.ServiceDns
import Osdns.Platform.ServiceFrame
import Osdns.Platform.Lifetime
import Osdns.Platform.Verdicts
import Osdns.Platform.DefaultRoute
import Osdns.Provenance.Evidence
import Osdns.Provenance.Operations
import Osdns.Provenance.Overwrite
import Osdns.System.Handles
import Osdns.System.Keys
import Osdns.System.Execution
import Osdns.System.Footprint
import Osdns.Provenance.Bases
import Osdns.Provenance.Names
import Osdns.Enforce.Breaker
import Osdns.Enforce.Retries
import Osdns.Enforce.References
import Osdns.Enforce.Observation
import Osdns.Recovery.Local
import Osdns.Recovery.Record
import Osdns.Recovery.Stale
import Osdns.Recovery.Specification
import Osdns.System.Runs
import Osdns.Teardown.Steps
import Osdns.Teardown.Records
import Osdns.Teardown.Endings
import Osdns.Teardown.Later
import Osdns.Watch.Coalescer
import Osdns.Teardown.Partition
import Osdns.System.Tokens
import Osdns.Faultless.Calls
import Osdns.Faultless.Restore
import Osdns.Faultless.Leases
import Osdns.Quiet.Leases
import Osdns.Faultless.Rebase
import Osdns.Journal.Runs
import Osdns.Platform.DirectPublication
