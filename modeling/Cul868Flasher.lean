import Cul868Flasher.Effects.Rules
import Cul868Flasher.Hexfile
import Cul868Flasher.HexGrammar
import Cul868Flasher.HexImages
import Cul868Flasher.Effects.Triples
import Cul868Flasher.Usb
import Cul868Flasher.Python.Buffer
import Cul868Flasher.Python.Strip
import Cul868Flasher.Python.Json
import Cul868Flasher.Python.JsonText
import Cul868Flasher.State
import Cul868Flasher.StateText
import Cul868Flasher.World
import Cul868Flasher.Supervisor
import Cul868Flasher.Flasher.Lookup
import Cul868Flasher.Flasher.Plan
import Cul868Flasher.HexEncoding
import Cul868Flasher.Flasher.Flash
import Cul868Flasher.Flasher.Led
import Cul868Flasher.Flasher.Calls
import Cul868Flasher.Flasher.Found
import Cul868Flasher.Flasher.DfuOrder
import Cul868Flasher.Flasher.Runs
import Cul868Flasher.Flasher.Targeting
import Cul868Flasher.Flasher.Serials
import Cul868Flasher.Flasher.Verified
import Cul868Flasher.Flasher.Completion
import Cul868Flasher.Flasher.Handoff
import Cul868Flasher.Flasher.Phases
import Cul868Flasher.Flasher.Record
import Cul868Flasher.Flasher.Order
import Cul868Flasher.Flasher.Commands
import Cul868Flasher.Flasher.Consumers
import Cul868Flasher.Effects.Timeline
import Cul868Flasher.Effects.Threads
import Cul868Flasher.Effects.Discipline
import Cul868Flasher.Flasher.StopPhase
import Cul868Flasher.Persistence
import Cul868Flasher.Options
import Cul868Flasher.Flasher.ConfiguredPath
import Cul868Flasher.Serial
import Cul868Flasher.SerialChunks
import Cul868Flasher.DeviceSpecification
import Cul868Flasher.Flasher.Status
import Cul868Flasher.Python.Setdefault
import Cul868Flasher.Flasher.Physical
import Cul868Flasher.Flasher.Diagnostics
import Cul868Flasher.Flasher.Authorization
import Cul868Flasher.Flasher.Revalidation
import Cul868Flasher.Operation
import Cul868Flasher.Ingress.Site
import Cul868Flasher.Ingress.Controller
import Cul868Flasher.Ingress.Registry
import Cul868Flasher.Ingress.Api
import Cul868Flasher.Ingress.Upload
import Cul868Flasher.Ingress.Snapshots
import Cul868Flasher.Ingress.Worker
import Cul868Flasher.Ingress.Calls
import Cul868Flasher.Ingress.Discipline
import Cul868Flasher.Ingress.Conduct.Controller
import Cul868Flasher.Ingress.Conduct.Registry
import Cul868Flasher.Ingress.Conduct.Requests
import Cul868Flasher.Flasher.Reports
import Cul868Flasher.Ingress.Conduct.Worker
import Cul868Flasher.Ingress.Sections
import Cul868Flasher.Ingress.Admission
import Cul868Flasher.Effects.Custody
import Cul868Flasher.Effects.Alone
import Cul868Flasher.Ingress.Ownership
import Cul868Flasher.Ingress.Interleaving
import Cul868Flasher.Ingress.Provenance
import Cul868Flasher.Ingress.Uploads
import Cul868Flasher.Ingress.SingleFlight
import Cul868Flasher.Ingress.Refusal
import Cul868Flasher.Ingress.Readiness
import Cul868Flasher.Ingress.Aftermath
import Cul868Flasher.Ingress.FailedRequests
import Cul868Flasher.Flasher.Isolation
import Cul868Flasher.Flasher.Waits
import Cul868Flasher.Flasher.Deadlines
import Cul868Flasher.Flasher.Discovery
import Cul868Flasher.Python.Excerpt
import Cul868Flasher.Ingress.Completions
import Cul868Flasher.Python.Url
import Cul868Flasher.Python.JsonLimits
import Cul868Flasher.Ingress.Http
import Cul868Flasher.Ingress.Conversation
import Cul868Flasher.Ingress.Page
import Cul868Flasher.Ingress.Settling
import Cul868Flasher.Ingress.Closure
import Cul868Flasher.Effects.LockOrder
import Cul868Flasher.Ingress.Locking
import Cul868Flasher.Ingress.Visits
import Cul868Flasher.Effects.Lowering
import Cul868Flasher.SerialSession
import Cul868Flasher.Flasher.Sessions
import Cul868Flasher.SerialWire
import Cul868Flasher.SerialRefinement
import Cul868Flasher.Flasher.Recoverability
import Cul868Flasher.Effects.Serialization
import Cul868Flasher.Ingress.Sequence
import Cul868Flasher.Ingress.Crash
import Cul868Flasher.StateDisk
import Cul868Flasher.StateRefinement
import Cul868Flasher.Effects.Costs
import Cul868Flasher.Flasher.Downtime
