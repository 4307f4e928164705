import HarnessFramework.Library.JsonText
import HarnessFramework.Library.Json
import HarnessFramework.Library.Interleaving
import HarnessFramework.Library.HashChain
import HarnessFramework.Library.Table
import HarnessFramework.Library.Checks
import HarnessFramework.Library.Supersteps
import HarnessFramework.Library.Noninterference
import HarnessFramework.Library.Script
import HarnessFramework.Contracts.Canonical
import HarnessFramework.Contracts.SameValue
import HarnessFramework.Contracts.Schema
import HarnessFramework.Contracts.Schemas
import HarnessFramework.Contracts.Case
import HarnessFramework.Contracts.Plan
import HarnessFramework.CaseStore.Tables
import HarnessFramework.CaseStore.Mutation
import HarnessFramework.CaseStore.MutationSpec
import HarnessFramework.CaseStore.Submit
import HarnessFramework.CaseStore.SubmitSpec
import HarnessFramework.CaseStore.Ledger
import HarnessFramework.CaseStore.Verification
import HarnessFramework.CaseStore.Disposition
import HarnessFramework.CaseStore.Freshness
import HarnessFramework.CaseStore.Replay
import HarnessFramework.Persistence.RunTable
import HarnessFramework.Persistence.RunLifecycle
import HarnessFramework.Persistence.Migrations
import HarnessFramework.Persistence.RunCreation
import HarnessFramework.Execution.Envelope
import HarnessFramework.Identity.Authorization
import HarnessFramework.Gateway.Invoke
import HarnessFramework.Gateway.InvokeSpec
import HarnessFramework.Gateway.Fencing
import HarnessFramework.Gateway.ExactlyOnce
import HarnessFramework.Gateway.Isolation
import HarnessFramework.HarnessCompiler.SerdeJson
import HarnessFramework.HarnessCompiler.Compile
import HarnessFramework.HarnessCompiler.Authority
import HarnessFramework.HarnessCompiler.Digest
import HarnessFramework.HarnessCompiler.SchemaComplete
import HarnessFramework.HarnessCompiler.PlanIdentity
import HarnessFramework.RuntimeLanggraph.Lowering
import HarnessFramework.Library.JsValue
import HarnessFramework.Library.JsonParse
import HarnessFramework.RuntimeCore.Values
import HarnessFramework.RuntimeCore.Conditions
import HarnessFramework.Library.StableSort
import HarnessFramework.RuntimeCore.Transforms
import HarnessFramework.RuntimeCore.Sorting
import HarnessFramework.RuntimeCore.Voting
import HarnessFramework.RuntimeCore.Deduplication
import HarnessFramework.RuntimeLanggraph.NodeInput
import HarnessFramework.RuntimeLanggraph.Execution
import HarnessFramework.RuntimeLanggraph.Routing
import HarnessFramework.RuntimeLanggraph.Settlement
import HarnessFramework.RuntimeLanggraph.Identity
import HarnessFramework.RuntimeHost.Executor
import HarnessFramework.RuntimeHost.Status
import HarnessFramework.ControlApi.Plans
import HarnessFramework.ControlApi.Primitives
import HarnessFramework.ControlApi.Tables
import HarnessFramework.ControlApi.Routes
import HarnessFramework.ControlApi.Tenancy
import HarnessFramework.ControlApi.Lifecycle
import HarnessFramework.ControlApi.Duties
import HarnessFramework.ControlApi.Coherence
import HarnessFramework.CaseApi.Routes
import HarnessFramework.CaseApi.Superseded
import HarnessFramework.CaseApi.Attribution
import HarnessFramework.CaseApi.Declared
import HarnessFramework.RuntimeCore.CaseWrites
import HarnessFramework.ControlApi.Publication
import HarnessFramework.Library.Insertion
import HarnessFramework.ControlApi.AuthoringAgents
import HarnessFramework.ControlApi.AgentImport
import HarnessFramework.ControlApi.Attachment
import HarnessFramework.ControlApi.EdgeIds
import HarnessFramework.ControlApi.AttachedRouting
import HarnessFramework.ControlApi.Materialization
import HarnessFramework.ControlApi.Topology
import HarnessFramework.ControlApi.Journal
import HarnessFramework.Gateway.Authority
import HarnessFramework.Gateway.Costs
import HarnessFramework.CaseStore.Outbox
import HarnessFramework.CaseStore.Delivery
import HarnessFramework.CaseStore.Writes
import HarnessFramework.CaseStore.ReferenceChecks
import HarnessFramework.CaseStore.References
import HarnessFramework.CaseStore.Reviews
import HarnessFramework.CaseStore.Evidence
import HarnessFramework.CaseStore.Addressing
import HarnessFramework.CaseStore.Metadata
import HarnessFramework.ControlApi.RunEvents
import HarnessFramework.Library.Inserts
import HarnessFramework.RuntimeWorker.Dispatcher
import HarnessFramework.RuntimeWorker.Grants
import HarnessFramework.RuntimeWorker.Outcomes
import HarnessFramework.CaseStore.Database
import HarnessFramework.CaseApi.Tenancy
import HarnessFramework.CaseStore.Views
import HarnessFramework.CaseStore.Rows
import HarnessFramework.CaseApi.Ledgers
import HarnessFramework.Library.Placeholders
import HarnessFramework.RuntimeCore.Templates
import HarnessFramework.Library.JsonRoundTrip
import HarnessFramework.Library.JsonRational
import HarnessFramework.Contracts.Represents
import HarnessFramework.Contracts.CaseSchemas
import HarnessFramework.CaseApi.Requests
import HarnessFramework.RuntimeCore.EvidenceCapture
import HarnessFramework.Library.LevelOrder
import HarnessFramework.Adapters.ModelCalls
import HarnessFramework.Identity.Deployment
import HarnessFramework.ControlUi.Edge
import HarnessFramework.Library.Walks
import HarnessFramework.ControlApi.Analysis
