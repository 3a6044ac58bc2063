import Clawback.Agent.PublicReceipt
import Clawback.Agent.Serial
import Clawback.Agent.StoreCalls
import Clawback.Agent.Strangers
import Clawback.Agent.AtRest
import Clawback.Agent.Progress
import Clawback.Agent.Submission
import Clawback.Agent.Verification
import Clawback.Agent.Evidence
import Clawback.Chain.CaseAnchor
import Clawback.Payments.FeeSplit
import Clawback.Payments.Ledger
import Clawback.Receipts.Stages
import Clawback.Agent.Honesty
import Clawback.Agent.Attestation
import Clawback.Agent.FileStore
import Clawback.Providers.Sandbox
import Clawback.Web.Routes
import Clawback.Web.Amounts
import Clawback.Privacy.AuthTag
import Clawback.Agent.Sealing
import Clawback.Agent.CasePaths
import Clawback.Privacy.Redact
import Clawback.Shared.Persistence
import Clawback.Agent.KvStore
import Clawback.Async.Simulation
import Clawback.Async.Serving
import Clawback.Agent.Disclosure
import Clawback.Web.App
import Clawback.Web.Viewers
import Clawback.Agent.Wiring
import Clawback.Web.Deployment
import Clawback.Async.Alike
import Clawback.Web.Keys
import Clawback.Async.Monitor
import Clawback.Compute.Session
import Clawback.Agent.Spending
import Clawback.Async.Ownership
import Clawback.Storage.StorageClient
import Clawback.Storage.TempFiles
import Clawback.Web.CaseView
import Clawback.Web.ReceiptCard
import Clawback.Agent.Approved
