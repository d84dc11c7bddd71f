import ProvableAi.Json.Value
import ProvableAi.Json.Text
import ProvableAi.Json.Access
import ProvableAi.Json.Scanner
import ProvableAi.Json.Reader
import ProvableAi.Crypto.Hex
import ProvableAi.Crypto.Sha256
import ProvableAi.Lib.HashChain
import ProvableAi.Lib.Lockstep
import ProvableAi.Lib.Merkle
import ProvableAi.Lib.Reorder
import ProvableAi.Lib.Joined
import ProvableAi.Exceptions
import ProvableAi.Canonical
import ProvableAi.Canonical.Equality
import ProvableAi.Audit.Body
import ProvableAi.Audit.Log
import ProvableAi.Audit.Concurrent
import ProvableAi.Audit.Tamper
import ProvableAi.Audit.Endpoint
import ProvableAi.Schema
import ProvableAi.Verifier
import ProvableAi.Verifier.Written
import ProvableAi.Verifier.Positions
import ProvableAi.Storage.Tables
import ProvableAi.Storage.Concurrent
import ProvableAi.Storage.Postgres
import ProvableAi.Storage.PostgresConcurrent
import ProvableAi.Storage.Retry
import ProvableAi.Engine.Record
import ProvableAi.Engine.Export
import ProvableAi.Engine.Runs
import ProvableAi.Engine.Frozen
import ProvableAi.Engine.Backends
import ProvableAi.Engine.Concurrent
import ProvableAi.Engine.SystemRoot
import ProvableAi.Engine.ProofIds
import ProvableAi.Package.Verify
import ProvableAi.Package.RoundTrip
import ProvableAi.Package.Binding
import ProvableAi.Package.Browser
import ProvableAi.Batch.Export
import ProvableAi.Batch.RoundTrip
import ProvableAi.Batch.Binding
import ProvableAi.Batch.Inclusion
import ProvableAi.Batch.Commitment
import ProvableAi.Signer.Failover
import ProvableAi.Signer.Failback
import ProvableAi.Siem.Router
import ProvableAi.Audit.Leaf
import ProvableAi.Audit.AtBlock
import ProvableAi.Audit.Query
import ProvableAi.Audit.Compliance
import ProvableAi.Drift.Detector
import ProvableAi.Server.ChainVerify
import ProvableAi.Server.Endpoints
import ProvableAi.Server.Isolation
import ProvableAi.Server.VerifyPackage
import ProvableAi.Server.Webhook
import ProvableAi.Server.WebhookBinding
import ProvableAi.Server.WebhookForgery
import ProvableAi.Server.RateLimit
import ProvableAi.Web.CanonicalJson
import ProvableAi.Web.Verifier
import ProvableAi.Storage.Owners
import ProvableAi.Audit.KeyRegistry
import ProvableAi.Audit.KeyHistory
import ProvableAi.Engine.Facade
import ProvableAi.Canonical.Grammar
import ProvableAi.Canonical.HashText
import ProvableAi.Storage.Atomic
import ProvableAi.Engine.Policies
import ProvableAi.Server.Approvals
import ProvableAi.Package.Offline
import ProvableAi.Package.VerifyCore
import ProvableAi.Audit.KeyStartup
import ProvableAi.Lib.Steps
import ProvableAi.Audit.KeyCrash
import ProvableAi.Audit.TimestampRequest
import ProvableAi.Pii
import ProvableAi.Drift.History
import ProvableAi.Server.Protocols
import ProvableAi.Engine.CurrentState
import ProvableAi.Engine.Replay
import ProvableAi.Lib.Connections
import ProvableAi.Audit.Anchor
import ProvableAi.Audit.AnchorConcurrent
import ProvableAi.Json.Ascii
import ProvableAi.Lib.Altered
import ProvableAi.Audit.AnchorTamper
import ProvableAi.Server.AnchorCheck
import ProvableAi.Audit.AnchorStandalone
import ProvableAi.Siem.Wire
import ProvableAi.Batch.Membership
import ProvableAi.Signer.Metrics
import ProvableAi.Server.Auth
import ProvableAi.Package.Signature
import ProvableAi.Server.Durable
import ProvableAi.Package.OnChain
import ProvableAi.Engine.FacadeExport
import ProvableAi.Engine.ReadBack
