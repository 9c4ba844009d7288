import InboxSaas.Reasoning.Program
import InboxSaas.Reasoning.Table
import InboxSaas.Reasoning.Pool
import InboxSaas.Reasoning.Transaction
import InboxSaas.Reasoning.Linearization
import InboxSaas.Reasoning.ReadCommitted
import InboxSaas.Reasoning.Progress
import InboxSaas.Reasoning.Traces
import InboxSaas.Reasoning.Custody
import InboxSaas.Reasoning.Protocol
import InboxSaas.Reasoning.Aead
import InboxSaas.Reasoning.Pattern
import InboxSaas.Reasoning.Drift
import InboxSaas.Reasoning.History
import InboxSaas.Reasoning.Framing
import InboxSaas.Encoding.Utf16
import InboxSaas.Encoding.Bytes
import InboxSaas.Encoding.Json
import InboxSaas.Encoding.Trim
import InboxSaas.Product.Schema
import InboxSaas.Product.UuidText
import InboxSaas.Product.Text
import InboxSaas.Product.Statements
import InboxSaas.Product.Access
import InboxSaas.Product.TenantCredentials
import InboxSaas.Product.CredentialBinding
import InboxSaas.Product.TenantValidation
import InboxSaas.Product.Lifecycle
import InboxSaas.Product.Operations
import InboxSaas.Product.Calls
import InboxSaas.Product.Consistency
import InboxSaas.Product.Idempotency
import InboxSaas.Product.Fencing
import InboxSaas.Product.Locking
import InboxSaas.Product.Keeping
import InboxSaas.Product.Creations
import InboxSaas.Product.JobRows
import InboxSaas.Product.StartOutline
import InboxSaas.Product.Interleavings
import InboxSaas.Product.StartRaces
import InboxSaas.Product.JobOrders
import InboxSaas.Product.JobOutline
import InboxSaas.Product.LeaseOutlines
import InboxSaas.Product.ApplyOutline
import InboxSaas.Product.StatementAtomicity
import InboxSaas.Product.StatementFencing
import InboxSaas.Product.TenantCollisions
import InboxSaas.Product.ApiKeys
import InboxSaas.Product.ControlPlane
import InboxSaas.Product.ForeignKeys
import InboxSaas.Product.Lookups
import InboxSaas.Product.AcceptedStarts
import InboxSaas.Product.SealedCredentials
import InboxSaas.Auth.SignUp
import InboxSaas.Auth.Accounts
import InboxSaas.Worker.TenantValidationWorker
import InboxSaas.Worker.System
import InboxSaas.Worker.NoLostWork
import InboxSaas.Worker.BoundedAttempts
import InboxSaas.Worker.MicrosoftWorkLimiter
import InboxSaas.Worker.Admission
import InboxSaas.Worker.SupersededRuns
import InboxSaas.Worker.ValidationRequests
import InboxSaas.Worker.StoredCredentials
import InboxSaas.Worker.RunsWithinLimits
import InboxSaas.Worker.Startup
import InboxSaas.Worker.ProvisionerRequestAuth
import InboxSaas.Worker.RuntimeConfig
import InboxSaas.Worker.ProvisionerClient
import InboxSaas.Provisioner.NoReplay
import InboxSaas.Provisioner.Transport
import InboxSaas.Provisioner.FailureClassification
import InboxSaas.Provisioner.SessionIsolation
import InboxSaas.Provisioner.RuntimeConfig
import InboxSaas.Provisioner.PowerShell
import InboxSaas.Provisioner.OwnOutput
import InboxSaas.Provisioner.DeviceCode
import InboxSaas.Provisioner.DeviceCodeSignIn
import InboxSaas.Provisioner.DeviceCodeCompleter
import InboxSaas.Provisioner.OwnSignIn
import InboxSaas.Provisioner.ValidateTenant
import InboxSaas.Provisioner.Exchange
import InboxSaas.Api.V1
import InboxSaas.Api.PayloadIdentity
import InboxSaas.Api.WriteAuthority
import InboxSaas.Api.UuidParameter
import InboxSaas.Api.Jobs
import InboxSaas.Api.AcceptedJobs
import InboxSaas.Api.Service
import InboxSaas.Api.Authority
