import Orvex.Concurrency.ReadCommitted
import Orvex.Concurrency.RowLocks
import Orvex.Foundation.KeyedTable
import Orvex.Foundation.JsonText
import Orvex.Foundation.Action
import Orvex.Foundation.Tables
import Orvex.Core.Runtime
import Orvex.Core.Hash
import Orvex.Core.Contracts
import Orvex.Core.Coercion
import Orvex.Core.Errors
import Orvex.Policy.Rules
import Orvex.Policy.Evaluators
import Orvex.Policy.Engine
import Orvex.Policy.Requirements
import Orvex.Gate.TransactionGate
import Orvex.Core.Database
import Orvex.Policy.Service
import Orvex.Domain.Agents
import Orvex.Domain.Constitutions
import Orvex.Domain.Capabilities
import Orvex.Foundation.Lineage
import Orvex.Domain.Authority
import Orvex.Domain.Delegation
import Orvex.Domain.Containment
import Orvex.Decision.Engine
import Orvex.Decision.Service
import Orvex.Approval.Service
import Orvex.Financial.Idempotency
import Orvex.Financial.Service
import Orvex.Financial.Calls
import Orvex.Financial.Repeats
import Orvex.Financial.Statements
import Orvex.Financial.Atomic
import Orvex.Financial.Totals
import Orvex.Financial.Sessions
import Orvex.Financial.Conservation
import Orvex.Financial.Solo
import Orvex.Financial.Origins
import Orvex.Application.Intake
import Orvex.Application.Orchestrator
import Orvex.Gate.Revalidation
import Orvex.Gate.Soundness
import Orvex.Gate.Holds
import Orvex.Gate.Judged
import Orvex.Gate.Advice
import Orvex.Api.Decisions
import Orvex.Api.Footprints
import Orvex.Api.Bindings
import Orvex.Api.Intents
import Orvex.Api.Reviews
import Orvex.Api.Amounts
import Orvex.Core.ParsedJson
import Orvex.Core.Pinned
import Orvex.Api.Provenance
import Orvex.Api.Agreement
import Orvex.Gate.BoundHold
import Orvex.Gate.Charges
import Orvex.Api.Settlement
import Orvex.Concurrency.Undisturbed
import Orvex.Trajectory.Delivery
import Orvex.Audit.Tampering
import Orvex.Gate.Minting
import Orvex.Gate.ExecutionResult
import Orvex.Api.V1
import Orvex.Core.Reference
import Orvex.Financial.Overspend
import Orvex.Policy.Spelling
import Orvex.Execution.Proposals
import Orvex.Execution.Agreement
import Orvex.Execution.Broadcast
import Orvex.Execution.Unresolved
import Orvex.Policy.Order
import Orvex.Decision.Monotone
import Orvex.Financial.Registrations
import Orvex.Financial.Buckets
import Orvex.Financial.OneBucket
import Orvex.Financial.ExactMoney
import Orvex.Trajectory.Replays
import Orvex.Policy.Activation
import Orvex.Concurrency.Actions
import Orvex.Policy.Calls
import Orvex.Policy.Lifecycle
import Orvex.Api.Activations
import Orvex.Policy.Evaluable
import Orvex.Api.Acceptance
import Orvex.Gate.Blocked
import Orvex.Approval.Lifecycle
import Orvex.Execution.AmountCodec
import Orvex.Execution.ExactReceipts
import Orvex.Foundation.FixedPattern
import Orvex.Execution.Redaction
import Orvex.Execution.RawKeys
import Orvex.Execution.SecretGuard
import Orvex.Core.Python
import Orvex.Memory.SessionState
import Orvex.Memory.Retrieval
import Orvex.Memory.Insights
import Orvex.Security.IntentVerifier
import Orvex.Security.Verdicts
import Orvex.Security.Threats
import Orvex.Security.Signals
import Orvex.Security.Pipeline
import Orvex.Security.Recommendation
import Orvex.Security.Redirection
import Orvex.PolicyAi.Normalizer
import Orvex.PolicyAi.Conflicts
import Orvex.Foundation.Derivation
import Orvex.Memory.EvidenceGraph
import Orvex.Security.Independence
import Orvex.Audit.Attested
import Orvex.Audit.EventKeys
import Orvex.Execution.SamePayment
import Orvex.Foundation.Retry
import Orvex.Models.Router
import Orvex.Models.Repairs
import Orvex.Models.Routing
import Orvex.Agents.IntentParser
import Orvex.Agents.Clarification
import Orvex.Tools.Registry
import Orvex.Tools.Outcomes
import Orvex.Foundation.DecimalArithmetic
import Orvex.Foundation.DecimalTexts
import Orvex.Foundation.Doubles
import Orvex.Tools.Calculator
import Orvex.Tools.Exactness
import Orvex.Foundation.Records
import Orvex.Core.Identity
import Orvex.Gate.History
import Orvex.Api.Permanence
import Orvex.Audit.Forensics
import Orvex.Api.Minted
import Orvex.Api.KillSwitch
import Orvex.Api.Roles
import Orvex.Api.Ledger
import Orvex.Foundation.Contract
import Orvex.Contracts.TestUSDC
import Orvex.Contracts.AttestationRegistry
import Orvex.Foundation.Workflow
import Orvex.Agents.Brain
import Orvex.Agents.Rounds
import Orvex.Domain.Validation
import Orvex.Foundation.Windows
import Orvex.Rag.Chunkers
import Orvex.Rag.Retrieval
import Orvex.Execution.X402
import Orvex.Shared.Logging
import Orvex.Foundation.Exchange
import Orvex.Api.Http
import Orvex.Integration.CoreClient
import Orvex.Integration.Relay
import Orvex.Execution.SmartAccount
import Orvex.PolicyAi.Compiler
import Orvex.Integration.Deployment
