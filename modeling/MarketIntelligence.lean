import MarketIntelligence.Builder.Agreement
import MarketIntelligence.Builder.Authorization
import MarketIntelligence.Builder.Completion
import MarketIntelligence.Builder.DirectionDelivery
import MarketIntelligence.Builder.DirectionIdentity
import MarketIntelligence.Builder.DirectionOverwrites
import MarketIntelligence.Builder.DirectionPackage
import MarketIntelligence.Builder.Escapes
import MarketIntelligence.Builder.Executor
import MarketIntelligence.Builder.Inventory
import MarketIntelligence.Builder.Planner
import MarketIntelligence.Cases.Acceptance
import MarketIntelligence.Cases.Assembly
import MarketIntelligence.Cases.Closure
import MarketIntelligence.Cases.Orders
import MarketIntelligence.Governance.Clients
import MarketIntelligence.Governance.Copies
import MarketIntelligence.Governance.Ledger
import MarketIntelligence.Governance.Store
import MarketIntelligence.Histories.Linked
import MarketIntelligence.Histories.Rollback
import MarketIntelligence.Interaction.Contract
import MarketIntelligence.Interaction.Cooperative
import MarketIntelligence.Interaction.Embedding
import MarketIntelligence.Interaction.Implementation
import MarketIntelligence.Interaction.Interleaving
import MarketIntelligence.Interaction.Program
import MarketIntelligence.Interaction.Rely
import MarketIntelligence.Interaction.Residual
import MarketIntelligence.Interaction.Schedules
import MarketIntelligence.Journey.Arguments
import MarketIntelligence.Journey.Cli
import MarketIntelligence.Journey.Commands
import MarketIntelligence.Journey.Completable
import MarketIntelligence.Journey.Completion
import MarketIntelligence.Journey.Concurrent
import MarketIntelligence.Journey.Containment
import MarketIntelligence.Journey.Contracts
import MarketIntelligence.Journey.Distinct
import MarketIntelligence.Journey.Escapes
import MarketIntelligence.Journey.Failures
import MarketIntelligence.Journey.Faithful
import MarketIntelligence.Journey.FileSystem
import MarketIntelligence.Journey.Gates
import MarketIntelligence.Journey.Identities
import MarketIntelligence.Journey.Kept
import MarketIntelligence.Journey.Kills
import MarketIntelligence.Journey.Losses
import MarketIntelligence.Journey.Main
import MarketIntelligence.Journey.Order
import MarketIntelligence.Journey.Output
import MarketIntelligence.Journey.Overlap
import MarketIntelligence.Journey.Passages
import MarketIntelligence.Journey.Receipts
import MarketIntelligence.Journey.Requirements
import MarketIntelligence.Journey.Restart
import MarketIntelligence.Journey.Retirement
import MarketIntelligence.Journey.Runner
import MarketIntelligence.Journey.Scripts
import MarketIntelligence.Journey.StateFile
import MarketIntelligence.Journey.Walks
import MarketIntelligence.Json.Completeness
import MarketIntelligence.Json.Data
import MarketIntelligence.Json.Decoder
import MarketIntelligence.Json.Encoder
import MarketIntelligence.Json.Errors
import MarketIntelligence.Json.Grammar
import MarketIntelligence.Json.Length
import MarketIntelligence.Json.Lexer
import MarketIntelligence.Json.Limits
import MarketIntelligence.Json.Soundness
import MarketIntelligence.Json.Surrogates
import MarketIntelligence.Provenance.Artifacts
import MarketIntelligence.Provenance.ExactWheel
import MarketIntelligence.Provenance.LiveWheels
import MarketIntelligence.PublicProduct.Acceptance
import MarketIntelligence.PublicProduct.Attestation
import MarketIntelligence.PublicProduct.Bound
import MarketIntelligence.PublicProduct.Capture
import MarketIntelligence.PublicProduct.Concurrent
import MarketIntelligence.PublicProduct.Escapes
import MarketIntelligence.PublicProduct.NormalForm
import MarketIntelligence.PublicProduct.Payload
import MarketIntelligence.Python.Base64
import MarketIntelligence.Python.Contained
import MarketIntelligence.Python.Datetime
import MarketIntelligence.Python.Dictionaries
import MarketIntelligence.Python.Exceptions
import MarketIntelligence.Python.Faithful
import MarketIntelligence.Python.Files
import MarketIntelligence.Python.Fitting
import MarketIntelligence.Python.Maximum
import MarketIntelligence.Python.Object
import MarketIntelligence.Python.Processes
import MarketIntelligence.Python.Related
import MarketIntelligence.Python.RoundTrip
import MarketIntelligence.Python.SameValue
import MarketIntelligence.Python.Text
import MarketIntelligence.Python.Utf8
import MarketIntelligence.Python.Values
import MarketIntelligence.Python.Words
import MarketIntelligence.Python.Written
