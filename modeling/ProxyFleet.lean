import ProxyFleet.Proofs.Run.Exclusion
import ProxyFleet.Proofs.Run.Outcomes
import ProxyFleet.Proofs.Run.Renderings
import ProxyFleet.Schema
import ProxyFleet.Store.Cell
import ProxyFleet.Wire.Exchange
import ProxyFleet.Proofs.Inbound.Record
import ProxyFleet.Proofs.Context.Fitting
import ProxyFleet.Proofs.Number.Lexeme
import ProxyFleet.Proofs.Value.Inert
import ProxyFleet.Proofs.Value.Spelling
import ProxyFleet.Proofs.Value.Reread
import ProxyFleet.Proofs.Inbound.Files
import ProxyFleet.Proofs.SingBox.Clients
import ProxyFleet.Proofs.Xray.Clients
import ProxyFleet.Proofs.Inbound.Subscribers
import ProxyFleet.Proofs.Conversion.Shared
import ProxyFleet.Proofs.Xray.Returned
import ProxyFleet.Proofs.Conversion.Again
import ProxyFleet.Proofs.Conversion.Detection
import ProxyFleet.Proofs.Run.Compatibility
import ProxyFleet.Proofs.Template.Defaults
import ProxyFleet.Proofs.Run.SwitchIds
import ProxyFleet.Proofs.Run.Ledger
import ProxyFleet.Proofs.Context.Capabilities
import ProxyFleet.Proofs.Inbound.Accounts
import ProxyFleet.Proofs.Run.Bounds
import ProxyFleet.Proofs.Run.Contexts
import ProxyFleet.Proofs.Run.Isolation
import ProxyFleet.Proofs.Run.Templates
import ProxyFleet.Proofs.Value.Commented
import ProxyFleet.Proofs.Context.Upgrades
import ProxyFleet.Proofs.Context.Respelled
import ProxyFleet.Proofs.Run.Integrity
import ProxyFleet.Proofs.Value.Proper
import ProxyFleet.Proofs.Inbound.Malformed
import ProxyFleet.Proofs.Conversion.Destinations
import ProxyFleet.Proofs.Work.Pages
import ProxyFleet.Proofs.ConfigCheck.Documented
import ProxyFleet.Proofs.Number.Range
import ProxyFleet.Proofs.Value.Digits
import ProxyFleet.Proofs.Conversion.Numbers
import ProxyFleet.Proofs.Store.Repositories
import ProxyFleet.Proofs.Store.Kept
import ProxyFleet.Proofs.Inbound.Flows
import ProxyFleet.Proofs.Schema
import ProxyFleet.Proofs.Template.Notes
import ProxyFleet.Proofs.Template.Expressions
import ProxyFleet.Proofs.Inbound.Faults
