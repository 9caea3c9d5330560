import LedgerClient.Address.Derived
import LedgerClient.Blob
import LedgerClient.Channel.Session
import LedgerClient.Client.Config
import LedgerClient.Http.Client
import LedgerClient.Keypair
import LedgerClient.LookupTable
import LedgerClient.Message.Compile
import LedgerClient.Program.Draft
import LedgerClient.Rpc.Catalogue
import LedgerClient.Rpc.Shape.Notation
import LedgerClient.Transaction
import LedgerClient.Proofs.Base58
import LedgerClient.Proofs.Base64
import LedgerClient.Proofs.Blob
import LedgerClient.Proofs.Channel.Accounting
import LedgerClient.Proofs.Channel.Agreement
import LedgerClient.Proofs.Channel.Backpressure
import LedgerClient.Proofs.Channel.Batches
import LedgerClient.Proofs.Channel.Bookkeeping
import LedgerClient.Proofs.Channel.Correlation
import LedgerClient.Proofs.Channel.Delivery
import LedgerClient.Proofs.Channel.Departures
import LedgerClient.Proofs.Channel.Endings
import LedgerClient.Proofs.Channel.Handles
import LedgerClient.Proofs.Channel.History
import LedgerClient.Proofs.Channel.Messages
import LedgerClient.Proofs.Channel.Parts
import LedgerClient.Proofs.Channel.Registry
import LedgerClient.Proofs.Channel.Rejections
import LedgerClient.Proofs.Channel.Releases
import LedgerClient.Proofs.Channel.Requests
import LedgerClient.Proofs.Channel.Stream
import LedgerClient.Proofs.Channel.Tally
import LedgerClient.Proofs.Channel.Teardown
import LedgerClient.Proofs.Channel.Turns
import LedgerClient.Proofs.Channel.Waiting
import LedgerClient.Proofs.Curve.Membership
import LedgerClient.Proofs.Curve.Primality
import LedgerClient.Proofs.Discriminator
import LedgerClient.Proofs.Fault
import LedgerClient.Proofs.Http.Batch
import LedgerClient.Proofs.Json.Integers
import LedgerClient.Proofs.Json.Legible
import LedgerClient.Proofs.Json.Nesting
import LedgerClient.Proofs.Key.Text
import LedgerClient.Proofs.Keyed
import LedgerClient.Proofs.Keypair
import LedgerClient.Proofs.LookupTable
import LedgerClient.Proofs.Message.AccountTable
import LedgerClient.Proofs.Message.Compile
import LedgerClient.Proofs.Message.Format
import LedgerClient.Proofs.Message.Limits
import LedgerClient.Proofs.Message.Lookups
import LedgerClient.Proofs.Message.Parsed
import LedgerClient.Proofs.Message.Plan
import LedgerClient.Proofs.Message.Privilege
import LedgerClient.Proofs.Message.Request
import LedgerClient.Proofs.Message.Resolving
import LedgerClient.Proofs.Message.RoundTrip
import LedgerClient.Proofs.Program.Authority
import LedgerClient.Proofs.Program.Data
import LedgerClient.Proofs.Program.Draft
import LedgerClient.Proofs.Program.Payload
import LedgerClient.Proofs.Radix
import LedgerClient.Proofs.Rpc.Batch
import LedgerClient.Proofs.Rpc.Legible
import LedgerClient.Proofs.Text.Malformed
import LedgerClient.Proofs.Text.Utf8
import LedgerClient.Proofs.Transaction.Cosigning
import LedgerClient.Proofs.Transaction.Format
import LedgerClient.Proofs.Transaction.FullySigned
import LedgerClient.Proofs.Transaction.Refusals
import LedgerClient.Proofs.Transaction.Slots
import LedgerClient.Proofs.Wire.CompactU16
import LedgerClient.Proofs.Wire.IntKind
import LedgerClient.Proofs.Wire.Layout
import LedgerClient.Proofs.Wire.Parts
import LedgerClient.Proofs.Wire.Progress
import LedgerClient.Proofs.Wire.Reading
import LedgerClient.Proofs.Wire.Writing
import LedgerClient.Proofs.Address.Search
import LedgerClient.Proofs.Address.Separation
import LedgerClient.Proofs.Http.Call
import LedgerClient.Proofs.Http.Response
import LedgerClient.Proofs.Rpc.Submission
