import AccountWatch.Main
import AccountWatch.Program.Basic
import AccountWatch.Proofs.Service.Course
import AccountWatch.Proofs.Service.Departure
import AccountWatch.Proofs.Service.Reader
import AccountWatch.Proofs.Service.Updates
import AccountWatch.Recorder
import AccountWatch.Service.Run
import AccountWatch.Proofs.Publisher.Delivery
import AccountWatch.Proofs.Publisher.Transcript
import AccountWatch.Proofs.Service.Hearing
import AccountWatch.Proofs.Service.Recovery
import AccountWatch.Proofs.Json.Order
import AccountWatch.Proofs.Json.Quoting
import AccountWatch.Proofs.Json.Reading
import AccountWatch.Proofs.Number.Digits
import AccountWatch.Proofs.Json.RoundTrip
import AccountWatch.Proofs.Json.Printing
import AccountWatch.Proofs.Message.Line
import AccountWatch.Proofs.Service.Cargo
import AccountWatch.Proofs.Request.Wire
import AccountWatch.Proofs.Message.Projection
import AccountWatch.Proofs.Json.Repetition
import AccountWatch.Proofs.Message.Frame
import AccountWatch.Proofs.Publisher.Sole
import AccountWatch.Proofs.Service.Consumers
import AccountWatch.Proofs.Socket.History
import AccountWatch.Proofs.Socket.Works
import AccountWatch.Proofs.Socket.Ledger
import AccountWatch.Proofs.Socket.Calls
import AccountWatch.Proofs.Program.Leaving
import AccountWatch.Proofs.Socket.Chronicle
import AccountWatch.Proofs.Socket.Delivery
import AccountWatch.Proofs.Number.Count
import AccountWatch.Proofs.Json.Numerals
import AccountWatch.Proofs.Message.Texts
import AccountWatch.Proofs.Message.Counts
import AccountWatch.Proofs.Service.Outcomes
import AccountWatch.Proofs.Service.Bystanders
import AccountWatch.Proofs.Service.Openings
import AccountWatch.Proofs.Service.Returns
import AccountWatch.Proofs.Publisher.Pruning
import AccountWatch.Proofs.Service.Batches
import AccountWatch.Proofs.Number.Overflow
import AccountWatch.Proofs.Number.Reals
import AccountWatch.Proofs.Message.Quotes
import AccountWatch.Proofs.Uri.Authority
import AccountWatch.Proofs.Uri.Grammar
import AccountWatch.Proofs.Uri.Reading
import AccountWatch.Proofs.Endpoint
import AccountWatch.Proofs.Recorder
