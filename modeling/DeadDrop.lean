import DeadDrop.Address
import DeadDrop.Armor.Base64
import DeadDrop.Armor.Checksum
import DeadDrop.Armor.Frame
import DeadDrop.Bytes
import DeadDrop.Cipher.Aes
import DeadDrop.Cipher.Feedback
import DeadDrop.Cipher.Keyed
import DeadDrop.Clock
import DeadDrop.Courier.Basic
import DeadDrop.Courier.Direct
import DeadDrop.Courier.Error
import DeadDrop.Courier.Share
import DeadDrop.Decimal.Shortest
import DeadDrop.Digest.Algorithm
import DeadDrop.Digest.Basic
import DeadDrop.Digest.Sha1
import DeadDrop.Digest.Sha2
import DeadDrop.Envelope.Error
import DeadDrop.Envelope.Open
import DeadDrop.Envelope.Payload
import DeadDrop.Envelope.Seal
import DeadDrop.Envelope.ShareKey
import DeadDrop.Envelope.Specifier
import DeadDrop.Exchange.Error
import DeadDrop.Exchange.Link
import DeadDrop.Exchange.Record
import DeadDrop.Http.Api
import DeadDrop.Http.Error
import DeadDrop.Http.MediaType
import DeadDrop.Http.Message
import DeadDrop.Http.Route
import DeadDrop.Http.Target
import DeadDrop.Inflate.Bits
import DeadDrop.Inflate.Code
import DeadDrop.Inflate.Stream
import DeadDrop.Json.Fault
import DeadDrop.Json.Number
import DeadDrop.Json.Record
import DeadDrop.Json.Skip
import DeadDrop.Json.Text
import DeadDrop.Json.Writer
import DeadDrop.Main
import DeadDrop.Packet.Cursor
import DeadDrop.Packet.Frame
import DeadDrop.Policy
import DeadDrop.Proofs.Armor.Base64
import DeadDrop.Proofs.Armor.Checksum
import DeadDrop.Proofs.Armor.Frame
import DeadDrop.Proofs.Armor.Header
import DeadDrop.Proofs.Armor.Layout
import DeadDrop.Proofs.Armor.Size
import DeadDrop.Proofs.Armor.Transport
import DeadDrop.Proofs.Armor.Truncation
import DeadDrop.Proofs.Bits
import DeadDrop.Proofs.Checked
import DeadDrop.Proofs.Cipher.Aes
import DeadDrop.Proofs.Cipher.Chaining
import DeadDrop.Proofs.Cipher.Feedback
import DeadDrop.Proofs.Courier.Direct
import DeadDrop.Proofs.Courier.Errand
import DeadDrop.Proofs.Courier.Reference
import DeadDrop.Proofs.Courier.Root
import DeadDrop.Proofs.Courier.RoundTrip
import DeadDrop.Proofs.Decimal.Binary
import DeadDrop.Proofs.Envelope.Attempt
import DeadDrop.Proofs.Envelope.Depth
import DeadDrop.Proofs.Envelope.Derivation
import DeadDrop.Proofs.Envelope.Filename
import DeadDrop.Proofs.Envelope.Integrity
import DeadDrop.Proofs.Envelope.KeyRanges
import DeadDrop.Proofs.Envelope.Layers
import DeadDrop.Proofs.Envelope.Opening
import DeadDrop.Proofs.Envelope.Profile
import DeadDrop.Proofs.Envelope.Ranges
import DeadDrop.Proofs.Envelope.Reading
import DeadDrop.Proofs.Envelope.Refusal
import DeadDrop.Proofs.Envelope.RoundTrip
import DeadDrop.Proofs.Envelope.Sealing
import DeadDrop.Proofs.Envelope.ShareKey
import DeadDrop.Proofs.Envelope.Tampering
import DeadDrop.Proofs.Envelope.Truncation
import DeadDrop.Proofs.Exchange.Keys
import DeadDrop.Proofs.Exchange.Link
import DeadDrop.Proofs.Exchange.Record
import DeadDrop.Proofs.Exchange.Size
import DeadDrop.Proofs.Http.Absence
import DeadDrop.Proofs.Http.Calls
import DeadDrop.Proofs.Http.Delivery
import DeadDrop.Proofs.Http.Disclosure
import DeadDrop.Proofs.Http.Discretion
import DeadDrop.Proofs.Http.Families
import DeadDrop.Proofs.Http.Room
import DeadDrop.Proofs.Json.Number
import DeadDrop.Proofs.Json.Record
import DeadDrop.Proofs.Json.Text
import DeadDrop.Proofs.Packet.Acceptance
import DeadDrop.Proofs.Packet.Definite
import DeadDrop.Proofs.Packet.Framing
import DeadDrop.Proofs.Packet.Grammar
import DeadDrop.Proofs.Packet.Reader
import DeadDrop.Proofs.Packet.Steps
import DeadDrop.Proofs.Packet.Streaming
import DeadDrop.Proofs.Packet.Truncation
import DeadDrop.Proofs.Replay
import DeadDrop.Proofs.Secret.Id
import DeadDrop.Proofs.Secret.Text
import DeadDrop.Proofs.Server.Advertisement
import DeadDrop.Proofs.Service.Admission
import DeadDrop.Proofs.Service.Calls
import DeadDrop.Proofs.Service.Custody
import DeadDrop.Proofs.Service.Delivery
import DeadDrop.Proofs.Service.Disturbed
import DeadDrop.Proofs.Service.Fate
import DeadDrop.Proofs.Service.Interleaving
import DeadDrop.Proofs.Service.Lifecycle
import DeadDrop.Proofs.Store.Agreement
import DeadDrop.Proofs.Store.Book
import DeadDrop.Proofs.Store.Depot
import DeadDrop.Proofs.Store.Durable
import DeadDrop.Proofs.Store.Faults
import DeadDrop.Proofs.Store.Generator
import DeadDrop.Proofs.Store.Ledger
import DeadDrop.Proofs.Store.Likeness
import DeadDrop.Proofs.Store.Machine
import DeadDrop.Proofs.Store.Operations
import DeadDrop.Proofs.Store.Overdue
import DeadDrop.Proofs.Store.Rate
import DeadDrop.Proofs.Store.Transaction
import DeadDrop.Proofs.Store.Window
import DeadDrop.Proofs.Text.Cut
import DeadDrop.Proofs.Text.Utf8
import DeadDrop.Proofs.Url.Authority
import DeadDrop.Proofs.Url.Extend
import DeadDrop.Proofs.Url.Fragment
import DeadDrop.Proofs.Url.Location
import DeadDrop.Proofs.Url.Parse
import DeadDrop.Proofs.Url.Percent
import DeadDrop.Random.ChaCha
import DeadDrop.Random.Source
import DeadDrop.Secret.Basic
import DeadDrop.Secret.Id
import DeadDrop.Secret.Lifetime
import DeadDrop.Server.Arguments
import DeadDrop.Server.Error
import DeadDrop.Server.Launch
import DeadDrop.Server.Settings
import DeadDrop.Server.Sweeper
import DeadDrop.Service
import DeadDrop.Store.Basic
import DeadDrop.Store.Disturbed
import DeadDrop.Store.Durable
import DeadDrop.Store.Faulty
import DeadDrop.Store.Memory
import DeadDrop.Store.Shelf
import DeadDrop.Text.Blank
import DeadDrop.Text.Printable
import DeadDrop.Text.Quoted
import DeadDrop.Text.Utf8
import DeadDrop.Transducer
import DeadDrop.Url.Basic
import DeadDrop.Url.Extend
import DeadDrop.Url.Host
import DeadDrop.Url.Names
import DeadDrop.Url.Parse
import DeadDrop.Url.Percent
