import EventSourcing.Declaration.Expansion
import EventSourcing.Inventory.Steps
import EventSourcing.Session.Step
import EventSourcing.Uuid
import EventSourcing.Decimal
import EventSourcing.Json.Text
import EventSourcing.Declaration.Written
import EventSourcing.Proofs.Saving
import EventSourcing.Proofs.OptimisticConcurrency
import EventSourcing.Proofs.FreshLoad
import EventSourcing.Proofs.Publication
import EventSourcing.Proofs.Serializability
import EventSourcing.Proofs.AppendOnly
import EventSourcing.Proofs.RemoteStore
import EventSourcing.Proofs.RemoteFailures
import EventSourcing.Proofs.RoundTrip
import EventSourcing.Proofs.Refinement
import EventSourcing.Proofs.Dispatch
import EventSourcing.Proofs.Independence
import EventSourcing.Proofs.Stock
import EventSourcing.Proofs.ReadModel
import EventSourcing.Proofs.Ownership
import EventSourcing.Proofs.Delivery
import EventSourcing.Proofs.Transparency
import EventSourcing.Proofs.Decoding
import EventSourcing.Proofs.Isolation
import EventSourcing.Proofs.RemoteCalls
import EventSourcing.Proofs.Containment
import EventSourcing.Proofs.CountOverflow
import EventSourcing.Proofs.VersionSums
import EventSourcing.Proofs.WrittenTime
import EventSourcing.Proofs.RecordForm
import EventSourcing.Proofs.DerivedTraits
import EventSourcing.Proofs.LeadingFields
import EventSourcing.Proofs.Expanding
import EventSourcing.Proofs.TraitNames
import EventSourcing.Proofs.Accounting
