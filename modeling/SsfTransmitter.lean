import SsfTransmitter.Python.Ascii
import SsfTransmitter.Store.ClearFernet
import SsfTransmitter.Core.TransitionSystem
import SsfTransmitter.Core.Ledger
import SsfTransmitter.Outbox.Delivery
import SsfTransmitter.Service.World
import SsfTransmitter.Outbox.Intact
import SsfTransmitter.Outbox.EmbeddedAddresses
import SsfTransmitter.Service.Steps
import SsfTransmitter.Service.Invariants
import SsfTransmitter.Service.Staleness
import SsfTransmitter.Service.FixedKey
import SsfTransmitter.Service.PatchById
import SsfTransmitter.Service.Redelivery
import SsfTransmitter.Store.Quarantine
import SsfTransmitter.Store.Updates
import SsfTransmitter.Scim.Sync
import SsfTransmitter.Scim.Coordination
import SsfTransmitter.Webhook.Answers
import SsfTransmitter.Scim.FilteredCreates
import SsfTransmitter.Scim.Accounting
import SsfTransmitter.Scim.LookupModes
import SsfTransmitter.Scim.Matching
import SsfTransmitter.Scim.Ownership
import SsfTransmitter.Scim.Relinking
import SsfTransmitter.Scim.Interruptions
import SsfTransmitter.Scim.Plans
import SsfTransmitter.Scim.Enactment
import SsfTransmitter.Routes.Streams
import SsfTransmitter.Routes.Delivered
import SsfTransmitter.Store.FernetFormat
import SsfTransmitter.Routes.Credentials
import SsfTransmitter.Routes.ReceiverHeader
import SsfTransmitter.Routes.ReadBack
import SsfTransmitter.Routes.ManagementAuth
import SsfTransmitter.Service.BackOff
import SsfTransmitter.Scim.Updates
import SsfTransmitter.Scim.Urls
import SsfTransmitter.Scim.OrderIndependence
import SsfTransmitter.Keys.PublishedNumbers
import SsfTransmitter.Keys.SigningKey
import SsfTransmitter.Scim.TokenResponses
import SsfTransmitter.Scim.RefreshTokens
import SsfTransmitter.Scim.GetUsers
import SsfTransmitter.Security.EmailRedaction
import SsfTransmitter.Scim.Authorization
import SsfTransmitter.Python.JsonReader
import SsfTransmitter.Python.JsonLayout
import SsfTransmitter.Python.JsonDocument
import SsfTransmitter.Security.SecretKeys
import SsfTransmitter.Security.WithheldSecrets
import SsfTransmitter.Routes.EndpointUrl
import SsfTransmitter.Service.Transmitter
import SsfTransmitter.Service.Registered
import SsfTransmitter.Service.Provenance
import SsfTransmitter.Core.Batches
import SsfTransmitter.Service.Recovery
import SsfTransmitter.Service.Receipts
import SsfTransmitter.Scim.Settled
import SsfTransmitter.Scim.Fixpoint
import SsfTransmitter.Scim.Operations
