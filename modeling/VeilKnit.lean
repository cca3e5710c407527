import VeilKnit.Mailbox.ForeignProgress
import VeilKnit.Mailbox.InboxRuns
import VeilKnit.StreamTransport.RelayRuns
import VeilKnit.StreamTransport.LateJoin
import VeilKnit.BlobStore.PublicReads
import VeilKnit.BlobStore.OwnValues
import VeilKnit.Mailbox.Submission
import VeilKnit.Mailbox.QuotaRuns
import VeilKnit.Handshake.Agreement
import VeilKnit.Gossip.Capacity
import VeilKnit.Gossip.Publication
import VeilKnit.Gossip.Generations
import VeilKnit.RouteManager.Packages
import VeilKnit.Reputation.Flags
import VeilKnit.Reputation.Revocations
import VeilKnit.Gossip.Search
import VeilKnit.Gossip.Network
import VeilKnit.App.DirectoryStore
import VeilKnit.WalkTask.Freshness
import VeilKnit.App.DiscoveryPages
import VeilKnit.WalkTask.AppReads
import VeilKnit.UserAuth.Profiles
import VeilKnit.NetworkSupervisor.Readiness
import VeilKnit.Api.RegistrationRuns
import VeilKnit.Api.ConnectionRuns
import VeilKnit.Api.SessionDelivery
import VeilKnit.Api.MessageDelivery
import VeilKnit.Recovery.RoundTrip
import VeilKnit.Lifecycle.StopSafety
import VeilKnit.Handshake.Refinement
import VeilKnit.Handshake.Sessions
import VeilKnit.Handshake.Duplicates
import VeilKnit.Handshake.DirectMessages
import VeilKnit.PrivateStorage.BlobRuns
import VeilKnit.Lexical.WordIds
import VeilKnit.Lexical.Fingerprints
import VeilKnit.MainDht.SetupRuns
import VeilKnit.WalkTask.HopPickers
import VeilKnit.Types.KeyInt
