import A3Net.Proof.Blobstore.BitswapExchange
import A3Net.Proof.Blobstore.SwarmIntegrity
import A3Net.Proof.Blobstore.SwarmStates
import A3Net.Proof.Blobstore.SwarmAvailability
import A3Net.Proof.Transport.BlobIntegrity
import A3Net.Proof.Mesh.FetchIntegrity
import A3Net.Proof.Relay.BillingConservation
import A3Net.Proof.Pairing.ResponseTrust
import A3Net.Proof.ChatCrypto.SessionSecrecy
import A3Net.Proof.Backup.Confinement
import A3Net.Proof.Blobstore.NamespaceAtomicity
import A3Net.Proof.Blobstore.BaoSoundness
import A3Net.Proof.Blobstore.BaoStreaming
import A3Net.Proof.WalletEvm.NonceUniqueness
import A3Net.Proof.Chatstore.AppendOrder
import A3Net.Proof.Dht.ProviderAuthenticity
import A3Net.Proof.Namespace.SignatureLayouts
import A3Net.Proof.Namespace.CacheRollback
import A3Net.Proof.MeshCoordinator.CallAtomicity
import A3Net.Proof.Security.ForgedMessages
import A3Net.Proof.ChatCrypto.ChainLockstep
import A3Net.Proof.Resilience.PermitBound
import A3Net.Proof.Gossip.Deduplication
import A3Net.Proof.Mailbox.BackendAgreement
import A3Net.Proof.Blobstore.NamespaceDurability
import A3Net.Proof.Security.AclAgreement
import A3Net.Proof.Webdav.ReplayProtection
import A3Net.Proof.Pairing.ReplayGuard
import A3Net.Proof.DnsServer.SelfCertification
import A3Net.Proof.MeshFirewall.DeclaredRules
import A3Net.Proof.Mailbox.BillingCheck
import A3Net.Proof.Dht.BackendAgreement
import A3Net.Proof.Reputation.Recovery
import A3Net.Proof.Blobstore.PathDecoding
import A3Net.Proof.Relay.MeteredForwarding
import A3Net.Proof.Blobstore.PinProtection
import A3Net.Proof.Webhook.SpoolDurability
import A3Net.Proof.Webhook.RetryBudget
import A3Net.Proof.Blobstore.RangeExactness
import A3Net.Proof.Share.ReceiveConfinement
import A3Net.Proof.Backup.RoundTrip
import A3Net.Proof.Relay.ProxyConfinement
import A3Net.Proof.Transport.FrameDelivery
import A3Net.Proof.MeshCoordinator.RosterBinding
import A3Net.Proof.Gossip.StoreBounds
import A3Net.Proof.Resilience.BreakerProbes
import A3Net.Proof.Dht.ClosestContacts
import A3Net.Proof.Dht.RequestTable
import A3Net.Proof.Types.ContentBinding
import A3Net.Proof.Types.VarintRoundTrip
import A3Net.Proof.Types.IntegrityHashes
import A3Net.Proof.NatTraversal.StunRoundTrip
import A3Net.Proof.Types.HamtShard
