import ShareBroker.Charm.Dispatch
import ShareBroker.Charm.FilesystemClient
import ShareBroker.Charm.Kind
import ShareBroker.Proofs.Charm.ClientConverge
import ShareBroker.Proofs.Charm.ClientOutcomes
import ShareBroker.Proofs.Charm.ClientSettles
import ShareBroker.Proofs.Charm.Invariant
import ShareBroker.Proofs.Charm.MountRequest
import ShareBroker.Proofs.Config.Publishable
import ShareBroker.Proofs.EventJson
import ShareBroker.Proofs.HookNames
import ShareBroker.Proofs.Interface.EndpointNotices
import ShareBroker.Proofs.Interface.MountReadBack
import ShareBroker.Proofs.Interface.PeerReads
import ShareBroker.Proofs.Mount.Table
import ShareBroker.Proofs.Net.Address
import ShareBroker.Proofs.SecretPointer
import ShareBroker.Proofs.Session.LeaderGating
import ShareBroker.Proofs.Session.Representation
