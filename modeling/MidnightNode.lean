import MidnightNode.CNight.CacheInterleaving
import MidnightNode.Pallet.MappingMigration
import MidnightNode.Pallet.InherentData
import MidnightNode.Bridge.CacheConcurrency
import MidnightNode.Pallet.C2MApprovals
import MidnightNode.Pallet.Throttle
import MidnightNode.MainChain.McHash
import MidnightNode.Committee.Inherent
import MidnightNode.Committee.Session
import MidnightNode.Committee.Query
import MidnightNode.Pallet.CNightGenesis
import MidnightNode.Toolkit.SharedCache
import MidnightNode.Toolkit.WalletCacheTransparency
import MidnightNode.Toolkit.DustBatch
import MidnightNode.CNight.WindowChain
import MidnightNode.CNight.ConsensusOrder
import MidnightNode.CNight.QueryBounds
import MidnightNode.Ledger.UtxoOrderingOverride
import MidnightNode.MainChain.StableBlockCache
import MidnightNode.Bridge.Lookahead
import MidnightNode.Committee.OrderIndependence
import MidnightNode.Pallet.MembersReset
import MidnightNode.Consensus.ArmedProposer
import MidnightNode.Genesis.Verification
import MidnightNode.Ledger.StateMigration
import MidnightNode.MainChain.SlotEpochs
import MidnightNode.Consensus.MigrationKeystore
import MidnightNode.Relay.ChainProof
import MidnightNode.Offchain.Registration
import MidnightNode.Offchain.SpendCosts
import MidnightNode.Toolkit.OfferSigning
import MidnightNode.Toolkit.ShieldedOffer
import MidnightNode.Committee.KeyEncoding
import MidnightNode.Toolkit.ContractMaintenance
