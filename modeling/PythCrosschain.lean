import PythCrosschain.Lib.Bytes
import PythCrosschain.Lib.CallStack
import PythCrosschain.Lib.SlotTable
import PythCrosschain.Evm.Solidity
import PythCrosschain.Entropy.Contract
import PythCrosschain.Entropy.Run
import PythCrosschain.Entropy.Change
import PythCrosschain.Entropy.RequestTable
import PythCrosschain.Entropy.ChainPosition
import PythCrosschain.Entropy.Binding
import PythCrosschain.Pulse.Contract
import PythCrosschain.Pulse.Callback
import PythCrosschain.Evm.ByteArrays
import PythCrosschain.Pyth.Accumulator
import PythCrosschain.Pyth.StrictAccumulator
import PythCrosschain.WormholeReceiver.Messages
import PythCrosschain.WormholeReceiver.Agreement
import PythCrosschain.Pyth.Governance
import PythCrosschain.Lib.ReplayCounter
import PythCrosschain.Pyth.Replay
import PythCrosschain.Lib.KeyedFlags
import PythCrosschain.Pyth.DataSources
import PythCrosschain.Lib.HeapTree
import PythCrosschain.PythnetSdk.MerkleTree
import PythCrosschain.PythnetSdk.Membership
import PythCrosschain.Lib.Quorum
import PythCrosschain.WormholeReceiver.Quorum
import PythCrosschain.WormholeReceiver.Governance
import PythCrosschain.WormholeReceiver.Rotation
import PythCrosschain.Fortuna.Blocks
import PythCrosschain.Fortuna.Keeper
import PythCrosschain.Lib.LatestValue
import PythCrosschain.Pyth.PriceFeeds
import PythCrosschain.Pyth.LatestPrice
import PythCrosschain.Entropy.Solvency
import PythCrosschain.Lib.Cursor
import PythCrosschain.Pulse.Tracking
import PythCrosschain.Hermes.Cache
import PythCrosschain.Hermes.FirstAfter
import PythCrosschain.Lib.Codec
import PythCrosschain.PythnetSdk.Wire
import PythCrosschain.PythnetSdk.WireRoundTrip
import PythCrosschain.PythnetSdk.WireV1
import PythCrosschain.Lib.StableSort
import PythCrosschain.PythnetSdk.Layout
import PythCrosschain.Pyth.UpdateReads
import PythCrosschain.Hermes.UpdateData
import PythCrosschain.Fortuna.HashChainState
import PythCrosschain.Entropy.Registrations
import PythCrosschain.Fortuna.ChainAgreement
import PythCrosschain.Hermes.Aggregate
import PythCrosschain.Hermes.StoreUpdate
import PythCrosschain.MessageBuffer.ReadLaw
import PythCrosschain.RemoteExecutor.Replay
import PythCrosschain.Hermes.Twap
import PythCrosschain.SolanaReceiver.TwapAgreement
import PythCrosschain.Lazer.SignatureBinding
import PythCrosschain.Lazer.Message
import PythCrosschain.Lazer.PayloadRoundTrip
import PythCrosschain.Lazer.MessageRoundTrip
import PythCrosschain.Lazer.PythLazer
import PythCrosschain.Lazer.EvmWalk
import PythCrosschain.PythnetSdk.VerifiedUpdate
import PythCrosschain.Pyth.AccumulatorGrammar
import PythCrosschain.CosmWasm.Contract
import PythCrosschain.CosmWasm.Agreement
import PythCrosschain.CosmWasm.Governance
import PythCrosschain.CosmWasm.GovernanceReplay
import PythCrosschain.Hermes.PriceFeeds
import PythCrosschain.Hermes.VerifiedUpdates
import PythCrosschain.Solana.Accounts
import PythCrosschain.SolanaReceiver.Program
import PythCrosschain.SolanaReceiver.Provenance
import PythCrosschain.PushOracle.PriceFeedAccounts
import PythCrosschain.Pulse.Solvency
import PythCrosschain.Lazer.SignerStore
import PythCrosschain.Lib.KeyedSlots
import PythCrosschain.Lazer.EvmSigners
import PythCrosschain.Lazer.SolanaSigners
import PythCrosschain.Lazer.Aptos
import PythCrosschain.Lazer.TrustedSigners
import PythCrosschain.Lib.Hex
import PythCrosschain.Near.Receiver
import PythCrosschain.Near.Interleaving
import PythCrosschain.Sui.Governance
import PythCrosschain.Sui.Receipts
import PythCrosschain.Lib.Bits
import PythCrosschain.Lib.Tvm
import PythCrosschain.Ton.Utils
import PythCrosschain.Ton.Wormhole
import PythCrosschain.WormholeReceiver.Acceptance
import PythCrosschain.Ton.VerifiedVaa
import PythCrosschain.Ton.Rotation
import PythCrosschain.Ton.MerkleTree
import PythCrosschain.Starknet.Reader
import PythCrosschain.Starknet.Hash
import PythCrosschain.Sui.MerkleTree
import PythCrosschain.Starknet.MerkleTree
import PythCrosschain.PythnetSdk.MerkleChecks
import PythCrosschain.Lib.Outcomes
import PythCrosschain.Ton.CellChain
import PythCrosschain.Ton.Pyth
import PythCrosschain.Ton.CellBoundaries
import PythCrosschain.Ton.LatestPrice
import PythCrosschain.Hermes.Deduplication
import PythCrosschain.Hermes.ReceiverAgreement
import PythCrosschain.Near.Deposits
import PythCrosschain.Fuel.Bytes
import PythCrosschain.Fuel.WormholeLight
import PythCrosschain.Fuel.Acceptance
import PythCrosschain.Fuel.GuardianSets
import PythCrosschain.Fuel.AccumulatorAgreement
import PythCrosschain.Fuel.AccumulatorUpdate
import PythCrosschain.Lib.FirstMatch
import PythCrosschain.Pyth.UpdateFee
import PythCrosschain.Pyth.ParsedFeeds
import PythCrosschain.XcAdmin.GovernancePayload
import PythCrosschain.Executor.Contract
import PythCrosschain.Executor.PerformedCalls
import PythCrosschain.MovePackages.Prices
import PythCrosschain.MovePackages.Accumulator
import PythCrosschain.Aptos.State
import PythCrosschain.Aptos.PriceFeeds
import PythCrosschain.Aptos.Accumulator
import PythCrosschain.Sui.Accumulator
import PythCrosschain.Sui.PriceFeeds
import PythCrosschain.MovePackages.AccumulatorAgreement
import PythCrosschain.Aptos.Governance
import PythCrosschain.Aptos.UpgradeAuthorization
import PythCrosschain.PythnetSdk.WormholeAttester
import PythCrosschain.BatchAttestations.Agreement
import PythCrosschain.Sui.PriceInfoObjects
import PythCrosschain.Entropy.Blocks
import PythCrosschain.Fortuna.Disclosure
import PythCrosschain.Lib.Shuffle
import PythCrosschain.Sdk.PRNG
import PythCrosschain.Sdk.PythUtils
import PythCrosschain.Starknet.HasherOperations
import PythCrosschain.Near.UpdateCharge
import PythCrosschain.Sui.ConstructProofs
import PythCrosschain.Ton.LargeData
import PythCrosschain.Ton.ParseRequests
import PythCrosschain.XcAdmin.ExecutorBatches
import PythCrosschain.CosmWasm.GovernanceCodec
import PythCrosschain.CosmWasm.UpdateFee
import PythCrosschain.Fortuna.NonceManager
import PythCrosschain.Fuel.ParsedFeeds
import PythCrosschain.PythnetSdk.AttestationCodec
import PythCrosschain.PriceStore.Accounts
import PythCrosschain.PriceStore.Buffers
import PythCrosschain.Hermes.Streams
import PythCrosschain.Hermes.StreamDelivery
import PythCrosschain.Lib.Batches
import PythCrosschain.SolanaUtils.TransactionBuilder
import PythCrosschain.SolanaUtils.Transactions
import PythCrosschain.XcAdmin.GovernanceActions
import PythCrosschain.XcAdmin.GovernanceAgreement
