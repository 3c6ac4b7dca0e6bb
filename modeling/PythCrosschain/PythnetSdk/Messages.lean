import PythCrosschain.PythnetSdk.MerkleTree

/-!
# Messages

The messages that the accumulator program sends to other chains. Integers are
words of their width; `i32`, `i64` and `i128` are two's complement words, so
`BitVec.toInt` is the number.
-/

namespace PythCrosschain.PythnetSdk

abbrev U64 := BitVec 64
abbrev U128 := BitVec 128
abbrev I32 := BitVec 32
abbrev I64 := BitVec 64
abbrev I128 := BitVec 128

/-- Id of a feed producing the message. -/
abbrev FeedId := HashArray 32

abbrev Pubkey := HashArray 32

structure PriceFeedMessage where
  feedId : FeedId
  price : I64
  conf : U64
  exponent : I32
  publishTime : I64
  prevPublishTime : I64
  emaPrice : I64
  emaConf : U64
deriving DecidableEq

structure TwapMessage where
  feedId : FeedId
  cumulativePrice : I128
  cumulativeConf : U128
  numDownSlots : U64
  exponent : I32
  publishTime : I64
  prevPublishTime : I64
  publishSlot : U64
deriving DecidableEq

structure PublisherStakeCap where
  publisher : Pubkey
  cap : U64
deriving DecidableEq

structure PublisherStakeCapsMessage where
  publishTime : I64
  caps : List PublisherStakeCap
deriving DecidableEq

inductive Message where
  | priceFeedMessage (msg : PriceFeedMessage)
  | twapMessage (msg : TwapMessage)
  | publisherStakeCapsMessage (msg : PublisherStakeCapsMessage)
deriving DecidableEq

/-- The discriminants of `Message`. -/
inductive MessageType where
  | priceFeedMessage
  | twapMessage
  | publisherStakeCapsMessage
deriving DecidableEq

/-- A feed id that is not used by any price feed. -/
def PUBLISHER_STAKE_CAPS_MESSAGE_FEED_ID : FeedId :=
  ⟨List.replicate 32 1, List.length_replicate⟩

namespace Message

def publishTime : Message → I64
  | .priceFeedMessage msg => msg.publishTime
  | .twapMessage msg => msg.publishTime
  | .publisherStakeCapsMessage msg => msg.publishTime

def feedId : Message → FeedId
  | .priceFeedMessage msg => msg.feedId
  | .twapMessage msg => msg.feedId
  | .publisherStakeCapsMessage _ => PUBLISHER_STAKE_CAPS_MESSAGE_FEED_ID

def type : Message → MessageType
  | .priceFeedMessage _ => .priceFeedMessage
  | .twapMessage _ => .twapMessage
  | .publisherStakeCapsMessage _ => .publisherStakeCapsMessage

end Message

end PythCrosschain.PythnetSdk
