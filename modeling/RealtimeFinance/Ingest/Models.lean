/-!
# Models — `ingest.core.models`

The trade both transports carry.  Its fields stand in the order of the dataclass, which is the order they are encoded in.
-/
namespace Ingest

inductive Side
  | buy
  | sell
  | unknown
  deriving DecidableEq

def Side.text : Side → String
  | .buy     => "BUY"
  | .sell    => "SELL"
  | .unknown => "UNKNOWN"

inductive Source
  | stream
  | restRepair
  | archive
  deriving DecidableEq

def Source.text : Source → String
  | .stream     => "STREAM"
  | .restRepair => "REST_REPAIR"
  | .archive    => "ARCHIVE"

structure Trade where
  venue : String
  venueSymbol : String
  instrumentId : String
  tradeId : String
  eventTsUs : Int
  ingestTsUs : Int
  price : String
  size : String
  side : Side
  sequence : Option Int
  isBackfill : Bool
  source : Source
  deriving DecidableEq

/-- One instrument on one venue stays in one shard. -/
def Trade.kafkaKey (t : Trade) : String := t.venue ++ "|" ++ t.venueSymbol

end Ingest
