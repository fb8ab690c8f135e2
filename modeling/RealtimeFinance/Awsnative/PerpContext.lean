import RealtimeFinance.Python.Json
import RealtimeFinance.Sql.Merge
/-!
# PerpContext — `awsnative.enrichment.perp`

`build_rows` makes one Bronze row of each instrument that `premiumIndex` answered for.  Every value goes as text: what
the venue left out as the empty one, an instant it left out as a zero.
-/
namespace Awsnative

open Python Sql

/-! ## The ratio families -/

inductive RatioFamily
  | toptraderAccounts
  | toptraderPositions
  | globalAccounts
  | takerVolume
  deriving DecidableEq

def RatioFamily.text : RatioFamily → String
  | .toptraderAccounts  => "toptrader_accounts"
  | .toptraderPositions => "toptrader_positions"
  | .globalAccounts     => "global_accounts"
  | .takerVolume        => "taker_volume"

/-- `RATIO_FIELDS`: the ratio, its long side and its short side. -/
def RatioFamily.fields : RatioFamily → String × String × String
  | .takerVolume => ("buySellRatio", "buyVol", "sellVol")
  | _            => ("longShortRatio", "longAccount", "shortAccount")

/-- One value of each family. -/
structure Families (α : Type) where
  toptraderAccounts : α
  toptraderPositions : α
  globalAccounts : α
  takerVolume : α
  deriving DecidableEq

variable {α ε : Type}

def Families.get (x : Families α) : RatioFamily → α
  | .toptraderAccounts  => x.toptraderAccounts
  | .toptraderPositions => x.toptraderPositions
  | .globalAccounts     => x.globalAccounts
  | .takerVolume        => x.takerVolume

/-- `{f: value(f) for f in RATIO_FAMILIES}`. -/
def Families.build (value : RatioFamily → Except ε α) : Except ε (Families α) := do
  let toptraderAccounts ← value .toptraderAccounts
  let toptraderPositions ← value .toptraderPositions
  let globalAccounts ← value .globalAccounts
  let takerVolume ← value .takerVolume
  return { toptraderAccounts, toptraderPositions, globalAccounts, takerVolume }

theorem Families.build_eq_ok_iff {value : RatioFamily → Except ε α} {x : Families α} :
    Families.build value = .ok x ↔ ∀ f, value f = .ok (x.get f) := by
  constructor
  · intro h
    obtain ⟨a, ha, h⟩ := bind_ok h
    obtain ⟨b, hb, h⟩ := bind_ok h
    obtain ⟨c, hc, h⟩ := bind_ok h
    obtain ⟨d, hd, h⟩ := bind_ok h
    cases h
    intro f
    cases f with
    | toptraderAccounts => exact ha
    | toptraderPositions => exact hb
    | globalAccounts => exact hc
    | takerVolume => exact hd
  · intro h
    unfold Families.build
    rw [h .toptraderAccounts, h .toptraderPositions, h .globalAccounts, h .takerVolume]
    rfl

theorem Families.build_total {value : RatioFamily → Except ε α} (h : ∀ f, ∃ a, value f = .ok a) :
    ∃ x, Families.build value = .ok x := by
  obtain ⟨a, ha⟩ := h .toptraderAccounts
  obtain ⟨b, hb⟩ := h .toptraderPositions
  obtain ⟨c, hc⟩ := h .globalAccounts
  obtain ⟨d, hd⟩ := h .takerVolume
  unfold Families.build
  rw [ha, hb, hc, hd]
  exact ⟨_, rfl⟩

/-! ## Observations -/

structure RatioObservation where
  ratio : String
  longComponent : String
  shortComponent : String
  sourceTsUs : Int
  deriving DecidableEq

/-- The endpoint did not answer. -/
def RatioObservation.absent : RatioObservation :=
  { ratio := "", longComponent := "", shortComponent := "", sourceTsUs := 0 }

def microsPerMilli : Int := 1000

def RatioObservation.fromPayload (family : RatioFamily) (payload : JsonObject) : Except Exception RatioObservation := do
  let ratio ← Dict.item payload family.fields.1
  let long ← Dict.item payload family.fields.2.1
  let short ← Dict.item payload family.fields.2.2
  let timestamp ← Dict.item payload "timestamp"
  let millis ← timestamp.toInt
  return { ratio := ratio.text, longComponent := long.text, shortComponent := short.text
           sourceTsUs := millis * microsPerMilli }

/-- `_latest`: the endpoints answer oldest first. -/
def latest (family : RatioFamily) (payload : Option (List JsonObject)) : Except Exception RatioObservation :=
  match (payload.getD []).getLast? with
  | some reading => RatioObservation.fromPayload family reading
  | none         => .ok .absent

/-- `_millis_to_micros`: missing, null and empty are zero. -/
def millisToMicros : Option Json → Except Exception Int
  | none            => .ok 0
  | some .null      => .ok 0
  | some (.str "")  => .ok 0
  | some value      => value.toInt.map (· * microsPerMilli)

/-! ## The Bronze row -/

structure PerpContext where
  instrumentId : String
  venueSymbol : String
  pollTsUs : Int
  snapshotTsUs : Int
  markPrice : String
  indexPrice : String
  estimatedSettlePrice : String
  lastFundingRate : String
  interestRate : String
  nextFundingTimeUs : Int
  premiumIndexTsUs : Int
  openInterest : String
  openInterestTsUs : Int
  ratios : Families RatioObservation
  deriving DecidableEq

def ratioFamilies : List RatioFamily := [.toptraderAccounts, .toptraderPositions, .globalAccounts, .takerVolume]

def PerpContext.toJson (row : PerpContext) : Dict String :=
  [("instrument_id", row.instrumentId),
   ("venue_symbol", row.venueSymbol),
   ("venue", "binance"),
   ("poll_ts_us", toString row.pollTsUs),
   ("snapshot_ts_us", toString row.snapshotTsUs),
   ("mark_price", row.markPrice),
   ("index_price", row.indexPrice),
   ("estimated_settle_price", row.estimatedSettlePrice),
   ("last_funding_rate", row.lastFundingRate),
   ("interest_rate", row.interestRate),
   ("next_funding_time_us", toString row.nextFundingTimeUs),
   ("premium_index_ts_us", toString row.premiumIndexTsUs),
   ("open_interest", row.openInterest),
   ("open_interest_ts_us", toString row.openInterestTsUs)] ++
  ratioFamilies.flatMap (fun family =>
    [(family.text ++ "_ratio", (row.ratios.get family).ratio),
     (family.text ++ "_long", (row.ratios.get family).longComponent),
     (family.text ++ "_short", (row.ratios.get family).shortComponent),
     (family.text ++ "_ts_us", toString (row.ratios.get family).sourceTsUs)])

/-! ## One row per answered instrument -/

def gridUs : Int := 300000000

def floorToGridUs (pollTsUs : Int) : Except Exception Int :=
  if pollTsUs ≤ 0 then .error (.valueError ("poll_ts_us must be a positive instant, got " ++ toString pollTsUs))
  else .ok (pollTsUs - pollTsUs % gridUs)

/-- `str(row["symbol"])`, and the row. -/
def keyBySymbol (row : JsonObject) : Except Exception (String × JsonObject) := do
  let symbol ← Dict.item row "symbol"
  return (symbol.text, row)

/-- `index_by_symbol`: an object without a symbol raises, wanted or not. -/
def indexBySymbol (payload : List JsonObject) (wanted : List String) : Except Exception (Dict JsonObject) := do
  let keyed ← payload.mapM keyBySymbol
  return keyed.filter (fun item => wanted.contains item.1)

/-- `str(d.get(field, ""))`. -/
def fieldText (d : JsonObject) (field : String) : String :=
  match Dict.get? d field with
  | some value => value.text
  | none       => ""

/-- The body of the loop, past the `continue` of a pair that `premiumIndex` left out. -/
def buildRow (pollTsUs snapshotTsUs : Int) (openInterest : Dict JsonObject)
    (ratios : Dict (Families (Option (List JsonObject)))) (pair : String × String) (premium : JsonObject) :
    Except Exception PerpContext := do
  let interest := (Dict.get? openInterest pair.2).getD []
  let familyPayloads := Dict.get? ratios pair.2
  let nextFundingTimeUs ← millisToMicros (Dict.get? premium "nextFundingTime")
  let premiumIndexTsUs ← millisToMicros (Dict.get? premium "time")
  let openInterestTsUs ← millisToMicros (Dict.get? interest "time")
  let observations ← Families.build (fun family => latest family (familyPayloads.bind (fun p => p.get family)))
  return { instrumentId := pair.1, venueSymbol := pair.2, pollTsUs, snapshotTsUs
           markPrice := fieldText premium "markPrice", indexPrice := fieldText premium "indexPrice"
           estimatedSettlePrice := fieldText premium "estimatedSettlePrice"
           lastFundingRate := fieldText premium "lastFundingRate", interestRate := fieldText premium "interestRate"
           nextFundingTimeUs, premiumIndexTsUs, openInterest := fieldText interest "openInterest", openInterestTsUs
           ratios := observations }

def buildRows (pairs : List (String × String)) (premiumIndex : List JsonObject) (openInterest : Dict JsonObject)
    (ratios : Dict (Families (Option (List JsonObject)))) (pollTsUs : Int) : Except Exception (List PerpContext) := do
  let snapshotTsUs ← floorToGridUs pollTsUs
  let indexed ← indexBySymbol premiumIndex (pairs.map Prod.snd)
  let answered := pairs.filterMap (fun pair => (Dict.get? indexed pair.2).map (fun premium => (pair, premium)))
  answered.mapM (fun a => buildRow pollTsUs snapshotTsUs openInterest ratios a.1 a.2)

end Awsnative
