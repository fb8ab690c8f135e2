import RealtimeFinance.Sql.Nullable
import RealtimeFinance.Sql.Instant
/-!
# Bronze — the stream table, its window, and `fragments/valid_trade.sql`

`bronze_trades_stream` as Firehose writes it: every payload column nullable, prices and sizes still text.  `schema_version`
is read by no statement and left out.  `ingest_date` is a projected partition and never NULL.

The validity contract is one expression, wrapped by both merges in `COALESCE(…, false)`: `accepted` is Silver's half of
the window and `rejected` quarantine's.  It reads the clock, so a row's half depends on when it is read: at a clock in
`[event − 1 minute, event + maxAge]` and at no other (`validAt_iff`).
-/
namespace Awsnative

open Sql

structure BronzeRow where
  venue : Option String
  venueSymbol : Option String
  instrumentId : Option String
  tradeId : Option String
  eventTsUs : Option Int
  ingestTsUs : Option Int
  price : Option String
  size : Option String
  side : Option String
  sequence : Option Int
  isBackfill : Option Bool
  source : Option String
  ingestDate : Int
  deriving DecidableEq

def BronzeRow.key (b : BronzeRow) : Option String × Option String := (b.venue, b.tradeId)

/-- A `(venue, trade_id)` without a NULL: what a predicate can find equal. -/
def fullKey (k : Option String × Option String) : Bool := k.1.isSome && k.2.isSome

/-- `b.ingest_date >= date_format(current_date - interval '${lookback_days}' day, '%Y-%m-%d')`. -/
def inWindow (now : Int) (lookbackDays : Nat) (b : BronzeRow) : Bool :=
  decide (currentDate now - lookbackDays ≤ b.ingestDate)

/-- The age the contract admits, in milliseconds: `CASE b.source WHEN 'STREAM' THEN 1 day ELSE 730 days`. -/
def maxAge (source : Option String) : Int :=
  if equals source (some "STREAM") = some true then millisPerDay else 730 * millisPerDay

def oldestEvent (now : Int) (source : Option String) : Int := toUnixMicros (now - maxAge source)

def newestEvent (now : Int) : Int := toUnixMicros (now + millisPerMinute)

def positive {p s : Nat} (d : Option (Decimal p s)) : Option Bool :=
  compare (fun x (y : Int) => decide (y < x.unscaled)) d (some 0)

/-- `fragments/valid_trade.sql`. -/
def validExpr (now : Int) (b : BronzeRow) : Option Bool :=
  and3 (positive (tryCastDecimal 38 18 b.price)) <|
  and3 (positive (tryCastDecimal 38 18 b.size)) <|
  and3 (compare (fun e (lo : Int) => decide (lo ≤ e)) b.eventTsUs (some (oldestEvent now b.source)))
    (compare (fun e (hi : Int) => decide (e ≤ hi)) b.eventTsUs (some (newestEvent now)))

/-- What a row is classified as: TRUE for Silver, anything else for quarantine. -/
def valid (now : Int) (b : BronzeRow) : Bool := coalesce (validExpr now b) false

def accepted (now : Int) (lookbackDays : Nat) (b : BronzeRow) : Bool := inWindow now lookbackDays b && valid now b

def rejected (now : Int) (lookbackDays : Nat) (b : BronzeRow) : Bool := inWindow now lookbackDays b && !valid now b

/-- **The part of the contract that does not read the clock**: price and size cast to positive decimals. -/
def positiveAmounts (b : BronzeRow) : Prop :=
  (∃ d, tryCastDecimal 38 18 b.price = some d ∧ 0 < d.unscaled) ∧
  (∃ d, tryCastDecimal 38 18 b.size = some d ∧ 0 < d.unscaled)

theorem positive_eq_true {p s : Nat} (d : Option (Decimal p s)) :
    positive d = some true ↔ ∃ x, d = some x ∧ 0 < x.unscaled := by
  unfold positive
  rw [compare_eq_true]
  constructor
  · rintro ⟨x, y, hx, hy, hlt⟩
    cases hy
    exact ⟨x, hx, of_decide_eq_true hlt⟩
  · rintro ⟨x, hx, hlt⟩
    exact ⟨x, 0, hx, rfl, decide_eq_true hlt⟩

theorem validExpr_eq_true (now : Int) (b : BronzeRow) :
    validExpr now b = some true ↔ positiveAmounts b ∧
      ∃ e, b.eventTsUs = some e ∧ oldestEvent now b.source ≤ e ∧ e ≤ newestEvent now := by
  unfold validExpr positiveAmounts
  rw [and3_eq_true, and3_eq_true, and3_eq_true, positive_eq_true, positive_eq_true, compare_eq_true, compare_eq_true]
  constructor
  · rintro ⟨hp, hs, ⟨e, lo, he, hlo, hle⟩, ⟨e', hi, he', hhi, hge⟩⟩
    rw [he] at he'
    cases he'
    cases hlo
    cases hhi
    exact ⟨⟨hp, hs⟩, e, he, of_decide_eq_true hle, of_decide_eq_true hge⟩
  · rintro ⟨⟨hp, hs⟩, e, he, hle, hge⟩
    exact ⟨hp, hs, ⟨e, _, he, rfl, decide_eq_true hle⟩, ⟨e, _, he, rfl, decide_eq_true hge⟩⟩

/-- **A row is valid at the clocks from a minute before its event to its source's age after it**, and at no other. -/
theorem validAt_iff (now : Int) (b : BronzeRow) :
    valid now b = true ↔ positiveAmounts b ∧
      ∃ e, b.eventTsUs = some e ∧ e - 60000000 ≤ now * 1000 ∧ now * 1000 ≤ e + maxAge b.source * 1000 := by
  unfold valid
  rw [coalesce_false, validExpr_eq_true]
  refine and_congr_right (fun _ => exists_congr (fun e => and_congr_right (fun _ => ?_)))
  unfold oldestEvent newestEvent toUnixMicros millisPerMinute
  omega

theorem valid_casts {now : Int} {b : BronzeRow} (h : valid now b = true) :
    (∃ d, tryCastDecimal 38 18 b.price = some d ∧ 0 < d.unscaled) ∧
    (∃ d, tryCastDecimal 38 18 b.size = some d ∧ 0 < d.unscaled) ∧ ∃ e, b.eventTsUs = some e := by
  obtain ⟨⟨hp, hs⟩, e, he, -⟩ := (validAt_iff now b).1 h
  exact ⟨hp, hs, e, he⟩

theorem accepted_iff (now : Int) (lookbackDays : Nat) (b : BronzeRow) :
    accepted now lookbackDays b = true ↔ inWindow now lookbackDays b = true ∧ valid now b = true := by
  simp [accepted]

theorem rejected_iff (now : Int) (lookbackDays : Nat) (b : BronzeRow) :
    rejected now lookbackDays b = true ↔ inWindow now lookbackDays b = true ∧ valid now b = false := by
  simp [rejected]

end Awsnative
