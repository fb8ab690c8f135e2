import RealtimeFinance.Awsnative.SilverKeys
import RealtimeFinance.Awsnative.GoldRebuild
/-!
# EventTime — the instant Silver stores, against the raw microseconds beside it

The seconds `from_unixtime` gets have one decimal digit, so `event_ts` is `event_ts_us` rounded to a tenth of a second
(`timestampOf_eq`).  A trade within a millisecond of a tenth keeps its instant, and its minute unless it rounds up into
the next (`eventTimeKept_iff`); a kline opens on a whole minute, which the rounding leaves alone.
-/
namespace Awsnative

open Sql Runs

theorem klineWindowEnd_aligned (e : Int) :
    klineWindowEnd (truncMinute e) = truncMinute e + microsPerMinute := by
  have hnear := timestampOf_near (truncMinute e)
  have heq := timestampOf_eq (truncMinute e)
  unfold klineWindowEnd truncMinute microsPerMinute at *
  omega

/-- The instants rounding keeps: under a millisecond past a tenth, or under one before it and not before a minute. -/
def OnTenth (e : Int) : Prop := e % 100000 < 1000 ∨ 99000 < e % 100000 ∧ e % 60000000 < 59900000

theorem onTenth_iff (e : Int) :
    (timestampOf e - e).natAbs < 1000 ∧ truncMinute (timestampOf e) = truncMinute e ↔ OnTenth e := by
  have hnear := timestampOf_near e
  have heq := timestampOf_eq e
  unfold truncMinute microsPerMinute OnTenth
  omega

variable (hexMd5 : String → String)

/-- **Every Silver row's `event_ts` is its `event_ts_us`, rounded.** -/
theorem silver_eventTs {run : List Statement} {s : SilverRow} (hs : s ∈ (Lake.empty.run hexMd5 run).silver) :
    s.eventTs = s.eventTsUs.map timestampOf := by
  obtain ⟨pre, st, post, hrun, hc, source, hsource, hmem⟩ := silver_kept hexMd5 hs
  rcases hsource with ⟨now, lookbackDays, bronze, rfl, hsource⟩ | ⟨now, staging, rows, rfl, hrows, rfl⟩
  · obtain ⟨b, -, -, hbs⟩ := accepted_of_mem_source hsource hmem
    obtain ⟨-, -, -, -, hus, hts⟩ := silverOf_ok hbs
    rw [hts, hus]
  · obtain ⟨a, -, has⟩ := (mapM_ok hrows).2 s (mem_of_mem_rowNumberOne _ _ hmem)
    obtain ⟨-, -, -, -, hts⟩ := archiveRow_ok has
    exact hts

/-- **The stored instant is the raw one to the millisecond**, in the bar and the kline of its minute. -/
structure EventTimeKept (s : SilverRow) (e : Int) : Prop where
  near : ∃ t, s.eventTs = some t ∧ (t - e).natAbs < 1000 ∧ truncMinute t = truncMinute e
  bar : s.barKey = (s.instrumentId, some ((e / 60000000 + 1) * 60000000))
  kline : ∀ now k g, klineRow now k = .ok (some (truncMinute e), g) → g.windowEndTs = s.barKey.2

/-- **A Silver row keeps its event time exactly when** that is within a millisecond of a tenth of a second which lies
in its minute. -/
theorem eventTimeKept_iff (run : List Statement) (s : SilverRow) (hs : s ∈ (Lake.empty.run hexMd5 run).silver) (e : Int)
    (he : s.eventTsUs = some e) : EventTimeKept s e ↔ OnTenth e := by
  have hts : s.eventTs = some (timestampOf e) := by
    rw [silver_eventTs hexMd5 hs, he]
    rfl
  rw [← onTenth_iff]
  constructor
  · rintro ⟨⟨t, ht, hnear, hminute⟩, -, -⟩
    rw [hts] at ht
    cases ht
    exact ⟨hnear, hminute⟩
  · rintro ⟨hnear, hminute⟩
    have hbar : s.barKey = (s.instrumentId, some (truncMinute e + microsPerMinute)) := by
      unfold SilverRow.barKey
      rw [hts, Option.map_some, hminute]
    refine ⟨⟨_, hts, hnear, hminute⟩, ?_, fun now k g hk => ?_⟩
    · rw [hbar]
      unfold truncMinute microsPerMinute
      rw [Int.add_mul, Int.one_mul]
    · obtain ⟨-, -, hwindow, -⟩ := klineRow_ok hk
      rw [hwindow, hbar, Option.map_some, klineWindowEnd_aligned]

def tenthTrade : BronzeRow := { keylessTrade with tradeId := some "9" }

def lateTrade : BronzeRow := { tenthTrade with eventTsUs := some 1728000659960000 }

def tenthRow : SilverRow :=
  { venue := some "binance", venueSymbol := some "BTCUSDT", instrumentId := some "BTC-USD", tradeId := some "9"
    eventTs := some 1728000600000000, ingestTs := some 1728000600100000, eventTsUs := some 1728000600000000
    ingestTsUs := some 1728000600100000, price := some ⟨60000500000000000000000, by decide⟩
    size := some ⟨250000000000000000, by decide⟩, side := some "BUY", sequence := some 1, isBackfill := some false
    source := some "STREAM" }

theorem eventTimeKept_iff_tenth :
    tenthRow ∈ (Lake.empty.run id [.mergeSilverTrades 1728000900000 1 [tenthTrade]]).silver ∧
      (EventTimeKept tenthRow 1728000600000000 ↔ OnTenth 1728000600000000) :=
  ⟨by decide, eventTimeKept_iff id [.mergeSilverTrades 1728000900000 1 [tenthTrade]] tenthRow (by decide) _ rfl⟩

/-- A trade of 00:10:59.96 is stored as one of 00:11:00, and counts in the next bar. -/
theorem late_trade_changes_minute :
    ¬ ∀ (hexMd5 : String → String) (run : List Statement), ∀ s ∈ (Lake.empty.run hexMd5 run).silver, ∀ e,
      s.eventTsUs = some e → EventTimeKept s e := by
  intro h
  have hlate := h id [.mergeSilverTrades 1728000900000 1 [lateTrade]]
    { tenthRow with eventTs := some 1728000660000000, eventTsUs := some 1728000659960000 } (by decide) _ rfl
  obtain ⟨t, ht, hnear, -⟩ := hlate.near
  cases ht
  exact absurd hnear (by decide)

end Awsnative
