import RealtimeFinance.Awsnative.Classification
import RealtimeFinance.Awsnative.Pipeline
import RealtimeFinance.Lakehouse.Casts
import RealtimeFinance.Lakehouse.Flows
/-!
# BothStacks — one feed through `awsnative` and through `lakehouse`

The two pipelines restate one validity contract in two dialects.  They differ in the clock's bounds on the event, in the
texts that Spark trims, and in what Spark asks of names and sides, which a trade has; so the native Silver is within the
clean branch, row by row (`valid_iff_sound`) and over whole runs (`bothStacks`).
-/
namespace Lakehouse

open Awsnative (tradeRow Lake Statement)
open Runs Sql

/-! ## One trade -/

/-- A record of the topic that decodes. -/
structure Datum where
  trade : Ingest.Trade
  kafka : KafkaAudit
  ingestedAt : Int

/-- `decode_kafka_trades`, of what `to_avro` encodes. -/
def Datum.row (r : Datum) : BronzeTrade :=
  { venue := some r.trade.venue, venueSymbol := some r.trade.venueSymbol, instrumentId := some r.trade.instrumentId
    tradeId := some r.trade.tradeId, eventTsUs := some r.trade.eventTsUs, ingestTsUs := some r.trade.ingestTsUs
    price := some r.trade.price, size := some r.trade.size, side := some r.trade.side.text, sequence := r.trade.sequence
    isBackfill := some r.trade.isBackfill, source := some r.trade.source.text, kafka := r.kafka, ingestedAt := r.ingestedAt }

/-- No name is empty. -/
structure Named (t : Ingest.Trade) : Prop where
  venue : t.venue ≠ ""
  tradeId : t.tradeId ≠ ""
  instrumentId : t.instrumentId ≠ ""

/-- Spark trims neither amount. -/
def UntrimmedAmounts (t : Ingest.Trade) : Prop := Untrimmed t.price ∧ Untrimmed t.size

theorem present_some {text : String} (h : text ≠ "") : present (some text) = some true := by
  unfold present isNotNull Sql.compare
  simp [and3, h]

theorem positiveDecimal_iff {text : Option String} :
    positiveDecimal text = some true ↔ ∃ d, tryCastSparkDecimal 38 18 text = some d ∧ 0 < d.unscaled := by
  refine ⟨positiveDecimal_eq_true, ?_⟩
  rintro ⟨d, hd, hpos⟩
  unfold positiveDecimal
  rw [and3_eq_true, compare_eq_true, hd]
  exact ⟨rfl, d, 0, rfl, rfl, decide_eq_true hpos⟩

theorem validSide (now : Int) (r : Datum) : validWhen now r.row .badSide = some true := by
  unfold validWhen Datum.row
  cases r.trade.side <;> rfl

/-- **What the lakehouse asks of a named trade**, at any clock: its amounts are positive and its event is not too old. -/
theorem sound_row_iff {r : Datum} (h : Named r.trade) {e : Int} : Sound r.row e ↔
    (∃ d, tryCastSparkDecimal 38 18 (some r.trade.price) = some d ∧ 0 < d.unscaled) ∧
    (∃ d, tryCastSparkDecimal 38 18 (some r.trade.size) = some d ∧ 0 < d.unscaled) ∧
    r.trade.eventTsUs = e ∧ epochFloorUs ≤ e := by
  rw [← positiveDecimal_iff, ← positiveDecimal_iff]
  constructor
  · rintro ⟨hchecked, he, hfloor⟩
    exact ⟨hchecked .badPrice (by decide), hchecked .badSize (by decide), Option.some.inj he, hfloor⟩
  · rintro ⟨hprice, hsize, rfl, hfloor⟩
    refine ⟨fun reason hne => ?_, rfl, hfloor⟩
    cases reason with
    | decodeFailed => rfl
    | missingKey => exact (and3_eq_true _ _).2 ⟨present_some h.venue, present_some h.tradeId⟩
    | missingInstrument => exact present_some h.instrumentId
    | badTimestamp => exact absurd rfl hne
    | badPrice => exact hprice
    | badSize => exact hsize
    | badSide => exact validSide 0 r

/-- **The two contracts**: the native one is the lakehouse's, of untrimmed amounts, and a clock near enough. -/
theorem valid_iff_sound {r : Datum} (h : Named r.trade) (hfloor : epochFloorUs ≤ r.trade.eventTsUs) (ingestDate now : Int) :
    Awsnative.valid now (tradeRow ingestDate r.trade) = true ↔
      Sound r.row r.trade.eventTsUs ∧ UntrimmedAmounts r.trade ∧
        Awsnative.Within (tradeRow ingestDate r.trade) r.trade.eventTsUs now := by
  rw [Awsnative.validAt_iff, sound_row_iff h]
  unfold Awsnative.positiveAmounts Awsnative.Within UntrimmedAmounts
  constructor
  · rintro ⟨⟨⟨price, hprice⟩, size, hsize⟩, e, he, hwithin⟩
    cases he
    obtain ⟨hsprice, hpadp⟩ := (positive_cast_iff r.trade.price price).1 hprice
    obtain ⟨hssize, hpads⟩ := (positive_cast_iff r.trade.size size).1 hsize
    exact ⟨⟨⟨price, hsprice⟩, ⟨size, hssize⟩, rfl, hfloor⟩, ⟨hpadp, hpads⟩, hwithin⟩
  · rintro ⟨⟨⟨price, hprice⟩, ⟨size, hsize⟩, -, -⟩, ⟨hpadp, hpads⟩, hwithin⟩
    exact ⟨⟨⟨price, (positive_cast_iff r.trade.price price).2 ⟨hprice, hpadp⟩⟩,
      size, (positive_cast_iff r.trade.size size).2 ⟨hsize, hpads⟩⟩, _, rfl, hwithin⟩

/-! ## Over runs -/

/-- The columns that both Silvers have, `event_ts` and `ingest_ts` apart. -/
structure Agrees (s : Awsnative.SilverRow) (c : SilverTrade) : Prop where
  venue : c.venue = s.venue
  venueSymbol : c.venueSymbol = s.venueSymbol
  instrumentId : c.instrumentId = s.instrumentId
  tradeId : c.tradeId = s.tradeId
  eventTsUs : c.eventTsUs = s.eventTsUs
  ingestTsUs : c.ingestTsUs = s.ingestTsUs
  price : c.price = s.price
  size : c.size = s.size
  side : c.side = s.side
  source : c.source = s.source
  sequence : c.sequence = s.sequence
  isBackfill : c.isBackfill = s.isBackfill

variable (hexMd5 : String → String) {feed : List Datum} {run : List Statement}

/-- **The stream alone fills Silver, from the feed**: what the run's merges read of Bronze is of its trades, and no archive. -/
structure FromFeed (feed : List Datum) (run : List Statement) : Prop where
  reads : ∀ now lookbackDays bronze, Statement.mergeSilverTrades now lookbackDays bronze ∈ run → ∀ b ∈ bronze,
    ∃ r ∈ feed, ∃ ingestDate, b = tradeRow ingestDate r.trade
  noArchive : ∀ now staging, Statement.mergeSilverFromArchive now staging ∉ run

/-- What a Silver row came from. -/
theorem silver_origin (hfeed : FromFeed feed run) {s : Awsnative.SilverRow} (hs : s ∈ (Lake.empty.run hexMd5 run).silver) :
    ∃ now lookbackDays bronze, Statement.mergeSilverTrades now lookbackDays bronze ∈ run ∧ ∃ r ∈ feed, ∃ ingestDate,
      Awsnative.valid now (tradeRow ingestDate r.trade) = true ∧ Awsnative.silverOf (tradeRow ingestDate r.trade) = .ok s := by
  have hstep : ∀ (lake : Lake) (st : Statement) (s : Awsnative.SilverRow), s ∈ (lake.step hexMd5 st).silver →
      s ∈ lake.silver ∨ ∃ source, st.SilverSource source ∧ s ∈ source := by
    intro lake st s h
    rcases lake.step_silver hexMd5 st with ⟨source, hsource, -, -, hsilver⟩ | hperm
    · rw [hsilver] at h
      exact (List.mem_append.1 h).imp_right (fun h => ⟨source, hsource, (MergeInto.mem_inserted.1 h).1⟩)
    · exact Or.inl (hperm.mem_iff.1 h)
  have hgained := run_gained (A := fun (lake : Lake) s => s ∈ lake.silver) (N := fun _ st s => ∃ source, st.SilverSource source ∧ s ∈ source)
    hstep run hs
  rcases hgained with hempty | ⟨pre, st, post, rfl, source, hsource, hmem⟩
  · cases hempty
  · rcases hsource with ⟨now, lookbackDays, bronze, rfl, hmap⟩ | ⟨now, staging, rows, rfl, -⟩
    · obtain ⟨b, hb, hacc, hbs⟩ := Awsnative.accepted_of_mem_source hmap hmem
      have hst : Statement.mergeSilverTrades now lookbackDays bronze ∈ pre ++ .mergeSilverTrades now lookbackDays bronze :: post := by
        simp
      obtain ⟨r, hr, ingestDate, rfl⟩ := hfeed.reads now lookbackDays bronze hst b hb
      exact ⟨now, lookbackDays, bronze, hst, r, hr, ingestDate, ((Awsnative.accepted_iff now lookbackDays _).1 hacc).2, hbs⟩
    · exact absurd (List.mem_append_right pre List.mem_cons_self) (hfeed.noArchive now staging)

theorem silverOf_eq {b : Awsnative.BronzeRow} {price size : Option (Decimal 38 18)} (hprice : castDecimal 38 18 b.price = .ok price)
    (hsize : castDecimal 38 18 b.size = .ok size) : Awsnative.silverOf b = .ok
      { venue := b.venue, venueSymbol := b.venueSymbol, instrumentId := b.instrumentId, tradeId := b.tradeId
        eventTs := b.eventTsUs.map Awsnative.timestampOf, ingestTs := b.ingestTsUs.map Awsnative.timestampOf
        eventTsUs := b.eventTsUs, ingestTsUs := b.ingestTsUs, price, size, side := b.side, sequence := b.sequence
        isBackfill := b.isBackfill, source := b.source } := by
  unfold Awsnative.silverOf
  rw [hprice, hsize]
  rfl

/-- The Silver rows of a trade agree. -/
theorem agrees_of_valid {r : Datum} {ingestDate now : Int} (hvalid : Awsnative.valid now (tradeRow ingestDate r.trade) = true)
    {s : Awsnative.SilverRow} (hs : Awsnative.silverOf (tradeRow ingestDate r.trade) = .ok s) : Agrees s (silverTrade r.row) := by
  obtain ⟨⟨price, hprice, hpos⟩, ⟨size, hsize, hspos⟩, -⟩ := Awsnative.valid_casts hvalid
  have hspark := ((positive_cast_iff r.trade.price price).1 ⟨hprice, hpos⟩).1.1
  have hsparkSize := ((positive_cast_iff r.trade.size size).1 ⟨hsize, hspos⟩).1.1
  rw [silverOf_eq (castDecimal_eq_ok hprice) (castDecimal_eq_ok hsize), Except.ok.injEq] at hs
  rw [← hs]
  unfold silverTrade Datum.row
  simp only
  rw [hspark, hsparkSize]
  exact ⟨rfl, rfl, rfl, rfl, rfl, rfl, rfl, rfl, rfl, rfl, rfl, rfl⟩

theorem maxAge_le (source : Option String) : Awsnative.maxAge source * 1000 ≤ 730 * oneDayUs := by
  unfold Awsnative.maxAge oneDayUs millisPerDay
  split <;> omega

/-- **The clocks of the two stacks**: no batch of the lakehouse is behind a merge by more than a day less a minute, and no
merge is before 2019. -/
structure InStep (run : List Statement) (f : FlowRun (feed.map Datum.row)) : Prop where
  floor : ∀ now lookbackDays bronze, Statement.mergeSilverTrades now lookbackDays bronze ∈ run →
    epochFloorUs + 730 * oneDayUs ≤ now * 1000
  reads : ∀ now lookbackDays bronze, Statement.mergeSilverTrades now lookbackDays bronze ∈ run → ∀ b ∈ f.batches,
    now * 1000 + 60000000 ≤ b.now + oneDayUs

/-- **The native Silver is within the clean branch**, column for column; and what it lacks of that branch is only the trades
whose amounts Spark trims, and those that no merge read from a minute before their event to their source's age after it. -/
theorem bothStacks (f : FlowRun (feed.map Datum.row)) (hfeed : FromFeed feed run) (hnamed : ∀ r ∈ feed, Named r.trade)
    (hclocks : InStep run f) :
    (∀ s ∈ (Lake.empty.run hexMd5 run).silver, ∃ c ∈ tradesClean f, Agrees s c) ∧
    ∀ c ∈ tradesClean f, ∃ r ∈ feed, c = silverTrade r.row ∧ (UntrimmedAmounts r.trade →
      ∀ now lookbackDays bronze ingestDate, Statement.mergeSilverTrades now lookbackDays bronze ∈ run →
        tradeRow ingestDate r.trade ∈ bronze → Awsnative.inWindow now lookbackDays (tradeRow ingestDate r.trade) = true →
        Awsnative.Within (tradeRow ingestDate r.trade) r.trade.eventTsUs now →
        Awsnative.HeldInSilver (Lake.empty.run hexMd5 run) (c.venue, c.tradeId)) := by
  constructor
  · intro s hs
    obtain ⟨now, lookbackDays, bronze, hst, r, hr, ingestDate, hvalid, hrow⟩ := silver_origin hexMd5 hfeed hs
    obtain ⟨-, e, he, hahead, hage⟩ := (Awsnative.validAt_iff now _).1 hvalid
    have he : r.trade.eventTsUs = e := Option.some.inj he
    have hold := maxAge_le (tradeRow ingestDate r.trade).source
    have hnow := hclocks.floor now lookbackDays bronze hst
    obtain ⟨hsound, -, -⟩ := (valid_iff_sound (hnamed r hr) (by omega) ingestDate now).1 hvalid
    obtain ⟨i, hi⟩ := List.mem_iff_get.1 (List.mem_map_of_mem (f := Datum.row) hr)
    obtain ⟨t, hread⟩ := f.exists_readAt i
    have hkeeps : Keeps f i := by
      rw [keeps_iff f i hread, hi, quarantineReason_eq_none_iff_sound]
      refine ⟨r.trade.eventTsUs, hsound, ?_⟩
      obtain ⟨b, hb, -, rfl⟩ := hread
      have := hclocks.reads now lookbackDays bronze hst b hb
      omega
    refine ⟨silverTrade r.row, mem_tradesClean.2 ⟨i, by rw [hi], hkeeps⟩, agrees_of_valid hvalid hrow⟩
  · intro c hc
    obtain ⟨i, rfl, hkeeps⟩ := mem_tradesClean.1 hc
    obtain ⟨r, hr, hri⟩ := List.mem_map.1 (List.get_mem (feed.map Datum.row) i)
    obtain ⟨t, hread⟩ := f.exists_readAt i
    have hreason := (keeps_iff f i hread).1 hkeeps
    rw [← hri] at hreason ⊢
    obtain ⟨e, hsound, -⟩ := (quarantineReason_eq_none_iff_sound t r.row).1 hreason
    have he : r.trade.eventTsUs = e := Option.some.inj hsound.eventTsUs
    rw [← he] at hsound
    refine ⟨r, hr, rfl, fun huntrimmed now lookbackDays bronze ingestDate hst hmem hwindow hwithin => ?_⟩
    have hvalid := (valid_iff_sound (hnamed r hr) hsound.floor ingestDate now).2 ⟨hsound, huntrimmed, hwithin⟩
    obtain ⟨pre, post, hrun⟩ := List.append_of_mem hst
    rw [hrun]
    exact Awsnative.accepted_held hexMd5 hmem ((Awsnative.accepted_iff now lookbackDays _).2 ⟨hwindow, hvalid⟩)

/-! ## One trade through both -/

def bothDatum : Datum :=
  { trade := { venue := "binance", venueSymbol := "BTCUSDT", instrumentId := "BTC-USD", tradeId := "7"
               eventTsUs := 1728000600000000, ingestTsUs := 1728000600100000, price := "60000.5", size := "0.25", side := .buy
               sequence := some 7, isBackfill := false, source := .stream }
    kafka := decodedTrade.kafka
    ingestedAt := 1728000601000000 }

def bothRun : List Statement := [.mergeSilverTrades 1728000900000 1 [tradeRow 20000 bothDatum.trade]]

theorem bothFeed_pos : 0 < ([bothDatum].map Datum.row).length := Nat.one_pos

def bothFlow : FlowRun ([bothDatum].map Datum.row) :=
  { batches := [{ now := 1728000601000000, positions := [⟨0, bothFeed_pos⟩] }], readsOnce := List.Perm.refl _
    clocks := List.pairwise_singleton _ _ }

theorem bothStacks_bothRun :
    (∀ s ∈ (Lake.empty.run id bothRun).silver, ∃ c ∈ tradesClean bothFlow, Agrees s c) ∧
    ∀ c ∈ tradesClean bothFlow, ∃ r ∈ [bothDatum], c = silverTrade r.row ∧ (UntrimmedAmounts r.trade →
      ∀ now lookbackDays bronze ingestDate, Statement.mergeSilverTrades now lookbackDays bronze ∈ bothRun →
        tradeRow ingestDate r.trade ∈ bronze → Awsnative.inWindow now lookbackDays (tradeRow ingestDate r.trade) = true →
        Awsnative.Within (tradeRow ingestDate r.trade) r.trade.eventTsUs now →
        Awsnative.HeldInSilver (Lake.empty.run id bothRun) (c.venue, c.tradeId)) := by
  have hmerge : ∀ {now lookbackDays bronze}, Statement.mergeSilverTrades now lookbackDays bronze ∈ bothRun →
      now = 1728000900000 ∧ bronze = [tradeRow 20000 bothDatum.trade] := by
    intro now lookbackDays bronze hst
    cases List.mem_singleton.1 hst
    exact ⟨rfl, rfl⟩
  refine bothStacks id bothFlow ⟨?_, ?_⟩ ?_ ⟨?_, ?_⟩
  · intro now lookbackDays bronze hst b hb
    rw [(hmerge hst).2] at hb
    exact ⟨bothDatum, List.mem_singleton_self _, 20000, List.mem_singleton.1 hb⟩
  · intro now staging hst
    cases List.mem_singleton.1 hst
  · intro r hr
    rw [List.mem_singleton.1 hr]
    exact ⟨by decide, by decide, by decide⟩
  · intro now lookbackDays bronze hst
    rw [(hmerge hst).1]
    decide
  · intro now lookbackDays bronze hst b hb
    have hnow : b.now = 1728000601000000 := by
      cases hb with
      | head => rfl
      | tail _ h => cases h
    rw [(hmerge hst).1, hnow]
    decide

end Lakehouse
