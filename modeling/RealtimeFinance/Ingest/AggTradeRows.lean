import RealtimeFinance.Ingest.CoinbaseRows
import RealtimeFinance.Ingest.Repair
/-!
# AggTradeRows — what the rows of Binance's `repair` become, over any JSON

The id is converted before it is compared with the end of the gap, so a null id raises a `TypeError` in every answer; the
other fields are read of the rows below the end of the gap only.
-/
namespace Ingest

open Python

variable (isPrintable : Char → Bool) (instruments : InstrumentMap)

/-- `symbol or data["s"]`. -/
def repairedSymbol (gap : Gap) (row : JsonTree) : Option JsonTree :=
  if gap.venueSymbol.isEmpty then row.field "s" else some (.str gap.venueSymbol)

/-- **The trade that a row of a repair holds**: its id is a number below the one that the stream resumed at, its symbol is
mapped, its time is a number, its price and quantity are texts or numbers, and its `m` is a truth value. -/
def aggTradeOf (gap : Gap) (now : Int) (row : JsonTree) : Option Trade := do
  let id ← plainValue row "a"
  let aggTradeId ← id.toInt.toOption
  if gap.nextSeen ≤ aggTradeId then none
  else
    let venueSymbol ← (repairedSymbol gap row).bind JsonTree.asText
    let instrumentId ← instruments.canonical "binance" venueSymbol
    let tradeTime ← plainValue row "T"
    let tradeTimeMs ← tradeTime.toInt.toOption
    let price ← plainValue row "p"
    let size ← plainValue row "q"
    let buyerIsMaker ← (row.field "m").bind JsonTree.asBool
    return { venue := "binance", venueSymbol, instrumentId, tradeId := id.text isPrintable
             eventTsUs := tradeTimeMs * 1000, ingestTsUs := now, price := price.text isPrintable
             size := size.text isPrintable, side := if buyerIsMaker then .sell else .buy
             sequence := some aggTradeId, isBackfill := true, source := .restRepair }

/-- The id of a row is below the one that the stream resumed at. -/
def IsBelow (gap : Gap) (row : JsonTree) : Prop :=
  ∃ id n, row.field "a" = some id ∧ id.toInt = .ok n ∧ n < gap.nextSeen

/-- A row that takes its siblings with it: no object; or with an id that `int` breaks on; or below the gap's end, and with a
list or an object for a symbol, or mapped and with a time that `int` breaks on. -/
def AggTradeBreaks (gap : Gap) (row : JsonTree) : Prop :=
  ¬ row.IsObject ∨ (∃ id, row.field "a" = some id ∧ id.BreaksInt) ∨
    IsBelow gap row ∧ ((∃ symbol, repairedSymbol gap row = some symbol ∧ symbol.IsContainer) ∨
      IsMapped instruments "binance" (repairedSymbol gap row) ∧ ∃ time, row.field "T" = some time ∧ time.BreaksInt)

/-- A row that converts. -/
structure AggTradeConverts (gap : Gap) (row : JsonTree) : Prop where
  below : IsBelow gap row
  mapped : IsMapped instruments "binance" (repairedSymbol gap row)
  time : ((row.field "T").bind (fun time => time.toInt.toOption)).isSome
  price : (row.field "p").isSome
  size : (row.field "q").isSome
  buyerIsMaker : (row.field "m").isSome

/-- A row that does no harm. -/
def AggTradeSafe (gap : Gap) (row : JsonTree) : Prop :=
  ¬ AggTradeBreaks instruments gap row ∧ (AggTradeConverts instruments gap row →
    (∀ key ∈ ["a", "T", "p", "q"], ∀ value, row.field key = some value → value.IsPlain) ∧
      ∀ value, row.field "m" = some value → (value.asBool).isSome)

/-- What `_to_trade` reads of a row. -/
structure AggTradeFields where
  id : JsonTree
  aggTradeId : Int
  venueSymbol : String
  instrumentId : String
  tradeTime : JsonTree
  tradeTimeMs : Int
  price : JsonTree
  size : JsonTree
  buyerIsMaker : JsonTree

structure AggTradeFields.Read (f : AggTradeFields) (gap : Gap) (row : JsonTree) : Prop where
  id : row.field "a" = some f.id
  aggTradeId : f.id.toInt = .ok f.aggTradeId
  below : f.aggTradeId < gap.nextSeen
  symbol : repairedSymbol gap row = some (.str f.venueSymbol)
  canonical : instruments.canonical "binance" f.venueSymbol = some f.instrumentId
  tradeTime : row.field "T" = some f.tradeTime
  tradeTimeMs : f.tradeTime.toInt = .ok f.tradeTimeMs
  price : row.field "p" = some f.price
  size : row.field "q" = some f.size
  buyerIsMaker : row.field "m" = some f.buyerIsMaker

def AggTradeFields.trade (f : AggTradeFields) (now : Int) : Trade where
  venue := "binance"
  venueSymbol := f.venueSymbol
  instrumentId := f.instrumentId
  tradeId := f.id.text isPrintable
  eventTsUs := f.tradeTimeMs * 1000
  ingestTsUs := now
  price := f.price.text isPrintable
  size := f.size.text isPrintable
  side := if f.buyerIsMaker.isTrue then .sell else .buy
  sequence := some f.aggTradeId
  isBackfill := true
  source := .restRepair

variable {isPrintable instruments}

theorem symbolOr_eq_ok {gap : Gap} {row symbol : JsonTree} :
    symbolOr gap.venueSymbol row = .ok symbol ↔ repairedSymbol gap row = some symbol := by
  unfold symbolOr repairedSymbol
  split
  · exact JsonTree.item_eq_ok
  · rw [Except.ok.injEq, Option.some.injEq]

theorem not_escapes_symbolOr {gap : Gap} {row : JsonTree} (hobject : row.IsObject) :
    ¬ Escapes (symbolOr gap.venueSymbol row) := by
  unfold symbolOr
  split
  · rw [JsonTree.escapes_item]
    exact not_not_intro hobject
  · exact escapes_ok _

theorem escapes_binanceRowFields {source : Source} {now : Int} {row : JsonTree} {venueSymbol instrumentId : String}
    (hobject : row.IsObject) {id : JsonTree} {n : Int} (hid : row.field "a" = some id) (hn : id.toInt = .ok n) :
    Escapes (binanceRowFields isPrintable source now row venueSymbol instrumentId) ↔
      ∃ time, row.field "T" = some time ∧ time.BreaksInt := by
  have hint : ¬ id.BreaksInt := by
    rw [← JsonTree.escapes_toInt, hn]
    exact escapes_ok n
  unfold binanceRowFields
  simp only [escapes_bind, JsonTree.escapes_item, JsonTree.item_eq_ok, JsonTree.escapes_toInt, escapes_pure, hobject, hid,
    hint, Option.some.injEq, exists_eq_left', not_true_eq_false, false_or, or_false, and_false, exists_false]

/-- **A row takes its siblings with it exactly when it breaks.** -/
theorem escapes_aggTradeRowTrade {gap : Gap} {now : Int} {row : JsonTree} :
    Escapes (aggTradeRowTrade isPrintable instruments gap now row) ↔ AggTradeBreaks instruments gap row := by
  unfold aggTradeRowTrade AggTradeBreaks IsBelow
  simp only [escapes_bind, JsonTree.escapes_item, JsonTree.item_eq_ok, JsonTree.escapes_toInt]
  refine or_congr Iff.rfl ?_
  constructor
  · rintro ⟨id, hid, hbreaks | ⟨n, hn, hrest⟩⟩
    · exact Or.inl ⟨id, hid, hbreaks⟩
    split at hrest
    · exact absurd hrest (escapes_pure none)
    rename_i hbelow
    refine Or.inr ⟨⟨id, n, hid, hn, Int.not_le.1 hbelow⟩, ?_⟩
    have hobject := JsonTree.isObject_of_field hid
    rcases escapes_bind.1 hrest with hstep | ⟨symbol, hsymbol, hmapped⟩
    · exact absurd hstep (not_escapes_symbolOr hobject)
    rw [symbolOr_eq_ok] at hsymbol
    rcases escapes_mappedTrade.1 hmapped with hcontainer | ⟨venueSymbol, instrumentId, rfl, hcanonical, hfields⟩
    · exact Or.inl ⟨symbol, hsymbol, hcontainer⟩
    · exact Or.inr ⟨⟨venueSymbol, hsymbol, by rw [hcanonical]; rfl⟩, (escapes_binanceRowFields hobject hid hn).1 hfields⟩
  · rintro (⟨id, hid, hbreaks⟩ | ⟨⟨id, n, hid, hn, hbelow⟩, hrest⟩)
    · exact ⟨id, hid, Or.inl hbreaks⟩
    refine ⟨id, hid, Or.inr ⟨n, hn, ?_⟩⟩
    rw [if_neg (Int.not_le.2 hbelow)]
    rcases hrest with ⟨symbol, hsymbol, hcontainer⟩ | ⟨⟨s, hs, hcanonical⟩, hfields⟩
    · exact escapes_bind.2 (Or.inr ⟨symbol, symbolOr_eq_ok.2 hsymbol, escapes_mappedTrade.2 (Or.inl hcontainer)⟩)
    · obtain ⟨instrumentId, hinstrument⟩ := Option.isSome_iff_exists.1 hcanonical
      refine escapes_bind.2 (Or.inr ⟨.str s, symbolOr_eq_ok.2 hs, escapes_mappedTrade.2 (Or.inr ?_)⟩)
      exact ⟨s, instrumentId, rfl, hinstrument,
        (escapes_binanceRowFields (JsonTree.isObject_of_field hid) hid hn).2 hfields⟩

theorem aggTradeRowTrade_eq_ok {gap : Gap} {now : Int} {row : JsonTree} {trade : Trade} :
    aggTradeRowTrade isPrintable instruments gap now row = .ok (some trade) ↔
      ∃ f : AggTradeFields, f.Read instruments gap row ∧ f.trade isPrintable now = trade := by
  unfold aggTradeRowTrade
  constructor
  · intro h
    obtain ⟨id, hid, hreads⟩ := bind_eq_ok.1 h
    obtain ⟨n, hn, htests⟩ := bind_eq_ok.1 hreads
    split at htests
    · cases htests
    rename_i hbelow
    obtain ⟨symbol, hsymbol, hmapped⟩ := bind_eq_ok.1 htests
    obtain ⟨venueSymbol, instrumentId, rfl, hcanonical, hmade⟩ := mappedTrade_eq_ok.1 hmapped
    unfold binanceRowFields at hmade
    obtain ⟨tradeId, htradeId, hmade⟩ := bind_eq_ok.1 hmade
    obtain ⟨time, htime, hmade⟩ := bind_eq_ok.1 hmade
    obtain ⟨ms, hms, hmade⟩ := bind_eq_ok.1 hmade
    obtain ⟨price, hprice, hmade⟩ := bind_eq_ok.1 hmade
    obtain ⟨size, hsize, hmade⟩ := bind_eq_ok.1 hmade
    obtain ⟨maker, hmaker, hmade⟩ := bind_eq_ok.1 hmade
    obtain ⟨again, hagain, hmade⟩ := bind_eq_ok.1 hmade
    obtain ⟨number, hnumber, hmade⟩ := bind_eq_ok.1 hmade
    cases hmade
    rw [JsonTree.item_eq_ok] at hid htradeId htime hprice hsize hmaker hagain
    -- the id is read three times, and is the same each time
    rw [hid] at htradeId hagain
    cases htradeId
    cases hagain
    rw [hn] at hnumber
    cases hnumber
    exact ⟨⟨id, n, venueSymbol, instrumentId, time, ms, price, size, maker⟩,
      ⟨hid, hn, Int.not_le.1 hbelow, symbolOr_eq_ok.1 hsymbol, hcanonical, htime, hms, hprice, hsize, hmaker⟩, rfl⟩
  · rintro ⟨f, hread, rfl⟩
    refine bind_eq_ok.2 ⟨_, JsonTree.item_eq_ok.2 hread.id, ?_⟩
    refine bind_eq_ok.2 ⟨_, hread.aggTradeId, ?_⟩
    rw [if_neg (Int.not_le.2 hread.below)]
    refine bind_eq_ok.2 ⟨_, symbolOr_eq_ok.2 hread.symbol, ?_⟩
    refine mappedTrade_eq_ok.2 ⟨f.venueSymbol, f.instrumentId, rfl, hread.canonical, ?_⟩
    refine bind_eq_ok.2 ⟨_, JsonTree.item_eq_ok.2 hread.id, ?_⟩
    refine bind_eq_ok.2 ⟨_, JsonTree.item_eq_ok.2 hread.tradeTime, ?_⟩
    refine bind_eq_ok.2 ⟨_, hread.tradeTimeMs, ?_⟩
    refine bind_eq_ok.2 ⟨_, JsonTree.item_eq_ok.2 hread.price, ?_⟩
    refine bind_eq_ok.2 ⟨_, JsonTree.item_eq_ok.2 hread.size, ?_⟩
    refine bind_eq_ok.2 ⟨_, JsonTree.item_eq_ok.2 hread.buyerIsMaker, ?_⟩
    refine bind_eq_ok.2 ⟨_, JsonTree.item_eq_ok.2 hread.id, ?_⟩
    exact bind_eq_ok.2 ⟨_, hread.aggTradeId, rfl⟩

theorem aggTradeConverts_iff {gap : Gap} {row : JsonTree} :
    AggTradeConverts instruments gap row ↔ ∃ f : AggTradeFields, f.Read instruments gap row := by
  constructor
  · rintro ⟨⟨id, n, hid, hn, hbelow⟩, ⟨s, hs, hcanonical⟩, htime, hprice, hsize, hmaker⟩
    obtain ⟨instrumentId, hinstrument⟩ := Option.isSome_iff_exists.1 hcanonical
    obtain ⟨ms, hms⟩ := Option.isSome_iff_exists.1 htime
    obtain ⟨time, htime, hms⟩ := Option.bind_eq_some_iff.1 hms
    obtain ⟨price, hprice⟩ := Option.isSome_iff_exists.1 hprice
    obtain ⟨size, hsize⟩ := Option.isSome_iff_exists.1 hsize
    obtain ⟨maker, hmaker⟩ := Option.isSome_iff_exists.1 hmaker
    exact ⟨⟨id, n, s, instrumentId, time, ms, price, size, maker⟩, hid, hn, hbelow, hs, hinstrument, htime,
      toOption_eq_some.1 hms, hprice, hsize, hmaker⟩
  · rintro ⟨f, hread⟩
    refine ⟨⟨f.id, f.aggTradeId, hread.id, hread.aggTradeId, hread.below⟩, ⟨f.venueSymbol, hread.symbol, ?_⟩, ?_, ?_, ?_, ?_⟩
    · rw [hread.canonical]
      rfl
    · rw [hread.tradeTime, Option.bind_some, hread.tradeTimeMs]
      rfl
    · rw [hread.price]
      rfl
    · rw [hread.size]
      rfl
    · rw [hread.buyerIsMaker]
      rfl

/-- The kinds of what was read: texts or numbers, and a truth value. -/
structure AggTradeFields.IsPlain (f : AggTradeFields) : Prop where
  id : f.id.IsPlain
  tradeTime : f.tradeTime.IsPlain
  price : f.price.IsPlain
  size : f.size.IsPlain
  buyerIsMaker : f.buyerIsMaker.asBool.isSome

theorem asBool_eq_some {value : JsonTree} {b : Bool} : value.asBool = some b ↔ value = .bool b := by
  cases value <;> simp [JsonTree.asBool]

/-- **The trade that a row holds is the one that is made of it, of fields of these kinds.** -/
theorem aggTradeOf_eq_some {gap : Gap} {now : Int} {row : JsonTree} {trade : Trade} :
    aggTradeOf isPrintable instruments gap now row = some trade ↔
      ∃ f : AggTradeFields, f.Read instruments gap row ∧ f.IsPlain ∧ f.trade isPrintable now = trade := by
  unfold aggTradeOf
  constructor
  · intro h
    obtain ⟨id, hid, h⟩ := Option.bind_eq_some_iff.1 h
    obtain ⟨n, hn, h⟩ := Option.bind_eq_some_iff.1 h
    split at h
    · cases h
    rename_i hbelow
    obtain ⟨venueSymbol, hsymbol, h⟩ := Option.bind_eq_some_iff.1 h
    obtain ⟨instrumentId, hinstrument, h⟩ := Option.bind_eq_some_iff.1 h
    obtain ⟨time, htime, h⟩ := Option.bind_eq_some_iff.1 h
    obtain ⟨ms, hms, h⟩ := Option.bind_eq_some_iff.1 h
    obtain ⟨price, hprice, h⟩ := Option.bind_eq_some_iff.1 h
    obtain ⟨size, hsize, h⟩ := Option.bind_eq_some_iff.1 h
    obtain ⟨b, hb, h⟩ := Option.bind_eq_some_iff.1 h
    cases h
    obtain ⟨symbol, hsymbol, hasText⟩ := Option.bind_eq_some_iff.1 hsymbol
    obtain ⟨maker, hmaker, hasBool⟩ := Option.bind_eq_some_iff.1 hb
    rw [JsonTree.asText_eq_some.1 hasText] at hsymbol
    obtain ⟨hid, hplainId⟩ := plainValue_eq_some.1 hid
    obtain ⟨htime, hplainTime⟩ := plainValue_eq_some.1 htime
    obtain ⟨hprice, hplainPrice⟩ := plainValue_eq_some.1 hprice
    obtain ⟨hsize, hplainSize⟩ := plainValue_eq_some.1 hsize
    refine ⟨⟨id, n, venueSymbol, instrumentId, time, ms, price, size, maker⟩,
      ⟨hid, toOption_eq_some.1 hn, Int.not_le.1 hbelow, hsymbol, hinstrument, htime, toOption_eq_some.1 hms, hprice, hsize,
        hmaker⟩, ⟨hplainId, hplainTime, hplainPrice, hplainSize, by rw [hasBool]; rfl⟩, ?_⟩
    rw [AggTradeFields.trade, asBool_eq_some.1 hasBool]
    rfl
  · rintro ⟨f, hread, hplain, rfl⟩
    obtain ⟨b, hb⟩ := Option.isSome_iff_exists.1 hplain.buyerIsMaker
    refine Option.bind_eq_some_iff.2 ⟨_, plainValue_eq_some.2 ⟨hread.id, hplain.id⟩, ?_⟩
    refine Option.bind_eq_some_iff.2 ⟨_, toOption_eq_some.2 hread.aggTradeId, ?_⟩
    rw [if_neg (Int.not_le.2 hread.below)]
    refine Option.bind_eq_some_iff.2 ⟨f.venueSymbol, by rw [hread.symbol]; rfl, ?_⟩
    refine Option.bind_eq_some_iff.2 ⟨f.instrumentId, hread.canonical, ?_⟩
    refine Option.bind_eq_some_iff.2 ⟨_, plainValue_eq_some.2 ⟨hread.tradeTime, hplain.tradeTime⟩, ?_⟩
    refine Option.bind_eq_some_iff.2 ⟨_, toOption_eq_some.2 hread.tradeTimeMs, ?_⟩
    refine Option.bind_eq_some_iff.2 ⟨_, plainValue_eq_some.2 ⟨hread.price, hplain.price⟩, ?_⟩
    refine Option.bind_eq_some_iff.2 ⟨_, plainValue_eq_some.2 ⟨hread.size, hplain.size⟩, ?_⟩
    refine Option.bind_eq_some_iff.2 ⟨b, by rw [hread.buyerIsMaker]; exact hb, ?_⟩
    rw [AggTradeFields.trade, asBool_eq_some.1 hb]
    rfl

theorem holds_aggTrade (gap : Gap) :
    Holds (aggTradeRowTrade isPrintable instruments gap) (aggTradeOf isPrintable instruments gap) := by
  intro now row trade h
  obtain ⟨f, hread, -, htrade⟩ := aggTradeOf_eq_some.1 h
  exact aggTradeRowTrade_eq_ok.2 ⟨f, hread, htrade⟩

/-- **A row is contained exactly when it does no harm.** -/
theorem contained_aggTrade_iff (gap : Gap) (now : Int) (row : JsonTree) :
    Contained (aggTradeRowTrade isPrintable instruments gap) (aggTradeOf isPrintable instruments gap) now row ↔
      AggTradeSafe instruments gap row := by
  unfold Contained AggTradeSafe
  rw [escapes_aggTradeRowTrade, aggTradeConverts_iff]
  refine and_congr Iff.rfl ?_
  constructor
  · rintro hholds ⟨f, hread⟩
    have htrade := hholds _ (aggTradeRowTrade_eq_ok.2 ⟨f, hread, rfl⟩)
    obtain ⟨f', hread', hplain, -⟩ := aggTradeOf_eq_some.1 htrade
    refine ⟨fun key hkey value hvalue => ?_, fun value hvalue => ?_⟩
    · simp only [List.mem_cons, List.not_mem_nil, or_false] at hkey
      rcases hkey with rfl | rfl | rfl | rfl
      · rw [hread'.id] at hvalue
        cases hvalue
        exact hplain.id
      · rw [hread'.tradeTime] at hvalue
        cases hvalue
        exact hplain.tradeTime
      · rw [hread'.price] at hvalue
        cases hvalue
        exact hplain.price
      · rw [hread'.size] at hvalue
        cases hvalue
        exact hplain.size
    · rw [hread'.buyerIsMaker] at hvalue
      cases hvalue
      exact hplain.buyerIsMaker
  · intro hplain trade htrade
    obtain ⟨f, hread, htrade⟩ := aggTradeRowTrade_eq_ok.1 htrade
    obtain ⟨hfields, hmaker⟩ := hplain ⟨f, hread⟩
    exact aggTradeOf_eq_some.2 ⟨f, hread, ⟨hfields "a" (by simp) _ hread.id, hfields "T" (by simp) _ hread.tradeTime,
      hfields "p" (by simp) _ hread.price, hfields "q" (by simp) _ hread.size, hmaker _ hread.buyerIsMaker⟩, htrade⟩

/-! ## The venue's rows -/

/-- A row of `/api/v3/aggTrades`. -/
def AggTrade.json (data : AggTrade) : JsonTree :=
  .object [("a", .int data.aggTradeId), ("p", .str data.price), ("q", .str data.quantity), ("T", .int data.tradeTimeMs),
    ("m", .bool data.buyerIsMaker)]

/-- **On the venue's rows, the loop gives what the repairs give.** -/
theorem aggTradeRowTrade_json (gap : Gap) (now : Int) (data : AggTrade) :
    passOver (aggTradeRowTrade isPrintable instruments gap now data.json) =
      .ok (repairedTrade instruments gap now (.aggTrade data)) := by
  have hid : data.json.item "a" = .ok (.int data.aggTradeId) := rfl
  have hmodel : repairedTrade instruments gap now (.aggTrade data) = if gap.nextSeen ≤ data.aggTradeId then none
      else if gap.venueSymbol.isEmpty then none
      else toTrade instruments now (some gap.venueSymbol) .restRepair data := rfl
  rw [hmodel]
  unfold aggTradeRowTrade binanceRowTrade mappedTrade symbolOr
  rw [hid]
  show passOver (if gap.nextSeen ≤ data.aggTradeId then .ok none else _) = _
  by_cases hpast : gap.nextSeen ≤ data.aggTradeId
  · rw [if_pos hpast, if_pos hpast]
    rfl
  · rw [if_neg hpast, if_neg hpast]
    by_cases hempty : gap.venueSymbol.isEmpty = true
    · rw [if_pos hempty, if_pos hempty]
      rfl
    · rw [if_neg hempty, if_neg hempty]
      unfold toTrade
      simp only [bind, Except.bind, canonicalOf, Option.getD_some, hempty, Bool.false_eq_true, if_false]
      cases instruments.canonical "binance" gap.venueSymbol with
      | none => rfl
      | some instrumentId => rfl

end Ingest
