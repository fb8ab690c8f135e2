import RealtimeFinance.Awsnative.KinesisExactlyOnce
import RealtimeFinance.Awsnative.SilverKeys
import RealtimeFinance.Awsnative.WireFormat
/-!
# Pipeline — a trade from the producer's sink to Silver

The sink's calls, deliveries of stream records to Bronze and merges into Silver, in any order.  A delivery converts each
document to a row of the stream table and may repeat what an earlier one delivered.  Silver then has nothing that was not
produced, no key twice, and every trade that was delivered and is accepted where a merge reads it (`pipeline_exactlyOnce`).
-/
namespace Awsnative

open Ingest Python Runs Sql

/-! ## A document as a row -/

section Columns

variable (fields : List (String × JsonTree))

def textColumn (name : String) : Option String := (Dict.get? fields name).bind JsonTree.asText

def bigintColumn (name : String) : Option Int :=
  (Dict.get? fields name).bind (fun value => match value with
    | .int n => some n
    | _      => none)

def booleanColumn (name : String) : Option Bool := (Dict.get? fields name).bind JsonTree.asBool

end Columns

/-- A conversion that reads the document and takes a column for each name that the table has. -/
def columnsOf (ingestDate : Int) (data : String) : Option BronzeRow :=
  match loads data.toList with
  | some (.object fields) =>
    some { venue := textColumn fields "venue", venueSymbol := textColumn fields "venue_symbol"
           instrumentId := textColumn fields "instrument_id", tradeId := textColumn fields "trade_id"
           eventTsUs := bigintColumn fields "event_ts_us", ingestTsUs := bigintColumn fields "ingest_ts_us"
           price := textColumn fields "price", size := textColumn fields "size", side := textColumn fields "side"
           sequence := bigintColumn fields "sequence", isBackfill := booleanColumn fields "is_backfill"
           source := textColumn fields "source", ingestDate }
  | _ => none

/-- The row of a trade. -/
def tradeRow (ingestDate : Int) (t : Trade) : BronzeRow :=
  { venue := some t.venue, venueSymbol := some t.venueSymbol, instrumentId := some t.instrumentId, tradeId := some t.tradeId
    eventTsUs := some t.eventTsUs, ingestTsUs := some t.ingestTsUs, price := some t.price, size := some t.size
    side := some t.side.text, sequence := t.sequence, isBackfill := some t.isBackfill, source := some t.source.text
    ingestDate }

theorem loads_encodeTrade (t : Trade) : loads (encodeTrade t).toList = some (.object (tradeFields t)) := by
  have h := (encodeTrade_document t).1 []
  rwa [List.append_nil] at h

/-- What the delivery stream is relied on for: the record of a trade becomes the row of the trade. -/
def Converts (bronzeOf : Int → String → Option BronzeRow) : Prop :=
  ∀ ingestDate t, bronzeOf ingestDate (recordOf t).data = some (tradeRow ingestDate t)

theorem columnsOf_converts : Converts columnsOf := by
  intro ingestDate t
  have hsequence : bigintColumn (tradeFields t) "sequence" = t.sequence := by
    cases h : t.sequence <;> simp [bigintColumn, tradeFields, Dict.get?, h]
  have hrest : columnsOf ingestDate (recordOf t).data =
      some { tradeRow ingestDate t with sequence := bigintColumn (tradeFields t) "sequence" } := by
    show columnsOf ingestDate (encodeTrade t) = _
    rw [columnsOf, loads_encodeTrade]
    rfl
  rw [hrest, hsequence]
  rfl

/-! ## Runs -/

structure Pipeline where
  stream : TrackedRun
  bronze : List BronzeRow
  lake : Lake

def Pipeline.start : Pipeline := { stream := TrackedRun.start, bronze := [], lake := Lake.empty }

inductive PipelineEvent
  | call (c : SinkCall)
  /-- Records by their place in the stream, to the partition of a day. -/
  | deliver (places : List Nat) (ingestDate : Int)
  /-- `merge_silver_trades.sql`, with the order in which it scans Bronze. -/
  | merge (now : Int) (lookbackDays : Nat) (scan : List BronzeRow)
  | optimize (rewritten : List SilverRow)

def PipelineEvent.trade : PipelineEvent → Option Trade
  | .call (.produce _ t) => some t
  | _                    => none

/-- The trades produced in a run. -/
def tradesOf (es : List PipelineEvent) : List Trade := es.filterMap PipelineEvent.trade

section Runs

variable (config : SinkConfig) (client : Client) (hexMd5 : String → String) (bronzeOf : Int → String → Option BronzeRow)

def Pipeline.delivered (p : Pipeline) (places : List Nat) (ingestDate : Int) : List BronzeRow :=
  places.filterMap (fun place => (p.stream.accepted[place]?).bind (fun r => bronzeOf ingestDate r.1.data))

/-- What a merge scans. -/
def Pipeline.scanned (p : Pipeline) (scan : List BronzeRow) : List BronzeRow := if scan.isPerm p.bronze then scan else p.bronze

def Pipeline.step (p : Pipeline) : PipelineEvent → Pipeline
  | .call c                      => { p with stream := p.stream.step config client c }
  | .deliver places ingestDate   => { p with bronze := p.bronze ++ p.delivered bronzeOf places ingestDate }
  | .merge now lookbackDays scan =>
    { p with lake := p.lake.step hexMd5 (.mergeSilverTrades now lookbackDays (p.scanned scan)) }
  | .optimize rewritten          => { p with lake := p.lake.step hexMd5 (.optimizeSilverTrades rewritten) }

def Pipeline.run (es : List PipelineEvent) : Pipeline := es.foldl (Pipeline.step config client hexMd5 bronzeOf) Pipeline.start

/-- The trade that a Silver row is of. -/
def SilverRowOf (t : Trade) (s : SilverRow) : Prop := ∃ ingestDate, silverOf (tradeRow ingestDate t) = .ok s

/-- **Where everything came from**, and no key twice. -/
structure Pipeline.Sound (trades : List Trade) (p : Pipeline) : Prop where
  traced : p.stream.Traced
  produced : p.stream.run.produced = trades.map recordOf
  bronze : ∀ b ∈ p.bronze, ∃ t ∈ trades, ∃ ingestDate, b = tradeRow ingestDate t
  silver : ∀ s ∈ p.lake.silver, ∃ t ∈ trades, SilverRowOf t s
  unique : UniqueKeys SilverRow.key fullKey p.lake.silver

variable {config client hexMd5 bronzeOf} {trades : List Trade} {p : Pipeline}

theorem Pipeline.mem_scanned {scan : List BronzeRow} {b : BronzeRow} : b ∈ p.scanned scan ↔ b ∈ p.bronze := by
  unfold Pipeline.scanned
  split
  · rename_i h
    exact (List.isPerm_iff.1 h).mem_iff
  · rfl

/-- What the stream has taken is of a trade. -/
theorem Pipeline.Sound.of_accepted (hp : p.Sound trades) {r : KinesisRecord × Nat} (hr : r ∈ p.stream.accepted) :
    ∃ t ∈ trades, recordOf t = r.1 := by
  have hmem : r.1 ∈ p.stream.run.produced := by
    have hbefore := List.mem_of_mem_take (hp.traced.before r hr)
    rw [← List.zipIdx_map_fst 0 p.stream.run.produced]
    exact List.mem_map_of_mem hbefore
  rw [hp.produced] at hmem
  exact List.mem_map.1 hmem

theorem Pipeline.Sound.start : Pipeline.start.Sound [] where
  traced := traced_start
  produced := rfl
  bronze b hb := by cases hb
  silver s hs := by cases hs
  unique := List.Pairwise.nil

/-- More trades produced leave what came of the others. -/
theorem SilverRowOf.mono {trades' : List Trade} (hsub : ∀ t ∈ trades, t ∈ trades') {s : SilverRow}
    (h : ∃ t ∈ trades, SilverRowOf t s) : ∃ t ∈ trades', SilverRowOf t s := by
  obtain ⟨t, ht, hrow⟩ := h
  exact ⟨t, hsub t ht, hrow⟩

/-- A call produces its trade, or nothing. -/
theorem produced_step (t : TrackedRun) (c : SinkCall) :
    (t.step config client c).run.produced = t.run.produced ++ (PipelineEvent.call c).trade.toList.map recordOf := by
  cases c with
  | produce topic trade => rfl
  | poll => exact (List.append_nil _).symm
  | flush => exact (List.append_nil _).symm

theorem Pipeline.Sound.step (hconverts : Converts bronzeOf) (hp : p.Sound trades) (e : PipelineEvent) :
    (p.step config client hexMd5 bronzeOf e).Sound (trades ++ e.trade.toList) := by
  cases e with
  | call c =>
    refine ⟨hp.traced.step config client c, ?_, fun b hb => ?_, fun s hs => ?_, hp.unique⟩
    · show (p.stream.step config client c).run.produced = _
      rw [produced_step, hp.produced, List.map_append]
    · obtain ⟨t, ht, hrow⟩ := hp.bronze b hb
      exact ⟨t, List.mem_append_left _ ht, hrow⟩
    · exact SilverRowOf.mono (fun t ht => List.mem_append_left _ ht) (hp.silver s hs)
  | deliver places ingestDate =>
    rw [show (PipelineEvent.deliver places ingestDate).trade.toList = [] from rfl, List.append_nil]
    refine ⟨hp.traced, hp.produced, fun b hb => ?_, hp.silver, hp.unique⟩
    rcases List.mem_append.1 hb with hb | hb
    · exact hp.bronze b hb
    · obtain ⟨place, -, hplace⟩ := List.mem_filterMap.1 hb
      obtain ⟨r, hr, hrow⟩ := Option.bind_eq_some_iff.1 hplace
      obtain ⟨t, ht, hrecord⟩ := hp.of_accepted (List.mem_of_getElem? hr)
      rw [← hrecord, hconverts, Option.some.injEq] at hrow
      exact ⟨t, ht, ingestDate, hrow.symm⟩
  | merge now lookbackDays scan =>
    rw [show (PipelineEvent.merge now lookbackDays scan).trade.toList = [] from rfl, List.append_nil]
    refine ⟨hp.traced, hp.produced, hp.bronze, fun s hs => ?_, uniqueKeys_step hexMd5 hp.unique _⟩
    obtain ⟨source, hsource, -, -, hsilver⟩ := p.lake.step_mergeSilverTrades hexMd5 now lookbackDays (p.scanned scan)
    have hs : s ∈ (p.lake.step hexMd5 (.mergeSilverTrades now lookbackDays (p.scanned scan))).silver := hs
    rw [hsilver] at hs
    rcases List.mem_append.1 hs with hs | hs
    · exact hp.silver s hs
    · obtain ⟨b, hb, -, hbs⟩ := accepted_of_mem_source hsource (MergeInto.mem_inserted.1 hs).1
      obtain ⟨t, ht, ingestDate, rfl⟩ := hp.bronze b (Pipeline.mem_scanned.1 hb)
      exact ⟨t, ht, ingestDate, hbs⟩
  | optimize rewritten =>
    rw [show (PipelineEvent.optimize rewritten).trade.toList = [] from rfl, List.append_nil]
    have hperm : (p.lake.step hexMd5 (.optimizeSilverTrades rewritten)).silver.Perm p.lake.silver :=
      p.lake.step_silver_perm hexMd5 (fun _ _ _ h => by cases h) (fun _ _ h => by cases h)
    exact ⟨hp.traced, hp.produced, hp.bronze, fun s hs => hp.silver s (hperm.mem_iff.1 hs),
      uniqueKeys_step hexMd5 hp.unique _⟩

theorem Pipeline.Sound.foldl (hconverts : Converts bronzeOf) : ∀ (es : List PipelineEvent) {trades : List Trade}
    {p : Pipeline}, p.Sound trades →
    (es.foldl (Pipeline.step config client hexMd5 bronzeOf) p).Sound (trades ++ tradesOf es)
  | [], trades, p, hp      => by rwa [tradesOf, List.filterMap_nil, List.append_nil]
  | e :: es, trades, p, hp => by
    have hstep : (p.step config client hexMd5 bronzeOf e).Sound (trades ++ e.trade.toList) :=
      hp.step hconverts e
    have hrest := hstep.foldl hconverts es
    rw [List.append_assoc] at hrest
    have htrades : tradesOf (e :: es) = e.trade.toList ++ tradesOf es := by
      unfold tradesOf
      rw [List.filterMap_cons]
      cases e.trade <;> rfl
    rw [htrades]
    exact hrest

/-- **The invariant of a run.** -/
theorem Pipeline.Sound.run (hconverts : Converts bronzeOf) (es : List PipelineEvent) :
    (Pipeline.run config client hexMd5 bronzeOf es).Sound (tradesOf es) := by
  have h : (Pipeline.run config client hexMd5 bronzeOf es).Sound ([] ++ tradesOf es) :=
    Pipeline.Sound.foldl hconverts es Pipeline.Sound.start
  rwa [List.nil_append] at h

/-- Silver keeps what it has. -/
theorem Pipeline.mem_foldl_silver {s : SilverRow} : ∀ (es : List PipelineEvent) {p : Pipeline}, s ∈ p.lake.silver →
    s ∈ (es.foldl (Pipeline.step config client hexMd5 bronzeOf) p).lake.silver
  | [], _, h      => h
  | e :: es, p, h => by
    refine Pipeline.mem_foldl_silver es ?_
    cases e with
    | call c => exact h
    | deliver places ingestDate => exact h
    | merge now lookbackDays scan => exact Lake.mem_step_silver hexMd5 h
    | optimize rewritten => exact Lake.mem_step_silver hexMd5 h

/-- **A merge adds every accepted row** that Silver has no row of yet. -/
theorem Pipeline.merge_covers {now : Int} {lookbackDays : Nat} {scan : List BronzeRow} {b : BronzeRow} (hb : b ∈ p.bronze)
    (haccepted : accepted now lookbackDays b = true) :
    ∃ s ∈ (p.step config client hexMd5 bronzeOf (.merge now lookbackDays scan)).lake.silver, s.key = b.key := by
  obtain ⟨source, hsource, -, hcommits, -⟩ := p.lake.step_mergeSilverTrades hexMd5 now lookbackDays (p.scanned scan)
  obtain ⟨s, hs, hkey⟩ := source_of_accepted hsource (Pipeline.mem_scanned.2 hb) haccepted
  obtain ⟨t, ht, htkey⟩ := Lake.step_covers hexMd5 (Or.inl ⟨now, lookbackDays, p.scanned scan, rfl, hsource⟩) hcommits hs
  exact ⟨t, ht, htkey.trans hkey⟩

theorem silver_key_full {s : SilverRow} {t : Trade} (h : SilverRowOf t s) : s.key = (some t.venue, some t.tradeId) := by
  obtain ⟨ingestDate, hrow⟩ := h
  exact silverOf_key hrow

/-! ## End to end -/

variable (config client) in
/-- No call raises. -/
def Pipeline.Quiet (p : Pipeline) (e : PipelineEvent) : Prop :=
  ∀ c, e = .call c → (p.stream.run.result config client c).isOk = true

variable (bronzeOf) in
/-- Every record that the stream has taken is in Bronze. -/
def Pipeline.AllDelivered (p : Pipeline) : Prop :=
  ∀ r ∈ p.stream.accepted, ∃ ingestDate, ∃ b ∈ p.bronze, bronzeOf ingestDate r.1.data = some b

/-- In a run without a call that raises, each record is buffered or taken once. -/
theorem Pipeline.once {es : List PipelineEvent}
    (hquiet : AllSteps (Pipeline.step config client hexMd5 bronzeOf) (Pipeline.Quiet config client) Pipeline.start es) :
    (Pipeline.run config client hexMd5 bronzeOf es).stream.Once := by
  have hstep : ∀ (p : Pipeline) (e : PipelineEvent), p.stream.Traced ∧ p.stream.Once → p.Quiet config client e →
      (p.step config client hexMd5 bronzeOf e).stream.Traced ∧ (p.step config client hexMd5 bronzeOf e).stream.Once := by
    intro p e hp he
    cases e with
    | call c => exact ⟨hp.1.step config client c, hp.2.step config client hp.1 (he c rfl)⟩
    | deliver places ingestDate => exact hp
    | merge now lookbackDays scan => exact hp
    | optimize rewritten => exact hp
  have hstart : Pipeline.start.stream.Traced ∧ Pipeline.start.stream.Once := ⟨traced_start, List.Perm.refl _⟩
  have hrun : ∀ (es : List PipelineEvent) {p : Pipeline}, p.stream.Traced ∧ p.stream.Once →
      AllSteps (Pipeline.step config client hexMd5 bronzeOf) (Pipeline.Quiet config client) p es →
      (es.foldl (Pipeline.step config client hexMd5 bronzeOf) p).stream.Once := by
    intro es
    induction es with
    | nil => exact fun hp _ => hp.2
    | cons e es ih =>
      intro p hp h
      obtain ⟨he, hrest⟩ := (allSteps_cons p e es).1 h
      exact ih (hstep p e hp he) hrest
  exact hrun es hstart hquiet

/-- **Nothing is lost on the way to Bronze**: where each record was buffered or taken once, nothing is buffered and all is
delivered, every trade has its row. -/
theorem Pipeline.Sound.bronze_complete (hconverts : Converts bronzeOf) (hp : p.Sound trades) (honce : p.stream.Once)
    (hempty : p.stream.run.sink.buffer = []) (hdelivered : p.AllDelivered bronzeOf) {t : Trade} (ht : t ∈ trades) :
    ∃ ingestDate, tradeRow ingestDate t ∈ p.bronze := by
  have hbuffered : p.stream.run.buffered = [] := by
    refine List.eq_nil_of_length_eq_zero ?_
    rw [length_buffered hp.traced.buffer, hempty, List.length_nil]
  unfold TrackedRun.Once at honce
  rw [hbuffered, List.append_nil] at honce
  have hrecord : recordOf t ∈ p.stream.run.produced := by
    rw [hp.produced]
    exact List.mem_map_of_mem ht
  rw [← List.zipIdx_map_fst 0 p.stream.run.produced, List.mem_map] at hrecord
  obtain ⟨r, hr, hdata⟩ := hrecord
  obtain ⟨ingestDate, b, hb, hrow⟩ := hdelivered r (honce.mem_iff.2 hr)
  rw [hdata, hconverts, Option.some.injEq] at hrow
  exact ⟨ingestDate, hrow ▸ hb⟩

/-- Every Silver row has its whole key, so none is there twice. -/
theorem Pipeline.Sound.nodup (hp : p.Sound trades) : (p.lake.silver.map SilverRow.key).Nodup := by
  have hfull : ∀ s ∈ p.lake.silver, fullKey s.key = true := by
    intro s hs
    obtain ⟨t, -, hrow⟩ := hp.silver s hs
    rw [silver_key_full hrow]
    rfl
  refine List.pairwise_map.2 (hp.unique.imp_of_mem ?_)
  intro a b ha _ hkeys heq
  have hfalse := hkeys heq
  rw [hfull a ha] at hfalse
  cases hfalse

end Runs

/-- **Exactly once from the producer to Silver.**  After any run of the sink's calls, deliveries that may repeat, merges and
rewrites: every Silver row is the row of a trade that was produced; no `(venue, trade_id)` has two; where a trade's row was
in Bronze and accepted as a merge ran, its `(venue, trade_id)` has a row, be it of another symbol's trade; and where no call
raised, the buffer was empty and the stream was delivered, every trade had its row in Bronze. -/
theorem pipeline_exactlyOnce (config : SinkConfig) (client : Client) (hexMd5 : String → String)
    (bronzeOf : Int → String → Option BronzeRow) (hconverts : Converts bronzeOf) (es : List PipelineEvent) :
    (∀ s ∈ (Pipeline.run config client hexMd5 bronzeOf es).lake.silver, ∃ t ∈ tradesOf es, SilverRowOf t s) ∧
    ((Pipeline.run config client hexMd5 bronzeOf es).lake.silver.map SilverRow.key).Nodup ∧
    (∀ pre now lookbackDays scan post, es = pre ++ .merge now lookbackDays scan :: post → ∀ t ingestDate,
      tradeRow ingestDate t ∈ (Pipeline.run config client hexMd5 bronzeOf pre).bronze →
      accepted now lookbackDays (tradeRow ingestDate t) = true →
      ∃ s ∈ (Pipeline.run config client hexMd5 bronzeOf es).lake.silver, s.key = (some t.venue, some t.tradeId)) ∧
    (AllSteps (Pipeline.step config client hexMd5 bronzeOf) (Pipeline.Quiet config client) Pipeline.start es →
      (Pipeline.run config client hexMd5 bronzeOf es).stream.run.sink.buffer = [] →
      (Pipeline.run config client hexMd5 bronzeOf es).AllDelivered bronzeOf →
      ∀ t ∈ tradesOf es, ∃ ingestDate,
        tradeRow ingestDate t ∈ (Pipeline.run config client hexMd5 bronzeOf es).bronze) := by
  have hsound : (Pipeline.run config client hexMd5 bronzeOf es).Sound (tradesOf es) := Pipeline.Sound.run hconverts es
  refine ⟨hsound.silver, hsound.nodup, ?_, fun hquiet hempty hdelivered t ht =>
    hsound.bronze_complete hconverts (Pipeline.once hquiet) hempty hdelivered ht⟩
  rintro pre now lookbackDays scan post rfl t ingestDate hb haccepted
  obtain ⟨s, hs, hkey⟩ : ∃ s ∈ ((Pipeline.run config client hexMd5 bronzeOf pre).step config client hexMd5 bronzeOf
      (.merge now lookbackDays scan)).lake.silver, s.key = (tradeRow ingestDate t).key := Pipeline.merge_covers hb haccepted
  refine ⟨s, ?_, hkey⟩
  rw [Pipeline.run, List.foldl_append, List.foldl_cons]
  exact Pipeline.mem_foldl_silver post hs

/-! ## Two trades, one of them delivered twice -/

/-- What is delivered of records that are of trades. -/
theorem Pipeline.delivered_eq {bronzeOf : Int → String → Option BronzeRow} (hconverts : Converts bronzeOf) {p : Pipeline}
    {trades : List Trade} (h : p.stream.accepted.map Prod.fst = trades.map recordOf) (places : List Nat) (ingestDate : Int) :
    p.delivered bronzeOf places ingestDate =
      places.filterMap (fun place => trades[place]?.map (tradeRow ingestDate)) := by
  refine List.filterMap_congr (fun place _ => ?_)
  have hplace : p.stream.accepted[place]?.map Prod.fst = trades[place]?.map recordOf := by
    rw [← List.getElem?_map, h, List.getElem?_map]
  cases hr : p.stream.accepted[place]? with
  | none =>
    rw [hr] at hplace
    rw [Option.map_eq_none_iff.1 hplace.symm]
    rfl
  | some r =>
    rw [hr] at hplace
    obtain ⟨t, ht, hrecord⟩ := Option.map_eq_some_iff.1 hplace.symm
    rw [ht, Option.bind_some, ← hrecord]
    exact hconverts ingestDate t

/-- Two trades, the first of them refused once. -/
def twoSent : List PipelineEvent :=
  [.call (.produce "md.trades.v1" trade), .call .poll, .call (.produce "md.trades.v1" nextTrade), .call .flush]

/-- The second trade is delivered twice, to two days. -/
def twoDeliveries : List PipelineEvent := [.deliver [0, 1] 20000, .deliver [1] 20001]

def twoMerges : List PipelineEvent := [.merge 1728000900000 7 [], .merge 1728004500000 1 []]

theorem accepted_twoSent : (Pipeline.run singleRecords throttledOnce id columnsOf twoSent).stream.accepted =
    [(recordOf trade, 0), (recordOf nextTrade, 1)] := rfl

theorem bronze_twoDeliveries {p : Pipeline} (h : p.stream.accepted.map Prod.fst = [trade, nextTrade].map recordOf) :
    (twoDeliveries.foldl (Pipeline.step singleRecords throttledOnce id columnsOf) p).bronze =
      p.bronze ++ [tradeRow 20000 trade, tradeRow 20000 nextTrade] ++ [tradeRow 20001 nextTrade] := by
  show p.bronze ++ p.delivered columnsOf [0, 1] 20000 ++ p.delivered columnsOf [1] 20001 = _
  rw [Pipeline.delivered_eq columnsOf_converts h, Pipeline.delivered_eq columnsOf_converts h]
  rfl

theorem bronze_twoDelivered : (Pipeline.run singleRecords throttledOnce id columnsOf (twoSent ++ twoDeliveries)).bronze =
    [tradeRow 20000 trade, tradeRow 20000 nextTrade, tradeRow 20001 nextTrade] := by
  rw [Pipeline.run, List.foldl_append]
  exact bronze_twoDeliveries (congrArg (List.map Prod.fst) accepted_twoSent)

def twoMerged : List PipelineEvent := twoSent ++ twoDeliveries ++ twoMerges

theorem run_twoMerged :
    (Pipeline.run singleRecords throttledOnce id columnsOf twoMerged).bronze =
      [tradeRow 20000 trade, tradeRow 20000 nextTrade, tradeRow 20001 nextTrade] ∧
    (Pipeline.run singleRecords throttledOnce id columnsOf twoMerged).stream =
      (Pipeline.run singleRecords throttledOnce id columnsOf twoSent).stream := by
  have hmerges : ∀ p : Pipeline,
      (twoMerges.foldl (Pipeline.step singleRecords throttledOnce id columnsOf) p).bronze = p.bronze ∧
      (twoMerges.foldl (Pipeline.step singleRecords throttledOnce id columnsOf) p).stream = p.stream := fun p => ⟨rfl, rfl⟩
  have hdeliveries : ∀ p : Pipeline,
      (twoDeliveries.foldl (Pipeline.step singleRecords throttledOnce id columnsOf) p).stream = p.stream := fun p => rfl
  have hrun : Pipeline.run singleRecords throttledOnce id columnsOf twoMerged =
      twoMerges.foldl (Pipeline.step singleRecords throttledOnce id columnsOf)
        (Pipeline.run singleRecords throttledOnce id columnsOf (twoSent ++ twoDeliveries)) := List.foldl_append
  rw [hrun, (hmerges _).1, (hmerges _).2]
  refine ⟨bronze_twoDelivered, ?_⟩
  rw [Pipeline.run, List.foldl_append]
  exact hdeliveries _

/-- Every trade is in Bronze, and Silver has the second once. -/
theorem pipeline_exactlyOnce_twoMerged :
    (∃ s ∈ (Pipeline.run singleRecords throttledOnce id columnsOf twoMerged).lake.silver,
      s.key = (some "binance", some "2")) ∧
    ∀ t ∈ tradesOf twoMerged, ∃ ingestDate,
      tradeRow ingestDate t ∈ (Pipeline.run singleRecords throttledOnce id columnsOf twoMerged).bronze := by
  obtain ⟨-, -, hmerged, hcomplete⟩ := pipeline_exactlyOnce singleRecords throttledOnce id columnsOf columnsOf_converts
    twoMerged
  obtain ⟨hbronze, hstream⟩ := run_twoMerged
  constructor
  · refine hmerged (twoSent ++ twoDeliveries) 1728000900000 7 [] [.merge 1728004500000 1 []] rfl nextTrade 20000 ?_
      (by decide)
    rw [bronze_twoDelivered]
    exact List.mem_cons_of_mem _ List.mem_cons_self
  · refine hcomplete ?_ ?_ ?_
    · have hcalls : ∀ (p : Pipeline) (c : SinkCall), (p.stream.run.result singleRecords throttledOnce c).isOk = true →
          p.Quiet singleRecords throttledOnce (.call c) := by
        intro p c h c' hc
        cases hc
        exact h
      simp only [twoMerged, twoDeliveries, twoMerges, twoSent, List.cons_append, List.nil_append, allSteps_cons]
      refine ⟨hcalls _ _ rfl, hcalls _ _ (by decide +kernel), hcalls _ _ rfl, hcalls _ _ (by decide +kernel), ?_, ?_, ?_,
        ?_, allSteps_nil _⟩ <;>
      · intro c hc
        cases hc
    · rw [hstream]
      decide +kernel
    · intro r hr
      rw [hstream, accepted_twoSent] at hr
      rw [hbronze]
      rcases List.mem_pair.1 hr with rfl | rfl
      · exact ⟨20000, _, List.mem_cons_self, columnsOf_converts 20000 trade⟩
      · exact ⟨20000, _, List.mem_cons_of_mem _ List.mem_cons_self, columnsOf_converts 20000 nextTrade⟩

end Awsnative
