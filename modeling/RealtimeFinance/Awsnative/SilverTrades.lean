import RealtimeFinance.Sql.Upsert
import RealtimeFinance.Awsnative.Bronze
/-!
# SilverTrades — the two writers of `silver_trades`

`mergeSilverTrades` reads the accepted half of the Bronze window, `mergeSilverFromArchive` the hot tier's staging table;
both number the rows of a `(venue, trade_id)` and insert the first where Silver has none.  A list of rows is a table in
the order it is scanned, which decides the ties `row_number()` leaves open.
-/
namespace Awsnative

open Sql

structure SilverRow where
  venue : Option String
  venueSymbol : Option String
  instrumentId : Option String
  tradeId : Option String
  eventTs : Option Int
  ingestTs : Option Int
  eventTsUs : Option Int
  ingestTsUs : Option Int
  price : Option (Decimal 38 18)
  size : Option (Decimal 38 18)
  side : Option String
  sequence : Option Int
  isBackfill : Option Bool
  source : Option String
  deriving DecidableEq

def SilverRow.key (s : SilverRow) : Option String × Option String := (s.venue, s.tradeId)

/-- `CAST(from_unixtime(us / 1000000.0) AS TIMESTAMP(6))`: the literal is `DECIMAL(8, 1)`, so the seconds it divides
to are a decimal of scale 1. -/
def timestampOf (us : Int) : Int := toTimestamp6 (fromUnixtime (divDecimal us 0 10000000 1) 1)

theorem timestampOf_eq (e : Int) : timestampOf e = divHalfUp e 100000 * 100000 := by
  have htenths : divDecimal e 0 10000000 1 = divHalfUp e 100000 := divHalfUp_mul_right e 100000 (show 0 < 100 by decide)
  unfold timestampOf toTimestamp6
  rw [htenths, fromUnixtime_tenths]
  omega

theorem timestampOf_near (e : Int) : 2 * (timestampOf e - e).natAbs ≤ 100000 := by
  rw [timestampOf_eq]
  exact divHalfUp_near e (show 0 < 100000 by decide)

/-- The `SELECT` list of `merge_silver_trades.sql`. -/
def silverOf (r : BronzeRow) : Except Error SilverRow := do
  let price ← castDecimal 38 18 r.price
  let size ← castDecimal 38 18 r.size
  return { venue := r.venue, venueSymbol := r.venueSymbol, instrumentId := r.instrumentId, tradeId := r.tradeId
           eventTs := r.eventTsUs.map timestampOf, ingestTs := r.ingestTsUs.map timestampOf
           eventTsUs := r.eventTsUs, ingestTsUs := r.ingestTsUs, price, size, side := r.side, sequence := r.sequence
           isBackfill := r.isBackfill, source := r.source }

/-- `ON t.venue = s.venue AND t.trade_id = s.trade_id`, and no `WHEN MATCHED`. -/
def silverMerge : MergeInto SilverRow where
  on s t := and3 (equals t.venue s.venue) (equals t.tradeId s.tradeId)

/-- The rows of the window the merge reads: one accepted row of each `(venue, trade_id)`. -/
def silverSource (now : Int) (lookbackDays : Nat) (bronze : List BronzeRow) : List BronzeRow :=
  rowNumberOne BronzeRow.key BronzeRow.ingestTsUs (bronze.filter (accepted now lookbackDays))

def mergeSilverTrades (now : Int) (lookbackDays : Nat) (bronze : List BronzeRow) (silver : List SilverRow) :
    Except Error (List SilverRow) := do
  let source ← (silverSource now lookbackDays bronze).mapM silverOf
  silverMerge.run source silver

structure StagedTrade where
  instrumentId : Option String
  venue : Option String
  venueSymbol : Option String
  aggTradeId : Option String
  price : Option String
  quantity : Option String
  eventTsUs : Option String
  side : Option String
  deriving DecidableEq

/-- The `SELECT` list of `merge_silver_from_archive.sql`. -/
def archiveRow (now : Int) (a : StagedTrade) : Except Error SilverRow := do
  let eventTsUs ← castBigint a.eventTsUs
  let price ← castDecimal 38 18 a.price
  let size ← castDecimal 38 18 a.quantity
  let ingestTsUs := toUnixMicros now
  return { venue := a.venue, venueSymbol := a.venueSymbol, instrumentId := a.instrumentId, tradeId := a.aggTradeId
           eventTs := eventTsUs.map timestampOf, ingestTs := some (timestampOf ingestTsUs)
           eventTsUs, ingestTsUs := some ingestTsUs, price, size, side := a.side, sequence := none
           isBackfill := some true, source := some "ARCHIVE" }

def mergeSilverFromArchive (now : Int) (staging : List StagedTrade) (silver : List SilverRow) :
    Except Error (List SilverRow) := do
  let rows ← staging.mapM (archiveRow now)
  silverMerge.run (rowNumberOne SilverRow.key SilverRow.eventTsUs rows) silver

/-! ## What each writer's source holds -/

theorem silverMerge_keyed : silverMerge.Keyed SilverRow.key fullKey := by
  intro s t
  unfold MergeInto.hits silverMerge SilverRow.key fullKey
  rw [decide_eq_true_eq, and3_eq_true, equals_eq_true, equals_eq_true, Prod.mk.injEq, Bool.and_eq_true]
  constructor
  · rintro ⟨⟨hv, hvs⟩, ht, hts⟩
    exact ⟨⟨hv.symm, ht.symm⟩, hvs, hts⟩
  · rintro ⟨⟨hv, ht⟩, hvs, hts⟩
    exact ⟨⟨hv.symm, hvs⟩, ht.symm, hts⟩

theorem silverMerge_whenMatched (s t : SilverRow) : silverMerge.whenMatched s t = t := rfl

/-- **Silver carries the raw columns of its Bronze row unchanged.** -/
theorem silverOf_ok {b : BronzeRow} {s : SilverRow} (h : silverOf b = .ok s) :
    s.venue = b.venue ∧ s.venueSymbol = b.venueSymbol ∧ s.instrumentId = b.instrumentId ∧ s.tradeId = b.tradeId ∧
      s.eventTsUs = b.eventTsUs ∧ s.eventTs = b.eventTsUs.map timestampOf := by
  unfold silverOf at h
  cases hp : castDecimal 38 18 b.price with
  | error e => simp [hp, bind, Except.bind] at h
  | ok p =>
    cases hs : castDecimal 38 18 b.size with
    | error e => simp [hp, hs, bind, Except.bind] at h
    | ok z =>
      simp only [hp, hs, bind, Except.bind, pure, Except.pure, Except.ok.injEq] at h
      subst h
      exact ⟨rfl, rfl, rfl, rfl, rfl, rfl⟩

/-- **A valid row does not fail its casts**: the contract has tried them. -/
theorem silverOf_valid {now : Int} {b : BronzeRow} (h : valid now b = true) : ∃ s, silverOf b = .ok s := by
  obtain ⟨⟨p, hp, -⟩, ⟨z, hz, -⟩, -⟩ := valid_casts h
  unfold silverOf
  rw [castDecimal_eq_ok hp, castDecimal_eq_ok hz]
  exact ⟨_, rfl⟩

theorem archiveRow_ok {now : Int} {a : StagedTrade} {s : SilverRow} (h : archiveRow now a = .ok s) :
    s.venue = a.venue ∧ s.venueSymbol = a.venueSymbol ∧ s.instrumentId = a.instrumentId ∧ s.tradeId = a.aggTradeId ∧
      s.eventTs = s.eventTsUs.map timestampOf := by
  unfold archiveRow at h
  cases he : castBigint a.eventTsUs with
  | error e => simp [he, bind, Except.bind] at h
  | ok e =>
    cases hp : castDecimal 38 18 a.price with
    | error e => simp [he, hp, bind, Except.bind] at h
    | ok p =>
      cases hq : castDecimal 38 18 a.quantity with
      | error e => simp [he, hp, hq, bind, Except.bind] at h
      | ok q =>
        simp only [he, hp, hq, bind, Except.bind, pure, Except.pure, Except.ok.injEq] at h
        subst h
        exact ⟨rfl, rfl, rfl, rfl, rfl⟩

/-! ## What a committed write did -/

/-- **The stream's merge never fails**: its rows cast, and their keys are distinct. -/
theorem mergeSilverTrades_ok (now : Int) (lookbackDays : Nat) (bronze : List BronzeRow) (silver : List SilverRow) :
    ∃ source, (silverSource now lookbackDays bronze).mapM silverOf = .ok source ∧
      (source.map SilverRow.key).Nodup ∧
      mergeSilverTrades now lookbackDays bronze silver = .ok (silver ++ silverMerge.inserted source silver) := by
  have hvalid : ∀ b ∈ silverSource now lookbackDays bronze, ∃ s, silverOf b = .ok s := fun b hb => by
    have hacc := (List.mem_filter.1 (mem_of_mem_rowNumberOne _ _ hb)).2
    exact silverOf_valid ((accepted_iff now lookbackDays b).1 hacc).2
  obtain ⟨source, hsource⟩ := mapM_total hvalid
  have hkeys : source.map SilverRow.key = (silverSource now lookbackDays bronze).map BronzeRow.key :=
    mapM_map_eq (fun b s h => by
      obtain ⟨hv, -, -, ht, -⟩ := silverOf_ok h
      unfold SilverRow.key BronzeRow.key
      rw [hv, ht]) hsource
  have hnodup : (source.map SilverRow.key).Nodup := by
    rw [hkeys]
    exact rowNumberOne_nodup _ _ _
  refine ⟨source, hsource, hnodup, ?_⟩
  have hrun := silverMerge_keyed.run_eq_of_unique (uniqueKeys_of_nodup hnodup) silver
  unfold mergeSilverTrades
  rw [hsource]
  show silverMerge.run source silver = _
  rw [hrun, MergeInto.merged_insert silverMerge_whenMatched]

theorem mergeSilverFromArchive_ok {now : Int} {staging : List StagedTrade} {silver silver' : List SilverRow}
    (h : mergeSilverFromArchive now staging silver = .ok silver') :
    ∃ rows, staging.mapM (archiveRow now) = .ok rows ∧
      silver' = silver ++ silverMerge.inserted (rowNumberOne SilverRow.key SilverRow.eventTsUs rows) silver := by
  obtain ⟨rows, hrows, hrun⟩ := bind_ok h
  exact ⟨rows, hrows, MergeInto.run_insert silverMerge_whenMatched hrun⟩

theorem accepted_of_mem_source {now : Int} {lookbackDays : Nat} {bronze : List BronzeRow} {source : List SilverRow}
    (h : (silverSource now lookbackDays bronze).mapM silverOf = .ok source) {s : SilverRow} (hs : s ∈ source) :
    ∃ b ∈ bronze, accepted now lookbackDays b = true ∧ silverOf b = .ok s := by
  obtain ⟨b, hb, hbs⟩ := (mapM_ok h).2 s hs
  obtain ⟨hb, hacc⟩ := List.mem_filter.1 (mem_of_mem_rowNumberOne _ _ hb)
  exact ⟨b, hb, hacc, hbs⟩

theorem source_of_accepted {now : Int} {lookbackDays : Nat} {bronze : List BronzeRow} {source : List SilverRow}
    (h : (silverSource now lookbackDays bronze).mapM silverOf = .ok source) {b : BronzeRow} (hb : b ∈ bronze)
    (hacc : accepted now lookbackDays b = true) : ∃ s ∈ source, s.key = b.key := by
  obtain ⟨k, hk, hkb, -⟩ := rowNumberOne_covers BronzeRow.key BronzeRow.ingestTsUs _ b (List.mem_filter.2 ⟨hb, hacc⟩)
  obtain ⟨s, hs, hks⟩ := (mapM_ok h).1 k hk
  obtain ⟨hv, -, -, ht, -⟩ := silverOf_ok hks
  refine ⟨s, hs, ?_⟩
  rw [← hkb]
  unfold SilverRow.key BronzeRow.key
  rw [hv, ht]

end Awsnative
