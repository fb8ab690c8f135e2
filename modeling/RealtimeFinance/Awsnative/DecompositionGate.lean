import RealtimeFinance.Awsnative.GoldFreshness
import RealtimeFinance.Awsnative.GoldKeys
import RealtimeFinance.Awsnative.MergeGoldFits
import RealtimeFinance.Sql.Rollup
import RealtimeFinance.Sql.Value
/-!
# DecompositionGate — query 6 of `verify_silver_gold.sql`

The query rolls the one-minute bars up to five minutes and computes the same five minutes from Silver.  Where every bar is
current, Gold's five minutes are Silver's, with the same NULLs and the same overflows (`Decomposes.gold5m_perm`): the join
drops none of them, and no difference is ever shown (`gatePasses_run`).  A quotient is of scale 18, half up; the double it is
cast to is exact here.
-/
namespace Awsnative

open Sql Runs

/-! ## The query -/

/-- `date_add('minute', -(minute(t) % 5), date_trunc('minute', t))`. -/
def fiveMinuteBucket (t : Int) : Int := truncMinute t - t / microsPerMinute % 60 % 5 * microsPerMinute

structure FiveMinutes where
  instrumentId : Option String
  bucket : Option Int
  notional : Option (Decimal 38 18)
  volume : Option (Decimal 38 18)
  buyVol : Option (Decimal 38 18)
  sellVol : Option (Decimal 38 18)
  tradeCount : Option Int
  deriving DecidableEq

def FiveMinutes.key (r : FiveMinutes) : BarKey := (r.instrumentId, r.bucket)

def GoldRow.bucketKey (g : GoldRow) : BarKey :=
  (g.instrumentId, g.windowEndTs.map (fun t => fiveMinuteBucket (t - microsPerMinute)))

def SilverRow.bucketKey (s : SilverRow) : BarKey := (s.instrumentId, s.eventTs.map fiveMinuteBucket)

def gold5mOf (derived : List GoldRow) (k : BarKey) : Except Error FiveMinutes := do
  let rows := groupRows GoldRow.bucketKey k derived
  let notional ← sumDecimal (rows.filterMap (fun g => g.bar.notional))
  let volume ← sumDecimal (rows.filterMap (fun g => g.bar.volume))
  let buyVol ← sumDecimal (rows.filterMap (fun g => g.bar.buyVol))
  let sellVol ← sumDecimal (rows.filterMap (fun g => g.bar.sellVol))
  return { instrumentId := k.1, bucket := k.2, notional, volume, buyVol, sellVol
           tradeCount := sumBigint (rows.filterMap (fun g => g.bar.tradeCount)) }

/-- `WHERE source_tier = 'DERIVED_FROM_TRADES'`. -/
def derivedRows (gold : List GoldRow) : List GoldRow := gold.filter (fun g => decide (g.sourceTier = .derivedFromTrades))

def gold5m (gold : List GoldRow) : Except Error (List FiveMinutes) :=
  (groupKeys GoldRow.bucketKey (derivedRows gold)).mapM (gold5mOf (derivedRows gold))

def silver5mOf (silver : List SilverRow) (k : BarKey) : Except Error FiveMinutes := do
  let rows := groupRows SilverRow.bucketKey k silver
  let products ← rows.mapM productOf
  let notional ← sumDecimal (products.filterMap id)
  let volume ← sumDecimal (rows.filterMap SilverRow.size)
  let buyVol ← sumDecimal (rows.filterMap (sizeIfSide "BUY"))
  let sellVol ← sumDecimal (rows.filterMap (sizeIfSide "SELL"))
  return { instrumentId := k.1, bucket := k.2, notional, volume, buyVol, sellVol, tradeCount := some (rows.length : Int) }

def silver5m (silver : List SilverRow) : Except Error (List FiveMinutes) :=
  (groupKeys SilverRow.bucketKey silver).mapM (silver5mOf silver)

structure Comparison where
  instrumentId : Option String
  bucket : Option Int
  goldTrades : Option Int
  silverTrades : Option Int
  vwapAbsDiff : Option ℚ
  imbalanceAbsDiff : Option ℚ

/-- `a / b`, where `b` is positive. -/
def quotient : Option (Decimal 38 18) → Option (Decimal 38 18) → Except Error (Option ℚ)
  | some a, some b => match Decimal.ofUnscaled 38 18 (divDecimal a.unscaled 18 b.unscaled.natAbs 18) with
    | some d => .ok (some d.value)
    | none   => .error .numericValueOutOfRange
  | _, _           => .ok none

def absDiff (x y : Option ℚ) : Option ℚ := x.bind (fun x => y.map (fun y => |x - y|))

def comparison (g s : FiveMinutes) : Except Error Comparison := do
  let goldImbalance ← subDecimal g.buyVol g.sellVol
  let silverImbalance ← subDecimal s.buyVol s.sellVol
  let goldVwap ← quotient g.notional g.volume
  let silverVwap ← quotient s.notional s.volume
  let goldRatio ← quotient goldImbalance g.volume
  let silverRatio ← quotient silverImbalance s.volume
  return { instrumentId := g.instrumentId, bucket := g.bucket, goldTrades := g.tradeCount, silverTrades := s.tradeCount
           vwapAbsDiff := absDiff goldVwap silverVwap, imbalanceAbsDiff := absDiff goldRatio silverRatio }

/-- `volume > 0`. -/
def FiveMinutes.traded (r : FiveMinutes) : Bool :=
  match r.volume with
  | some v => decide (0 < v.unscaled)
  | none   => false

/-- `ON g.instrument_id = s.instrument_id AND g.bucket = s.bucket`, and the `WHERE` on the volumes. -/
def joins (g s : FiveMinutes) : Bool :=
  decide (and3 (equals g.instrumentId s.instrumentId) (equals g.bucket s.bucket) = some true) && (g.traded && s.traded)

/-- `ORDER BY vwap_abs_diff DESC`, NULL last. -/
def Comparison.before (a b : Comparison) : Bool :=
  match a.vwapAbsDiff, b.vwapAbsDiff with
  | _, none        => true
  | none, some _   => false
  | some x, some y => decide (y ≤ x)

/-- Query 6, with its `LIMIT 20`. -/
def verifyDecomposition (silver : List SilverRow) (gold : List GoldRow) : Except Error (List Comparison) := do
  let golds ← gold5m gold
  let silvers ← silver5m silver
  let rows ← (golds.flatMap (fun g => (silvers.filter (joins g)).map (fun s => (g, s)))).mapM (fun p => comparison p.1 p.2)
  return (rows.mergeSort Comparison.before).take 20

/-! ## Minutes in five minutes -/

/-- The five minutes of a bar. -/
def bucketOf (k : BarKey) : BarKey := (k.1, k.2.map (fun t => fiveMinuteBucket (t - microsPerMinute)))

theorem fiveMinuteBucket_truncMinute (t : Int) : fiveMinuteBucket (truncMinute t) = fiveMinuteBucket t := by
  unfold fiveMinuteBucket truncMinute microsPerMinute
  omega

theorem GoldRow.bucketKey_eq (g : GoldRow) : g.bucketKey = bucketOf g.key := rfl

theorem SilverRow.bucketKey_eq (s : SilverRow) : s.bucketKey = bucketOf s.barKey := by
  unfold SilverRow.bucketKey bucketOf SilverRow.barKey
  cases s.eventTs with
  | none => rfl
  | some t =>
    simp only [Option.map_some]
    rw [Int.add_sub_cancel, fiveMinuteBucket_truncMinute]

theorem fullBarKey_bucketOf (k : BarKey) : fullBarKey (bucketOf k) = fullBarKey k := by
  unfold fullBarKey bucketOf
  rw [Option.isSome_map]

theorem SilverRow.full_of_bucket {s : SilverRow} {k : BarKey} (h : s.bucketKey = k) (hk : fullBarKey k = true) :
    fullBarKey s.barKey = true := by
  rw [← fullBarKey_bucketOf, ← SilverRow.bucketKey_eq, h]
  exact hk

/-! ## Where every bar is current -/

/-- Every minute of Silver has its bar, every derived bar has its minute, and no bar is there twice. -/
structure Decomposes (lake : Lake) : Prop where
  current : ∀ s ∈ lake.silver, fullBarKey s.barKey = true → Current lake s.barKey
  grounded : ∀ g ∈ lake.gold, g.sourceTier = .derivedFromTrades → fullBarKey g.key = true ∧ ∃ s ∈ lake.silver, s.barKey = g.key
  unique : UniqueKeys GoldRow.key fullBarKey lake.gold

section Decomposes

variable {lake : Lake} {k : BarKey}

theorem mem_derivedRows {gold : List GoldRow} {g : GoldRow} :
    g ∈ derivedRows gold ↔ g ∈ gold ∧ g.sourceTier = .derivedFromTrades := by
  unfold derivedRows
  rw [List.mem_filter, decide_eq_true_eq]

/-- `price * "size"` where it does not fail. -/
def SilverRow.productValue (s : SilverRow) : Option (Decimal 38 18) := ((productOf s).toOption).join

theorem productValue_of_ok {s : SilverRow} {d : Option (Decimal 38 18)} (h : productOf s = .ok d) : d = s.productValue := by
  unfold SilverRow.productValue
  rw [h]
  rfl

theorem products_eq {rows : List SilverRow} {products : List (Option (Decimal 38 18))} (h : rows.mapM productOf = .ok products) :
    products.filterMap id = rows.filterMap SilverRow.productValue := by
  have hmap : products.map id = rows.map SilverRow.productValue := mapM_map_eq (fun _ _ hd => productValue_of_ok hd) h
  rw [List.map_id] at hmap
  rw [hmap, List.filterMap_map]
  rfl

/-- The derived bars of five minutes are distinct. -/
theorem Decomposes.parts_nodup (h : Decomposes lake) (k : BarKey) :
    ((groupRows GoldRow.bucketKey k (derivedRows lake.gold)).map GoldRow.key).Nodup := by
  have hsublist : (groupRows GoldRow.bucketKey k (derivedRows lake.gold)).Sublist lake.gold :=
    List.filter_sublist.trans List.filter_sublist
  refine UniqueKeys.nodup_full (List.Pairwise.sublist hsublist h.unique) (fun g hg => ?_)
  obtain ⟨hgold, htier⟩ := mem_derivedRows.1 (mem_groupRows.1 hg).1
  exact (h.grounded g hgold htier).1

/-- Each Silver row of five minutes is in one of their bars. -/
theorem Decomposes.rows_in_parts (h : Decomposes lake) (hk : fullBarKey k = true) :
    ∀ r ∈ groupRows SilverRow.bucketKey k lake.silver,
      r.barKey ∈ (groupRows GoldRow.bucketKey k (derivedRows lake.gold)).map GoldRow.key := by
  intro r hr
  obtain ⟨hr, hrk⟩ := mem_groupRows.1 hr
  obtain ⟨⟨g, hg, hgk⟩, hall⟩ := h.current r hr (SilverRow.full_of_bucket hrk hk)
  refine List.mem_map.2 ⟨g, mem_groupRows.2 ⟨mem_derivedRows.2 ⟨hg, (hall g hg hgk).1⟩, ?_⟩, hgk⟩
  rw [GoldRow.bucketKey_eq, hgk, ← SilverRow.bucketKey_eq]
  exact hrk

/-- A bar of five minutes is computed from its rows among theirs. -/
theorem Decomposes.part_computed (h : Decomposes lake) {q : GoldRow}
    (hq : q ∈ groupRows GoldRow.bucketKey k (derivedRows lake.gold)) :
    ∃ scan first last products, Computed scan q.bar first last products ∧
      scan.Perm (groupRows SilverRow.barKey q.key (groupRows SilverRow.bucketKey k lake.silver)) := by
  obtain ⟨hq, hqk⟩ := mem_groupRows.1 hq
  obtain ⟨hgold, htier⟩ := mem_derivedRows.1 hq
  obtain ⟨hfull, s, hs, hsq⟩ := h.grounded q hgold htier
  rw [← hsq] at hfull
  obtain ⟨scan, hperm, hbar⟩ := ((h.current s hs hfull).2 q hgold hsq.symm).2
  obtain ⟨first, last, products, hcomputed⟩ := barOf_ok hbar
  refine ⟨scan, first, last, products, hcomputed, ?_⟩
  have hgroup : groupRows SilverRow.barKey q.key (groupRows SilverRow.bucketKey k lake.silver) =
      groupRows SilverRow.barKey q.key lake.silver := by
    refine groupRows_filter (fun r _ hrk => ?_)
    rw [decide_eq_true_eq, SilverRow.bucketKey_eq, hrk, ← GoldRow.bucketKey_eq]
    exact hqk
  rw [hgroup, ← hsq]
  exact hperm

/-- **A measure of the bars rolls up** to the sum over the rows. -/
theorem Decomposes.measure_rollup (h : Decomposes lake) (hk : fullBarKey k = true) {f : SilverRow → Option (Decimal 38 18)}
    {measure : Bar → Option (Decimal 38 18)}
    (hmeasure : ∀ scan bar first last products, Computed scan bar first last products →
      sumDecimal (scan.filterMap f) = .ok (measure bar)) :
    sumDecimal ((groupRows GoldRow.bucketKey k (derivedRows lake.gold)).filterMap (fun g => measure g.bar)) =
      sumDecimal ((groupRows SilverRow.bucketKey k lake.silver).filterMap f) := by
  refine sumDecimal_rollup (h.parts_nodup k) (h.rows_in_parts hk) (fun q hq => ?_)
  obtain ⟨scan, first, last, products, hcomputed, hperm⟩ := h.part_computed hq
  rw [← sumDecimal_perm_eq (hperm.filterMap f)]
  exact hmeasure scan q.bar first last products hcomputed

/-- A product that a bar is computed from does not fail. -/
theorem Decomposes.products_ok (h : Decomposes lake) (hk : fullBarKey k = true) :
    ∃ products, (groupRows SilverRow.bucketKey k lake.silver).mapM productOf = .ok products := by
  refine mapM_total (fun r hr => ?_)
  obtain ⟨q, hq, hqr⟩ := List.mem_map.1 (h.rows_in_parts hk r hr)
  obtain ⟨scan, first, last, products, hcomputed, hperm⟩ := h.part_computed hq
  have hscan : r ∈ scan := hperm.mem_iff.2 (mem_groupRows.2 ⟨hr, hqr.symm⟩)
  obtain ⟨d, -, hd⟩ := (mapM_ok hcomputed.multiplies).1 r hscan
  exact ⟨d, hd⟩

/-- **Gold's five minutes are Silver's**, NULLs and overflows included. -/
theorem Decomposes.gold5mOf_eq (h : Decomposes lake) (hk : fullBarKey k = true)
    (hne : groupRows SilverRow.bucketKey k lake.silver ≠ []) :
    gold5mOf (derivedRows lake.gold) k = silver5mOf lake.silver k := by
  have hvolume : sumDecimal ((groupRows GoldRow.bucketKey k (derivedRows lake.gold)).filterMap (fun g => g.bar.volume)) =
      sumDecimal ((groupRows SilverRow.bucketKey k lake.silver).filterMap SilverRow.size) :=
    h.measure_rollup hk (fun _ _ _ _ _ hc => hc.volume)
  have hbuyVol : sumDecimal ((groupRows GoldRow.bucketKey k (derivedRows lake.gold)).filterMap (fun g => g.bar.buyVol)) =
      sumDecimal ((groupRows SilverRow.bucketKey k lake.silver).filterMap (sizeIfSide "BUY")) :=
    h.measure_rollup hk (fun _ _ _ _ _ hc => hc.buyVol)
  have hsellVol : sumDecimal ((groupRows GoldRow.bucketKey k (derivedRows lake.gold)).filterMap (fun g => g.bar.sellVol)) =
      sumDecimal ((groupRows SilverRow.bucketKey k lake.silver).filterMap (sizeIfSide "SELL")) :=
    h.measure_rollup hk (fun _ _ _ _ _ hc => hc.sellVol)
  have hnotional : sumDecimal ((groupRows GoldRow.bucketKey k (derivedRows lake.gold)).filterMap (fun g => g.bar.notional)) =
      sumDecimal ((groupRows SilverRow.bucketKey k lake.silver).filterMap SilverRow.productValue) := by
    refine h.measure_rollup hk (fun scan bar first last products hc => ?_)
    rw [← products_eq hc.multiplies]
    exact hc.notional
  have hcount : sumBigint ((groupRows GoldRow.bucketKey k (derivedRows lake.gold)).filterMap (fun g => g.bar.tradeCount)) =
      some ((groupRows SilverRow.bucketKey k lake.silver).length : Int) := by
    refine sumBigint_rollup (h.parts_nodup k) (h.rows_in_parts hk) hne (fun q hq => ?_)
    obtain ⟨scan, first, last, products, hcomputed, hperm⟩ := h.part_computed hq
    rw [hcomputed.tradeCount, hperm.length_eq]
  obtain ⟨products, hproducts⟩ := h.products_ok hk
  rw [← products_eq hproducts] at hnotional
  unfold gold5mOf silver5mOf
  simp only [hproducts, hnotional, hvolume, hbuyVol, hsellVol, hcount]
  rfl

/-- The five minutes that Gold has are those of Silver with a whole key. -/
theorem Decomposes.mem_groupKeys_iff (h : Decomposes lake) :
    k ∈ groupKeys GoldRow.bucketKey (derivedRows lake.gold) ↔
      k ∈ (groupKeys SilverRow.bucketKey lake.silver).filter fullBarKey := by
  rw [List.mem_filter, mem_groupKeys, mem_groupKeys]
  constructor
  · rintro ⟨g, hg, rfl⟩
    obtain ⟨hgold, htier⟩ := mem_derivedRows.1 hg
    obtain ⟨hfull, s, hs, hsg⟩ := h.grounded g hgold htier
    refine ⟨⟨s, hs, ?_⟩, ?_⟩
    · rw [SilverRow.bucketKey_eq, hsg, GoldRow.bucketKey_eq]
    · rw [GoldRow.bucketKey_eq, fullBarKey_bucketOf]
      exact hfull
  · rintro ⟨⟨s, hs, rfl⟩, hfull⟩
    have hmem := h.rows_in_parts hfull s (mem_groupRows.2 ⟨hs, rfl⟩)
    obtain ⟨g, hg, -⟩ := List.mem_map.1 hmem
    obtain ⟨hg, hgk⟩ := mem_groupRows.1 hg
    exact ⟨g, hg, hgk⟩

theorem silver5mOf_key {silver : List SilverRow} {r : FiveMinutes} (h : silver5mOf silver k = .ok r) : r.key = k := by
  unfold silver5mOf at h
  obtain ⟨products, -, h⟩ := bind_ok h
  obtain ⟨notional, -, h⟩ := bind_ok h
  obtain ⟨volume, -, h⟩ := bind_ok h
  obtain ⟨buyVol, -, h⟩ := bind_ok h
  obtain ⟨sellVol, -, h⟩ := bind_ok h
  cases h
  rfl

/-- **The two five-minute tables agree**: Gold's is Silver's, as far as the keys are whole. -/
theorem Decomposes.gold5m_perm (h : Decomposes lake) {silvers : List FiveMinutes} (hs : silver5m lake.silver = .ok silvers) :
    ∃ golds, gold5m lake.gold = .ok golds ∧ golds.Perm (silvers.filter (fun r => fullBarKey r.key)) := by
  have hkeys : ((groupKeys SilverRow.bucketKey lake.silver).filter fullBarKey).Perm
      (groupKeys GoldRow.bucketKey (derivedRows lake.gold)) := by
    refine (List.perm_ext_iff_of_nodup ((List.nodup_dedup _).filter _) (List.nodup_dedup _)).2 (fun k => ?_)
    exact h.mem_groupKeys_iff.symm
  have hfull : ((groupKeys SilverRow.bucketKey lake.silver).filter fullBarKey).mapM (silver5mOf lake.silver) =
      .ok (silvers.filter (fun r => fullBarKey r.key)) :=
    mapM_filter (fun k r hr => by rw [silver5mOf_key hr]) hs
  obtain ⟨golds, hgolds, hperm⟩ := mapM_perm hkeys hfull
  refine ⟨golds, ?_, hperm.symm⟩
  have hsame : ∀ k ∈ groupKeys GoldRow.bucketKey (derivedRows lake.gold),
      gold5mOf (derivedRows lake.gold) k = silver5mOf lake.silver k := by
    intro k hk
    obtain ⟨hk, hkfull⟩ := List.mem_filter.1 (h.mem_groupKeys_iff.1 hk)
    obtain ⟨s, hs, hsk⟩ := mem_groupKeys.1 hk
    exact h.gold5mOf_eq hkfull (List.ne_nil_of_mem (mem_groupRows.2 ⟨hs, hsk⟩))
  unfold gold5m
  rw [mapM_congr hsame]
  exact hgolds

/-! ## What the query shows -/

theorem absDiff_self (x : Option ℚ) : ∀ d, absDiff x x = some d → d = 0 := by
  cases x with
  | none =>
    intro d hd
    cases hd
  | some x =>
    intro d hd
    rw [absDiff, Option.bind_some, Option.map_some, Option.some.injEq, sub_self, abs_zero] at hd
    exact hd.symm

/-- Five minutes compared with themselves. -/
theorem comparison_self {g : FiveMinutes} {c : Comparison} (h : comparison g g = .ok c) :
    c.goldTrades = c.silverTrades ∧ (∀ d, c.vwapAbsDiff = some d → d = 0) ∧ ∀ d, c.imbalanceAbsDiff = some d → d = 0 := by
  obtain ⟨imbalance, himbalance, h⟩ := bind_ok h
  obtain ⟨imbalance', himbalance', h⟩ := bind_ok h
  rw [himbalance] at himbalance'
  cases himbalance'
  obtain ⟨vwap, hvwap, h⟩ := bind_ok h
  obtain ⟨vwap', hvwap', h⟩ := bind_ok h
  rw [hvwap] at hvwap'
  cases hvwap'
  obtain ⟨ratio, hratio, h⟩ := bind_ok h
  obtain ⟨ratio', hratio', h⟩ := bind_ok h
  rw [hratio] at hratio'
  cases hratio'
  cases h
  exact ⟨rfl, absDiff_self _, absDiff_self _⟩

theorem joins_iff {g s : FiveMinutes} : joins g s = true ↔
    g.key = s.key ∧ fullBarKey g.key = true ∧ g.traded = true ∧ s.traded = true := by
  unfold joins FiveMinutes.key fullBarKey
  rw [Bool.and_eq_true, decide_eq_true_eq, and3_eq_true, equals_eq_true, equals_eq_true, Bool.and_eq_true,
    Bool.and_eq_true, Prod.mk.injEq]
  constructor
  · rintro ⟨⟨⟨hi, his⟩, hb, hbs⟩, ht, hts⟩
    exact ⟨⟨hi, hb⟩, ⟨his, hbs⟩, ht, hts⟩
  · rintro ⟨⟨hi, hb⟩, ⟨his, hbs⟩, ht, hts⟩
    exact ⟨⟨⟨hi, his⟩, hb, hbs⟩, ht, hts⟩

/-- A row joins with itself alone, if at all. -/
theorem filter_joins {silvers : List FiveMinutes} (hnodup : (silvers.map FiveMinutes.key).Nodup) {g : FiveMinutes}
    (hg : g ∈ silvers) (hfull : fullBarKey g.key = true) : silvers.filter (joins g) = if g.traded then [g] else [] := by
  have hself : ∀ s ∈ silvers, joins g s = decide (s = g ∧ g.traded = true) := by
    intro s hs
    rw [Bool.eq_iff_iff, joins_iff, decide_eq_true_eq]
    constructor
    · rintro ⟨hkey, -, ht, -⟩
      exact ⟨(List.inj_on_of_nodup_map hnodup hg hs hkey).symm, ht⟩
    · rintro ⟨rfl, ht⟩
      exact ⟨rfl, hfull, ht, ht⟩
  rw [List.filter_congr hself]
  cases ht : g.traded with
  | false =>
    rw [if_neg Bool.false_ne_true, List.filter_eq_nil_iff]
    intro s _ h
    exact absurd (of_decide_eq_true h).2 Bool.false_ne_true
  | true =>
    have hcount : silvers.count g = 1 := List.count_eq_one_of_mem (List.Nodup.of_map _ hnodup) hg
    have heq : ∀ s ∈ silvers, decide (s = g ∧ true = true) = decide (s = g) := by
      intro s _
      rw [decide_eq_decide]
      exact and_iff_left rfl
    rw [if_pos rfl, List.filter_congr heq, List.filter_eq, hcount]
    rfl

theorem joined_eq {silvers : List FiveMinutes} (hnodup : (silvers.map FiveMinutes.key).Nodup) :
    ∀ {golds : List FiveMinutes}, (∀ g ∈ golds, g ∈ silvers ∧ fullBarKey g.key = true) →
      golds.flatMap (fun g => (silvers.filter (joins g)).map (fun s => (g, s))) =
        (golds.filter FiveMinutes.traded).map (fun g => (g, g))
  | [], _              => rfl
  | g :: golds, hgolds => by
    obtain ⟨⟨hg, hfull⟩, hrest⟩ := List.forall_mem_cons.1 hgolds
    rw [List.flatMap_cons, filter_joins hnodup hg hfull, joined_eq hnodup hrest]
    cases ht : g.traded with
    | false => rw [if_neg Bool.false_ne_true, List.filter_cons_of_neg (by rw [ht]; exact Bool.false_ne_true)]; rfl
    | true => rw [if_pos rfl, List.filter_cons_of_pos ht]; rfl

/-- The five minutes of Silver with a whole key and a volume. -/
def comparable (silvers : List FiveMinutes) : List FiveMinutes :=
  (silvers.filter (fun r => fullBarKey r.key)).filter FiveMinutes.traded

/-- **The gate**: Gold's five minutes are Silver's, the query compares as many of them as it may, and finds no difference. -/
def GatePasses (lake : Lake) : Prop :=
  ∀ silvers, silver5m lake.silver = .ok silvers →
    (∃ golds, gold5m lake.gold = .ok golds ∧ golds.Perm (silvers.filter (fun r => fullBarKey r.key))) ∧
    ∀ rows, verifyDecomposition lake.silver lake.gold = .ok rows →
      rows.length = min 20 (comparable silvers).length ∧
      ∀ r ∈ rows, r.goldTrades = r.silverTrades ∧ (∀ d, r.vwapAbsDiff = some d → d = 0) ∧
        ∀ d, r.imbalanceAbsDiff = some d → d = 0

/-- **Where every bar is current, the gate passes.** -/
theorem Decomposes.gatePasses (h : Decomposes lake) : GatePasses lake := by
  intro silvers hs
  obtain ⟨golds, hgolds, hperm⟩ := h.gold5m_perm hs
  refine ⟨⟨golds, hgolds, hperm⟩, fun rows hrows => ?_⟩
  have hnodup : (silvers.map FiveMinutes.key).Nodup := by
    have hkeys : silvers.map FiveMinutes.key = (groupKeys SilverRow.bucketKey lake.silver).map id :=
      mapM_map_eq (fun _ _ hr => silver5mOf_key hr) hs
    rw [hkeys, List.map_id]
    exact List.nodup_dedup _
  have hmem : ∀ g ∈ golds, g ∈ silvers ∧ fullBarKey g.key = true := fun g hg => List.mem_filter.1 (hperm.mem_iff.1 hg)
  obtain ⟨golds', hgolds', hrows⟩ := bind_ok hrows
  obtain ⟨silvers', hs', hrows⟩ := bind_ok hrows
  rw [hgolds] at hgolds'
  rw [hs] at hs'
  cases hgolds'
  cases hs'
  obtain ⟨compared, hcompared, hrows⟩ := bind_ok hrows
  cases hrows
  rw [joined_eq hnodup hmem] at hcompared
  constructor
  · have hlength := (mapM_forall₂ hcompared).length_eq
    rw [List.length_take, List.length_mergeSort, ← hlength, List.length_map]
    exact congrArg (min 20) (hperm.filter _).length_eq
  · intro r hr
    have hr := (List.mergeSort_perm _ _).mem_iff.1 (List.mem_of_mem_take hr)
    obtain ⟨p, hp, hpr⟩ := (mapM_ok hcompared).2 r hr
    obtain ⟨g, -, rfl⟩ := List.mem_map.1 hp
    exact comparison_self hpr

end Decomposes

/-! ## Over runs -/

variable (hexMd5 : String → String)

/-- **A staging whose rows all cast has one open time of each bar.** -/
def Statement.OneOpenTime (st : Statement) : Prop :=
  ∀ now staging, st = .mergeGoldFromArchive now staging → (∀ k ∈ staging, ∃ r, klineRow now k = .ok r) →
    OneKlinePerBar staging

theorem Lake.step_unique {lake : Lake} (hu : UniqueKeys GoldRow.key fullBarKey lake.gold) {st : Statement}
    (hone : st.OneOpenTime) : UniqueKeys GoldRow.key fullBarKey (lake.step hexMd5 st).gold := by
  cases hc : lake.commits hexMd5 st with
  | false =>
    rw [Lake.step_of_not_commits hexMd5 hc]
    exact hu
  | true =>
    have he := Lake.exec_of_commits hexMd5 hc
    cases st with
    | mergeGoldBars1m now lookbackDays bronze =>
      obtain ⟨gold, hgold, he⟩ := bind_ok he
      have hw : (GoldWrite.mergeGoldBars1m now lookbackDays bronze lake.silver).OneOpenTime lake.gold :=
        fun now' staging hw => by cases hw
      have hstep : (GoldWrite.mergeGoldBars1m now lookbackDays bronze lake.silver).step lake.gold = gold := by
        show committed (Awsnative.mergeGoldBars1m now lookbackDays bronze lake.silver lake.gold) lake.gold = gold
        rw [hgold]
        rfl
      rw [← Except.ok.inj he, ← hstep]
      exact ((oneRowPerBar_step_iff hu _).2 hw).1
    | mergeGoldFromArchive now staging =>
      obtain ⟨gold, hgold, he⟩ := bind_ok he
      have hw : (GoldWrite.mergeGoldFromArchive now staging).OneOpenTime lake.gold := by
        intro now' staging' hw
        cases hw
        exact hone now staging rfl
      have hstep : (GoldWrite.mergeGoldFromArchive now staging).step lake.gold = gold := by
        show committed (Awsnative.mergeGoldFromArchive now staging lake.gold) lake.gold = gold
        rw [hgold]
        rfl
      rw [← Except.ok.inj he, ← hstep]
      exact ((oneRowPerBar_step_iff hu _).2 hw).1
    | mergeSilverTrades | mergeSilverQuarantine | mergeSilverFromArchive =>
      obtain ⟨_, -, he⟩ := bind_ok he
      rw [← Except.ok.inj he]
      exact hu
    | optimizeSilverTrades rewritten =>
      rw [← Except.ok.inj he]
      split <;> exact hu

/-- Every derived bar has a whole key, and a Silver row of its minute. -/
def Lake.Grounded (lake : Lake) : Prop :=
  ∀ g ∈ lake.gold, g.sourceTier = .derivedFromTrades → fullBarKey g.key = true ∧ ∃ s ∈ lake.silver, s.barKey = g.key

theorem Tracked.step_grounded {t : Tracked} (h : t.lake.Grounded) (st : Statement) : (t.step hexMd5 st).lake.Grounded := by
  intro g hg htier
  rcases t.step_cases hexMd5 st with ⟨dirty, -, -, hsilver, hgold⟩ | ⟨-, rows, -, hsilver, hgold⟩
  · rw [hsilver]
    by_cases hre : rebuilt dirty g.key = true ∧ ∃ s ∈ t.lake.silver, s.barKey = g.key
    · exact ⟨rebuilt_full hre.1, hre.2⟩
    · exact h g ((hgold.keeps g hre).1 hg) htier
  · have hold : g ∈ t.lake.gold := by
      rcases hgold with he | hfills
      · rw [← he]
        exact hg
      · exact (hfills.derived g htier).1 hg
    obtain ⟨hfull, s, hs, hsg⟩ := h g hold htier
    exact ⟨hfull, s, hsilver.mem_iff.2 (List.mem_append_left _ hs), hsg⟩

/-- **The gate passes after every `MergeGold`** of a run, over any interleaving of micro-batches and backfills in which
each dirty set names the partitions of the rows inserted since the `MergeGold` before and each staging has one open time of
a bar. -/
theorem gatePasses_run (run : List Statement)
    (h : AllSteps (Tracked.step hexMd5) (fun t st => PendingNominated hexMd5 t st ∧ st.OneOpenTime) Tracked.empty run) :
    AllSteps (Tracked.step hexMd5) (fun t st => (t.rebuilds hexMd5 st).isSome → GatePasses (t.step hexMd5 st).lake)
      Tracked.empty run := by
  let I (t : Tracked) : Prop :=
    (t.Bookkept ∧ t.Covered) ∧ t.lake.Grounded ∧ UniqueKeys GoldRow.key fullBarKey t.lake.gold
  have hstart : I Tracked.empty :=
    ⟨⟨⟨fun g hg => (by cases hg), fun p hp => (by cases hp)⟩, fun s hs => (by cases hs)⟩, fun g hg => (by cases hg),
      List.Pairwise.nil⟩
  have hcurrent : ∀ t st, I t → PendingNominated hexMd5 t st → BarsCurrent hexMd5 t st := fun t st hi hp =>
    (barsCurrent_step_iff hexMd5 hi.1.1 hi.1.2 st).2 hp
  have hgate : ∀ t st, I t → (PendingNominated hexMd5 t st ∧ st.OneOpenTime) → (t.rebuilds hexMd5 st).isSome →
      GatePasses (t.step hexMd5 st).lake := by
    intro t st hi hp hrebuilds
    exact Decomposes.gatePasses ⟨hcurrent t st hi hp.1 hrebuilds, t.step_grounded hexMd5 hi.2.1 st,
      Lake.step_unique hexMd5 hi.2.2 hp.2⟩
  have hstep : ∀ t st, I t → (PendingNominated hexMd5 t st ∧ st.OneOpenTime) → I (t.step hexMd5 st) := by
    intro t st hi hp
    exact ⟨⟨t.step_bookkept hexMd5 hi.1.1 st, t.step_covered hexMd5 hi.1.2 (hcurrent t st hi hp.1)⟩,
      t.step_grounded hexMd5 hi.2.1 st, Lake.step_unique hexMd5 hi.2.2 hp.2⟩
  have hboth := (AllSteps.congr (Q := fun t st => (PendingNominated hexMd5 t st ∧ st.OneOpenTime) ∧
      ((t.rebuilds hexMd5 st).isSome → GatePasses (t.step hexMd5 st).lake))
    (fun t st hi => ⟨fun hp => ⟨hp, hgate t st hi hp⟩, fun hp => hp.1⟩) hstep hstart).1 h
  exact fun pre st post heq => (hboth pre st post heq).2

/-- One trade, followed. -/
def firstBatch : List Statement :=
  [.mergeSilverTrades 1728000900000 1 [firstTrade], .mergeSilverQuarantine 1728000900000 1 [firstTrade],
    .mergeGoldBars1m 1728000960000 1 [firstTrade]]

theorem gatePasses_run_firstBatch : AllSteps (Tracked.step id)
    (fun t st => (t.rebuilds id st).isSome → GatePasses (t.step id st).lake) Tracked.empty firstBatch := by
  refine gatePasses_run id firstBatch ?_
  have hother : ∀ (t : Tracked) (st : Statement), t.rebuilds id st = none → PendingNominated id t st := by
    intro t st hnone dirty hdirty
    rw [hnone] at hdirty
    cases hdirty
  refine (allSteps_cons _ _ _).2 ⟨⟨hother _ _ rfl, fun now staging h => by cases h⟩, ?_⟩
  refine (allSteps_cons _ _ _).2 ⟨⟨hother _ _ rfl, fun now staging h => by cases h⟩, ?_⟩
  refine (allSteps_cons _ _ _).2 ⟨⟨?_, fun now staging h => by cases h⟩, allSteps_nil _⟩
  intro dirty hdirty p hp _
  have hnamed : dirty = dirtyFromBronze 1728000960000 1 [firstTrade] := by
    unfold Tracked.rebuilds at hdirty
    simp only at hdirty
    split at hdirty
    · exact (Option.some.inj hdirty).symm
    · cases hdirty
  have hall : ∀ p ∈ ((Tracked.empty.step id (.mergeSilverTrades 1728000900000 1 [firstTrade])).step id
      (.mergeSilverQuarantine 1728000900000 1 [firstTrade])).pending,
      rebuilt (dirtyFromBronze 1728000960000 1 [firstTrade]) p.barKey = true := by decide +kernel
  rw [hnamed]
  exact hall p hp

end Awsnative
