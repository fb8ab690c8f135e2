import Mathlib.Data.List.FinRange
import Mathlib.Data.List.Nodup
import Mathlib.Data.List.Pairwise
import RealtimeFinance.Lakehouse.Transforms
/-!
# Flows — the two branches of `lakehouse.pipelines.trades`

`trades_validated` is a view: `silver_trades_quarantine` and `cdc_trades_stream` each classify `bronze_trades_stream`
for themselves, micro-batch by micro-batch, at a clock of their own.  Within one clock the branches are complements; a
row is kept by exactly one of them as long as both clocks lie on the same side of a day before its event
(`keptOnce_iff`).
-/
namespace Lakehouse

/-- What one trigger of a flow reads: positions of `bronze_trades_stream`, at one `current_timestamp`. -/
structure MicroBatch (n : Nat) where
  now : Int
  positions : List (Fin n)

/-- **A run of one flow over Bronze**: every row is read exactly once, and the clock does not go back. -/
structure FlowRun (bronze : List BronzeTrade) where
  batches : List (MicroBatch bronze.length)
  readsOnce : (batches.flatMap (fun b => b.positions)).Perm (List.finRange bronze.length)
  clocks : batches.Pairwise (fun b b' => b.now ≤ b'.now)

def MicroBatch.rows {bronze : List BronzeTrade} (b : MicroBatch bronze.length) : List BronzeTrade :=
  b.positions.map bronze.get

section Branches

variable {bronze : List BronzeTrade}

/-- `silver_trades_quarantine`, as the flow leaves it. -/
def silverTradesQuarantine (q : FlowRun bronze) : List (BronzeTrade × Option Reason) :=
  q.batches.flatMap (fun b => quarantinedTrades (classifyTrades b.now b.rows))

/-- `trades_clean`, as `cdc_trades_stream` applies it to `silver_trades`. -/
def tradesClean (s : FlowRun bronze) : List SilverTrade :=
  s.batches.flatMap (fun b => validTrades (classifyTrades b.now b.rows))

/-- The flow writes the row at `i` to quarantine. -/
def Quarantines (q : FlowRun bronze) (i : Fin bronze.length) : Prop :=
  ∃ b ∈ q.batches, i ∈ b.positions ∧ quarantinedTrades (classifyTrades b.now [bronze.get i]) ≠ []

/-- The flow writes the row at `i` to `silver_trades`. -/
def Keeps (s : FlowRun bronze) (i : Fin bronze.length) : Prop :=
  ∃ b ∈ s.batches, i ∈ b.positions ∧ validTrades (classifyTrades b.now [bronze.get i]) ≠ []

instance (q : FlowRun bronze) (i : Fin bronze.length) : Decidable (Quarantines q i) :=
  inferInstanceAs (Decidable (∃ b ∈ q.batches, _))

instance (s : FlowRun bronze) (i : Fin bronze.length) : Decidable (Keeps s i) :=
  inferInstanceAs (Decidable (∃ b ∈ s.batches, _))

/-- The row at `i` is read at the clock `now`. -/
def FlowRun.ReadAt (f : FlowRun bronze) (i : Fin bronze.length) (now : Int) : Prop :=
  ∃ b ∈ f.batches, i ∈ b.positions ∧ b.now = now

end Branches

/-! ## One clock -/

/-- **The branches look at one row at a time.** -/
theorem mem_quarantinedTrades {now : Int} {rows : List BronzeTrade} {x : BronzeTrade × Option Reason} :
    x ∈ quarantinedTrades (classifyTrades now rows) ↔
      ∃ r ∈ rows, (r, quarantineReason now r) = x ∧ quarantineReason now r ≠ none := by
  unfold quarantinedTrades classifyTrades
  rw [List.mem_filter, List.mem_map]
  constructor
  · rintro ⟨⟨r, hr, rfl⟩, hreason⟩
    exact ⟨r, hr, rfl, Option.isSome_iff_ne_none.1 hreason⟩
  · rintro ⟨r, hr, rfl, hreason⟩
    exact ⟨⟨r, hr, rfl⟩, Option.isSome_iff_ne_none.2 hreason⟩

theorem mem_validTrades {now : Int} {rows : List BronzeTrade} {x : SilverTrade} :
    x ∈ validTrades (classifyTrades now rows) ↔ ∃ r ∈ rows, silverTrade r = x ∧ quarantineReason now r = none := by
  unfold validTrades classifyTrades
  rw [List.mem_map]
  constructor
  · rintro ⟨y, hy, rfl⟩
    obtain ⟨hy, hreason⟩ := List.mem_filter.1 hy
    obtain ⟨r, hr, rfl⟩ := List.mem_map.1 hy
    exact ⟨r, hr, rfl, Option.isNone_iff_eq_none.1 hreason⟩
  · rintro ⟨r, hr, rfl, hreason⟩
    exact ⟨_, List.mem_filter.2 ⟨List.mem_map_of_mem hr, Option.isNone_iff_eq_none.2 hreason⟩, rfl⟩

theorem quarantinedTrades_singleton (now : Int) (r : BronzeTrade) :
    quarantinedTrades (classifyTrades now [r]) ≠ [] ↔ quarantineReason now r ≠ none := by
  cases h : quarantineReason now r <;> simp [quarantinedTrades, classifyTrades, h]

theorem validTrades_singleton (now : Int) (r : BronzeTrade) :
    validTrades (classifyTrades now [r]) ≠ [] ↔ quarantineReason now r = none := by
  cases h : quarantineReason now r <;> simp [validTrades, classifyTrades, h]

/-! ## Two clocks -/

section Runs

variable {bronze : List BronzeTrade}

/-- **A table holds of Bronze the rows that its flow writes.** -/
theorem mem_silverTradesQuarantine {q : FlowRun bronze} {r : BronzeTrade} :
    (∃ reason, (r, reason) ∈ silverTradesQuarantine q) ↔ ∃ i, bronze.get i = r ∧ Quarantines q i := by
  unfold silverTradesQuarantine MicroBatch.rows Quarantines
  simp only [List.mem_flatMap, mem_quarantinedTrades, List.mem_map, quarantinedTrades_singleton]
  constructor
  · rintro ⟨reason, b, hb, _, ⟨i, hi, rfl⟩, hrow, hreason⟩
    rw [Prod.mk.injEq] at hrow
    obtain ⟨rfl, rfl⟩ := hrow
    exact ⟨i, rfl, b, hb, hi, hreason⟩
  · rintro ⟨i, rfl, b, hb, hi, hreason⟩
    exact ⟨_, b, hb, _, ⟨i, hi, rfl⟩, rfl, hreason⟩

theorem mem_tradesClean {s : FlowRun bronze} {t : SilverTrade} :
    t ∈ tradesClean s ↔ ∃ i, silverTrade (bronze.get i) = t ∧ Keeps s i := by
  unfold tradesClean MicroBatch.rows Keeps
  simp only [List.mem_flatMap, mem_validTrades, List.mem_map, validTrades_singleton]
  constructor
  · rintro ⟨b, hb, _, ⟨i, hi, rfl⟩, rfl, hreason⟩
    exact ⟨i, rfl, b, hb, hi, hreason⟩
  · rintro ⟨i, rfl, b, hb, hi, hreason⟩
    exact ⟨b, hb, _, ⟨i, hi, rfl⟩, rfl, hreason⟩

theorem FlowRun.exists_readAt (f : FlowRun bronze) (i : Fin bronze.length) : ∃ now, f.ReadAt i now := by
  have hread : i ∈ f.batches.flatMap (fun b => b.positions) := f.readsOnce.mem_iff.2 (List.mem_finRange i)
  obtain ⟨b, hb, hi⟩ := List.mem_flatMap.1 hread
  exact ⟨b.now, b, hb, hi, rfl⟩

/-- **A row is read once**, so at one clock. -/
theorem FlowRun.readAt_unique (f : FlowRun bronze) {i : Fin bronze.length} {now now' : Int} (h : f.ReadAt i now)
    (h' : f.ReadAt i now') : now = now' := by
  have hnodup : (f.batches.flatMap (fun b => b.positions)).Nodup := f.readsOnce.nodup_iff.2 (List.nodup_finRange _)
  have hdisjoint := (List.nodup_flatMap.1 hnodup).2
  have hsymm : Std.Symm (Function.onFun List.Disjoint (fun b : MicroBatch bronze.length => b.positions)) :=
    ⟨fun _ _ hxy _ hy hx => hxy hx hy⟩
  obtain ⟨b, hb, hi, rfl⟩ := h
  obtain ⟨b', hb', hi', rfl⟩ := h'
  by_cases hsame : b = b'
  · rw [hsame]
  · exact absurd hi' (hdisjoint.forall hb hb' hsame hi)

theorem quarantines_iff (q : FlowRun bronze) (i : Fin bronze.length) {now : Int} (h : q.ReadAt i now) :
    Quarantines q i ↔ quarantineReason now (bronze.get i) ≠ none := by
  constructor
  · rintro ⟨b, hb, hi, hwrites⟩
    rw [quarantinedTrades_singleton] at hwrites
    rwa [q.readAt_unique h ⟨b, hb, hi, rfl⟩]
  · intro hreason
    obtain ⟨b, hb, hi, rfl⟩ := h
    exact ⟨b, hb, hi, (quarantinedTrades_singleton b.now _).2 hreason⟩

theorem keeps_iff (s : FlowRun bronze) (i : Fin bronze.length) {now : Int} (h : s.ReadAt i now) :
    Keeps s i ↔ quarantineReason now (bronze.get i) = none := by
  constructor
  · rintro ⟨b, hb, hi, hwrites⟩
    rw [validTrades_singleton] at hwrites
    rwa [s.readAt_unique h ⟨b, hb, hi, rfl⟩]
  · intro hreason
    obtain ⟨b, hb, hi, rfl⟩ := h
    exact ⟨b, hb, hi, (validTrades_singleton b.now _).2 hreason⟩

/-- **A row goes to one branch exactly when** no clock that reads it comes before a day ahead of its event while the
other does not. -/
theorem keptOnce_iff (q s : FlowRun bronze) (i : Fin bronze.length) :
    (Quarantines q i ↔ ¬ Keeps s i) ↔
      ∀ e, Sound (bronze.get i) e → ∀ now now', q.ReadAt i now → s.ReadAt i now' →
        (e ≤ now + oneDayUs ↔ e ≤ now' + oneDayUs) := by
  obtain ⟨now, hq⟩ := q.exists_readAt i
  obtain ⟨now', hs⟩ := s.exists_readAt i
  rw [quarantines_iff q i hq, keeps_iff s i hs, ne_eq, not_iff_not, quarantineReason_eq_none_iff_sound,
    quarantineReason_eq_none_iff_sound]
  constructor
  · intro hboth e hsound t t' ht ht'
    have heq : ∀ e', Sound (bronze.get i) e' → e' = e := fun e' h =>
      Option.some.inj (h.eventTsUs.symm.trans hsound.eventTsUs)
    rw [q.readAt_unique ht hq, s.readAt_unique ht' hs]
    constructor
    · intro hle
      obtain ⟨e', he', hle'⟩ := hboth.1 ⟨e, hsound, hle⟩
      rwa [← heq e' he']
    · intro hle
      obtain ⟨e', he', hle'⟩ := hboth.2 ⟨e, hsound, hle⟩
      rwa [← heq e' he']
  · intro hsides
    constructor
    · rintro ⟨e, hsound, hle⟩
      exact ⟨e, hsound, (hsides e hsound now now' hq hs).1 hle⟩
    · rintro ⟨e, hsound, hle⟩
      exact ⟨e, hsound, (hsides e hsound now now' hq hs).2 hle⟩

end Runs

/-! ## A trade a day and a microsecond ahead -/

def aheadTrade : BronzeTrade :=
  { venue := some "binance", venueSymbol := some "BTCUSDT", instrumentId := some "BTC-USDT", tradeId := some "1"
    eventTsUs := some (1700000000000000 + oneDayUs + 1), ingestTsUs := some 1700000000000000, price := some "100.5"
    size := some "0.25", side := some "BUY", sequence := none, isBackfill := some false, source := some "stream"
    kafka := { value := none, key := none, topic := none, partition := none, offset := none, timestamp := none }
    ingestedAt := 1700000000000000 }

def readsAheadAt (now : Int) : FlowRun [aheadTrade] :=
  { batches := [{ now := now, positions := [0] }], readsOnce := List.Perm.refl _, clocks := List.pairwise_singleton _ _ }

/-- **Whichever flow reads first decides.**  The quarantine flow first, and the row is in both tables; the other first,
and it is in neither. -/
theorem rowAhead_is_written_twice_or_never :
    (Quarantines (readsAheadAt 1700000000000000) 0 ∧ Keeps (readsAheadAt 1700000000000001) 0) ∧
      (¬ Quarantines (readsAheadAt 1700000000000001) 0 ∧ ¬ Keeps (readsAheadAt 1700000000000000) 0) := by
  decide +kernel

end Lakehouse
