import RealtimeFinance.Awsnative.Bronze
/-!
# Quarantine — `merge_silver_quarantine.sql`

The rejected half of the Bronze window, one row of each `(venue, trade_id)`, inserted where no stored row has its
`row_key`.  `hexMd5` is `to_hex(md5(to_utf8(·)))`.
-/
namespace Awsnative

open Sql

structure QuarantineRow where
  rowKey : String
  venue : Option String
  venueSymbol : Option String
  instrumentId : Option String
  tradeId : Option String
  eventTsUs : Option Int
  ingestTsUs : Option Int
  price : Option String
  size : Option String
  side : Option String
  sequence : Option Int
  isBackfill : Option Bool
  source : Option String
  ingestDate : Int
  quarantineReason : String
  quarantinedTs : Int
  deriving DecidableEq

/-- The raw tuple a quarantined row stands for. -/
structure RawTuple where
  venue : Option String
  tradeId : Option String
  eventTsUs : Option Int
  price : Option String
  size : Option String
  deriving DecidableEq

def BronzeRow.raw (b : BronzeRow) : RawTuple := ⟨b.venue, b.tradeId, b.eventTsUs, b.price, b.size⟩

def QuarantineRow.raw (q : QuarantineRow) : RawTuple := ⟨q.venue, q.tradeId, q.eventTsUs, q.price, q.size⟩

/-- `concat_ws` skips the NULLs. -/
def concatWs (sep : String) (parts : List (Option String)) : String := sep.intercalate (parts.filterMap id)

def rawText (r : RawTuple) : String :=
  concatWs "|" [some (coalesce r.venue ""), some (coalesce r.tradeId ""),
    some (coalesce (r.eventTsUs.map toString) ""), some (coalesce r.price ""), some (coalesce r.size "")]

def reasonIf (p : Option Bool) (reason : String) : Option String := if coalesce p false then some reason else none

def quarantineReason (now : Int) (r : BronzeRow) : String :=
  let reasons := concatWs "," [
    if r.venue.isNone || r.tradeId.isNone then some "null_key" else none,
    if coalesce (positive (tryCastDecimal 38 18 r.price)) false then none else some "price",
    if coalesce (positive (tryCastDecimal 38 18 r.size)) false then none else some "size",
    if r.eventTsUs.isNone then some "event_ts_null" else none,
    reasonIf (compare (fun e (lo : Int) => decide (e < lo)) r.eventTsUs (some (oldestEvent now r.source)))
      "event_ts_too_old",
    reasonIf (compare (fun e (hi : Int) => decide (hi < e)) r.eventTsUs (some (newestEvent now))) "event_ts_too_new"]
  if reasons = "" then "unknown" else reasons

variable (hexMd5 : String → String)

/-- The `SELECT` list of `merge_silver_quarantine.sql`. -/
def quarantineOf (now : Int) (r : BronzeRow) : QuarantineRow :=
  { rowKey := hexMd5 (rawText r.raw), venue := r.venue, venueSymbol := r.venueSymbol, instrumentId := r.instrumentId
    tradeId := r.tradeId, eventTsUs := r.eventTsUs, ingestTsUs := r.ingestTsUs, price := r.price, size := r.size
    side := r.side, sequence := r.sequence, isBackfill := r.isBackfill, source := r.source
    ingestDate := r.ingestDate, quarantineReason := quarantineReason now r, quarantinedTs := now }

/-- `ON t.row_key = s.row_key`. -/
def quarantineMerge : MergeInto QuarantineRow where
  on s t := equals (some t.rowKey) (some s.rowKey)

/-- The rows of the window the merge reads: one rejected row of each `(venue, trade_id)`. -/
def quarantineSource (now : Int) (lookbackDays : Nat) (bronze : List BronzeRow) : List BronzeRow :=
  rowNumberOne BronzeRow.key BronzeRow.ingestTsUs (bronze.filter (rejected now lookbackDays))

def mergeSilverQuarantine (now : Int) (lookbackDays : Nat) (bronze : List BronzeRow)
    (quarantine : List QuarantineRow) : Except Error (List QuarantineRow) :=
  quarantineMerge.run ((quarantineSource now lookbackDays bronze).map (quarantineOf hexMd5 now)) quarantine

@[simp] theorem quarantineOf_raw (now : Int) (r : BronzeRow) : (quarantineOf hexMd5 now r).raw = r.raw := rfl

theorem quarantineMerge_hits (s t : QuarantineRow) : quarantineMerge.hits s t = true ↔ s.rowKey = t.rowKey := by
  unfold MergeInto.hits quarantineMerge
  rw [decide_eq_true_eq, equals_eq_true, Option.some.injEq]
  simp [eq_comm]

/-- **What a committed quarantine merge holds**: the rows it held, and every row it numbered 1 whose key was new. -/
theorem mergeSilverQuarantine_mem {now : Int} {lookbackDays : Nat} {bronze : List BronzeRow}
    {quarantine quarantine' : List QuarantineRow}
    (h : mergeSilverQuarantine hexMd5 now lookbackDays bronze quarantine = .ok quarantine') (q : QuarantineRow) :
    q ∈ quarantine' ↔ q ∈ quarantine ∨ ∃ r ∈ quarantineSource now lookbackDays bronze,
      q = quarantineOf hexMd5 now r ∧ ∀ t ∈ quarantine, t.rowKey ≠ hexMd5 (rawText r.raw) := by
  rw [MergeInto.run_insert (fun _ _ => rfl) h, List.mem_append, MergeInto.mem_inserted, List.mem_map]
  refine or_congr_right ⟨?_, ?_⟩
  · rintro ⟨⟨r, hr, rfl⟩, habs⟩
    refine ⟨r, hr, rfl, fun t ht he => ?_⟩
    have := habs t ht
    rw [(quarantineMerge_hits _ t).2 he.symm] at this
    cases this
  · rintro ⟨r, hr, rfl, habs⟩
    refine ⟨⟨r, hr, rfl⟩, fun t ht => ?_⟩
    cases hh : quarantineMerge.hits (quarantineOf hexMd5 now r) t with
    | false => rfl
    | true => exact absurd ((quarantineMerge_hits _ t).1 hh).symm (habs t ht)

/-! ## Which rejected rows are represented -/

def RepresentsRejected (now : Int) (lookbackDays : Nat) (bronze : List BronzeRow) (quarantine : List QuarantineRow) :
    Prop :=
  ∀ b ∈ bronze, rejected now lookbackDays b = true → ∃ q ∈ quarantine, q.raw = b.raw

def KeptAs (now : Int) (lookbackDays : Nat) (bronze : List BronzeRow) (b : BronzeRow) : Prop :=
  ∃ r, IsFirst BronzeRow.key BronzeRow.ingestTsUs (bronze.filter (rejected now lookbackDays)) r ∧ r.raw = b.raw

/-- **A committed quarantine merge represents every rejected row exactly when** each is stored already, or has the raw
tuple of the first rejected row of its `(venue, trade_id)` and a `row_key` that no stored row has. -/
theorem representsRejected_iff {now : Int} {lookbackDays : Nat} {bronze : List BronzeRow}
    {quarantine quarantine' : List QuarantineRow}
    (h : mergeSilverQuarantine hexMd5 now lookbackDays bronze quarantine = .ok quarantine') :
    RepresentsRejected now lookbackDays bronze quarantine' ↔
      ∀ b ∈ bronze, rejected now lookbackDays b = true →
        (∃ q ∈ quarantine, q.raw = b.raw) ∨
        (KeptAs now lookbackDays bronze b ∧ ∀ q ∈ quarantine, q.rowKey ≠ hexMd5 (rawText b.raw)) := by
  refine forall_congr' (fun b => forall_congr' (fun _ => forall_congr' (fun _ => ?_)))
  constructor
  · rintro ⟨q, hq, hraw⟩
    rcases (mergeSilverQuarantine_mem hexMd5 h q).1 hq with hold | ⟨r, hr, rfl, hnew⟩
    · exact Or.inl ⟨q, hold, hraw⟩
    · rw [quarantineOf_raw] at hraw
      exact Or.inr ⟨⟨r, (mem_rowNumberOne_iff _ _ _ r).1 hr, hraw⟩, by rw [← hraw]; exact hnew⟩
  · rintro (⟨q, hq, hraw⟩ | ⟨⟨r, hr, hraw⟩, hnew⟩)
    · exact ⟨q, (mergeSilverQuarantine_mem hexMd5 h q).2 (Or.inl hq), hraw⟩
    · have hsource : r ∈ quarantineSource now lookbackDays bronze := (mem_rowNumberOne_iff _ _ _ r).2 hr
      rw [← hraw] at hnew
      exact ⟨quarantineOf hexMd5 now r,
        (mergeSilverQuarantine_mem hexMd5 h _).2 (Or.inr ⟨r, hsource, rfl, hnew⟩), hraw⟩

def unpriced (price : String) : BronzeRow :=
  { venue := some "binance", venueSymbol := some "BTCUSDT", instrumentId := some "BTC-USD", tradeId := some "1"
    eventTsUs := some 1728000600000000, ingestTsUs := some 1728000600100000, price := some price, size := some "0.25"
    side := some "BUY", sequence := some 1, isBackfill := some false, source := some "STREAM", ingestDate := 20000 }

/-- Two rejected rows of a key, the second stored by an earlier merge. -/
theorem representsRejected_iff_unpriced :
    RepresentsRejected 1728000900000 1 [unpriced "0", unpriced "-1"]
      [quarantineOf id 1728000700000 (unpriced "-1"), quarantineOf id 1728000900000 (unpriced "0")] := by
  have hmerge : mergeSilverQuarantine id 1728000900000 1 [unpriced "0", unpriced "-1"]
      [quarantineOf id 1728000700000 (unpriced "-1")] = .ok [quarantineOf id 1728000700000 (unpriced "-1"),
        quarantineOf id 1728000900000 (unpriced "0")] := by rfl
  refine (representsRejected_iff id hmerge).2 (fun b hb _ => ?_)
  rcases List.mem_pair.1 hb with rfl | rfl
  · refine Or.inr ⟨⟨unpriced "0", (mem_rowNumberOne_iff _ _ _ _).1 (by decide), rfl⟩, ?_⟩
    simp only [List.forall_mem_singleton]
    decide
  · exact Or.inl ⟨_, List.mem_singleton_self _, rfl⟩

/-- Two rejected rows of one `(venue, trade_id)`: the second is in neither table. -/
theorem second_rejected_row_is_dropped :
    ¬ ∀ (hexMd5 : String → String), Function.Injective hexMd5 →
      ∀ (now : Int) (lookbackDays : Nat) (bronze : List BronzeRow) (quarantine quarantine' : List QuarantineRow),
        mergeSilverQuarantine hexMd5 now lookbackDays bronze quarantine = .ok quarantine' →
          RepresentsRejected now lookbackDays bronze quarantine' := by
  intro h
  have hmerge : mergeSilverQuarantine id 1728000900000 1 [unpriced "0", unpriced "-1"] [] =
      .ok [quarantineOf id 1728000900000 (unpriced "0")] := by rfl
  obtain ⟨q, hq, hraw⟩ := h id Function.injective_id _ _ _ _ _ hmerge (unpriced "-1") (by simp) (by decide)
  rw [List.mem_singleton.1 hq] at hraw
  exact absurd hraw (by decide)

end Awsnative
