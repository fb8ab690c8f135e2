import RealtimeFinance.Awsnative.GoldKeys
import RealtimeFinance.Backfill.Resume
import RealtimeFinance.Sql.Printed
/-!
# Mergeable — whether the merge of its tier reads what a DONE file staged

The parsers keep an amount as the text it was and take any integer for a count; the merges cast them, and one cast that
fails is the failure of the whole statement.  So a file can be recorded as verified and stop the run it belongs to
(`doneMergeable_iff`).
-/
namespace Awsnative

open Sql

/-! ## What the merges cast -/

theorem archiveRow_casts_iff {now : Int} {a : StagedTrade} :
    (∃ s, archiveRow now a = .ok s) ↔ (∃ n, castBigint a.eventTsUs = .ok n) ∧ (∃ p, castDecimal 38 18 a.price = .ok p) ∧
      ∃ q, castDecimal 38 18 a.quantity = .ok q := by
  constructor
  · rintro ⟨s, h⟩
    obtain ⟨n, hn, h⟩ := bind_ok h
    obtain ⟨p, hp, h⟩ := bind_ok h
    obtain ⟨q, hq, -⟩ := bind_ok h
    exact ⟨⟨n, hn⟩, ⟨p, hp⟩, ⟨q, hq⟩⟩
  · rintro ⟨⟨n, hn⟩, ⟨p, hp⟩, ⟨q, hq⟩⟩
    unfold archiveRow
    rw [hn, hp, hq]
    exact ⟨_, rfl⟩

/-- What `merge_gold_from_archive.sql` casts, and the difference it takes. -/
structure KlineCasts (k : StagedKline) : Prop where
  openTimeUs : ∃ n, castBigint k.openTimeUs = .ok n
  opening : ∃ d, castDecimal 38 18 k.opening = .ok d
  high : ∃ d, castDecimal 38 18 k.high = .ok d
  low : ∃ d, castDecimal 38 18 k.low = .ok d
  close : ∃ d, castDecimal 38 18 k.close = .ok d
  volume : ∃ d, castDecimal 38 18 k.volume = .ok d
  quoteVolume : ∃ d, castDecimal 38 18 k.quoteVolume = .ok d
  takerBuyBaseVolume : ∃ d, castDecimal 38 18 k.takerBuyBaseVolume = .ok d
  tradeCount : ∃ n, castBigint k.tradeCount = .ok n
  sellVol : ∀ volume taker, castDecimal 38 18 k.volume = .ok (some volume) →
    castDecimal 38 18 k.takerBuyBaseVolume = .ok (some taker) → (volume.unscaled - taker.unscaled).natAbs < 10 ^ 38

theorem subDecimal_fits_iff {a b : Option (Decimal 38 18)} :
    (∃ d, subDecimal a b = .ok d) ↔ ∀ x y, a = some x → b = some y → (x.unscaled - y.unscaled).natAbs < 10 ^ 38 := by
  cases a with
  | none => exact iff_of_true ⟨none, rfl⟩ (fun x y h => by cases h)
  | some x =>
    cases b with
    | none => exact iff_of_true ⟨none, rfl⟩ (fun x y _ h => by cases h)
    | some y =>
      unfold subDecimal Decimal.ofUnscaled
      by_cases hfits : (x.unscaled - y.unscaled).natAbs < 10 ^ 38
      · simp only [dif_pos hfits]
        exact iff_of_true ⟨_, rfl⟩ (fun x' y' hx hy => by cases hx; cases hy; exact hfits)
      · simp only [dif_neg hfits]
        refine iff_of_false (fun h => ?_) (fun h => hfits (h x y rfl rfl))
        obtain ⟨d, h⟩ := h
        cases h

/-- The column is NULL, or a decimal. -/
def AmountColumn (column : Option String) : Prop := ∀ text, column = some text → IsDecimal 38 18 text

/-- The column is NULL, or a whole number of 64 bits. -/
def CountColumn (column : Option String) : Prop := ∀ text, column = some text → IsBigint text

/-- What the takers sold is a decimal, where both texts are numerals. -/
def SellVolFits (volume takerBuyBaseVolume : String) : Prop :=
  ∀ u scale u' scale', Numeral volume u scale → Numeral takerBuyBaseVolume u' scale' →
    (setScale u scale 18 - setScale u' scale' 18).natAbs < 10 ^ 38

/-- What the texts of a staged kline must be. -/
structure KlineReads (k : StagedKline) : Prop where
  openTimeUs : CountColumn k.openTimeUs
  opening : AmountColumn k.opening
  high : AmountColumn k.high
  low : AmountColumn k.low
  close : AmountColumn k.close
  volume : AmountColumn k.volume
  quoteVolume : AmountColumn k.quoteVolume
  takerBuyBaseVolume : AmountColumn k.takerBuyBaseVolume
  tradeCount : CountColumn k.tradeCount
  sellVol : ∀ volume taker, k.volume = some volume → k.takerBuyBaseVolume = some taker → SellVolFits volume taker

/-- A cast that is not NULL is of a numeral. -/
theorem castDecimal_some_iff {column : Option String} {d : Decimal 38 18} : castDecimal 38 18 column = .ok (some d) ↔
    ∃ text, column = some text ∧ ∃ u scale, Numeral text u scale ∧ d.unscaled = setScale u scale 18 := by
  unfold castDecimal castOf
  cases column with
  | none => exact iff_of_false (fun h => by cases h) (fun ⟨_, h, _⟩ => by cases h)
  | some text =>
    simp only [Option.some.injEq, exists_eq_left', ← tryCastDecimal_eq_some_iff]
    cases tryCastDecimal 38 18 (some text) <;> simp

theorem klineCasts_iff {k : StagedKline} : KlineCasts k ↔ KlineReads k := by
  constructor
  · intro h
    refine ⟨castBigint_casts_iff.1 h.openTimeUs, castDecimal_casts_iff.1 h.opening, castDecimal_casts_iff.1 h.high,
      castDecimal_casts_iff.1 h.low, castDecimal_casts_iff.1 h.close, castDecimal_casts_iff.1 h.volume,
      castDecimal_casts_iff.1 h.quoteVolume, castDecimal_casts_iff.1 h.takerBuyBaseVolume, castBigint_casts_iff.1 h.tradeCount, ?_⟩
    intro volume taker hv ht u scale u' scale' hu hu'
    obtain ⟨dv, hdv⟩ : ∃ d, tryCastDecimal 38 18 (some volume) = some d :=
      Option.isSome_iff_exists.1 (tryCastDecimal_isSome_iff.2 (castDecimal_casts_iff.1 h.volume volume hv))
    obtain ⟨dt, hdt⟩ : ∃ d, tryCastDecimal 38 18 (some taker) = some d :=
      Option.isSome_iff_exists.1 (tryCastDecimal_isSome_iff.2 (castDecimal_casts_iff.1 h.takerBuyBaseVolume taker ht))
    have hfits := h.sellVol dv dt (by rw [hv]; exact castDecimal_eq_ok hdv) (by rw [ht]; exact castDecimal_eq_ok hdt)
    obtain ⟨w, t, hw, hwd⟩ := tryCastDecimal_eq_some_iff.1 hdv
    obtain ⟨w', t', hw', hwd'⟩ := tryCastDecimal_eq_some_iff.1 hdt
    obtain ⟨rfl, rfl⟩ := hw.unique hu
    obtain ⟨rfl, rfl⟩ := hw'.unique hu'
    rwa [hwd, hwd'] at hfits
  · intro h
    refine ⟨castBigint_casts_iff.2 h.openTimeUs, castDecimal_casts_iff.2 h.opening, castDecimal_casts_iff.2 h.high,
      castDecimal_casts_iff.2 h.low, castDecimal_casts_iff.2 h.close, castDecimal_casts_iff.2 h.volume,
      castDecimal_casts_iff.2 h.quoteVolume, castDecimal_casts_iff.2 h.takerBuyBaseVolume, castBigint_casts_iff.2 h.tradeCount, ?_⟩
    intro dv dt hdv hdt
    obtain ⟨volume, hv, u, scale, hu, hd⟩ := castDecimal_some_iff.1 hdv
    obtain ⟨taker, ht, u', scale', hu', hd'⟩ := castDecimal_some_iff.1 hdt
    rw [hd, hd']
    exact h.sellVol volume taker hv ht u scale u' scale' hu hu'

theorem klineRow_casts_iff {now : Int} {k : StagedKline} : (∃ r, klineRow now k = .ok r) ↔ KlineCasts k := by
  constructor
  · rintro ⟨r, h⟩
    obtain ⟨openTime, hopenTime, h⟩ := bind_ok h
    obtain ⟨opening, hopening, h⟩ := bind_ok h
    obtain ⟨high, hhigh, h⟩ := bind_ok h
    obtain ⟨low, hlow, h⟩ := bind_ok h
    obtain ⟨close, hclose, h⟩ := bind_ok h
    obtain ⟨volume, hvolume, h⟩ := bind_ok h
    obtain ⟨notional, hnotional, h⟩ := bind_ok h
    obtain ⟨buyVol, hbuyVol, h⟩ := bind_ok h
    obtain ⟨sellVol, hsellVol, h⟩ := bind_ok h
    obtain ⟨tradeCount, htradeCount, -⟩ := bind_ok h
    refine ⟨⟨_, hopenTime⟩, ⟨_, hopening⟩, ⟨_, hhigh⟩, ⟨_, hlow⟩, ⟨_, hclose⟩, ⟨_, hvolume⟩, ⟨_, hnotional⟩, ⟨_, hbuyVol⟩,
      ⟨_, htradeCount⟩, ?_⟩
    intro v t hv ht
    rw [hvolume] at hv
    rw [hbuyVol] at ht
    exact subDecimal_fits_iff.1 ⟨sellVol, hsellVol⟩ v t (Except.ok.inj hv) (Except.ok.inj ht)
  · rintro ⟨⟨openTime, hopenTime⟩, ⟨opening, hopening⟩, ⟨high, hhigh⟩, ⟨low, hlow⟩, ⟨close, hclose⟩, ⟨volume, hvolume⟩,
      ⟨notional, hnotional⟩, ⟨buyVol, hbuyVol⟩, ⟨tradeCount, htradeCount⟩, hfits⟩
    obtain ⟨sellVol, hsellVol⟩ : ∃ d, subDecimal volume buyVol = .ok d :=
      subDecimal_fits_iff.2 (fun x y hx hy => hfits x y (by rw [hvolume, hx]) (by rw [hbuyVol, hy]))
    unfold klineRow
    simp only [hopenTime, hopening, hhigh, hlow, hclose, hvolume, hnotional, hbuyVol, hsellVol, htradeCount, bind,
      Except.bind]
    exact ⟨_, rfl⟩

end Awsnative

namespace Backfill

open Awsnative Sql

/-- The merge of the tier can read the staged line. -/
def Accepted (now : Int) (tier : Tier) (line : String) : Prop :=
  match tier with
  | .hot  => ∃ s, archiveRow now (stagedTrade line) = .ok s
  | .deep => ∃ r, klineRow now (stagedKline line) = .ok r

/-- The merge of the tier can read its staging table. -/
def Selects (now : Int) (tier : Tier) (lines : List String) : Prop :=
  match tier with
  | .hot  => ∃ rows, (lines.map stagedTrade).mapM (archiveRow now) = .ok rows
  | .deep => ∃ source, klineSource now (lines.map stagedKline) = .ok source

/-- **One line the merge cannot read is one too many.** -/
theorem selects_iff {now : Int} {tier : Tier} {lines : List String} :
    Selects now tier lines ↔ ∀ line ∈ lines, Accepted now tier line := by
  cases tier with
  | hot =>
    constructor
    · rintro ⟨rows, h⟩ line hline
      obtain ⟨s, -, hs⟩ := (mapM_ok h).1 _ (List.mem_map_of_mem hline)
      exact ⟨s, hs⟩
    · intro h
      refine mapM_total (fun a ha => ?_)
      obtain ⟨line, hline, rfl⟩ := List.mem_map.1 ha
      exact h line hline
  | deep =>
    refine klineSource_casts_iff.trans ⟨fun h line hline => h _ (List.mem_map_of_mem hline), fun h k hk => ?_⟩
    obtain ⟨line, hline, rfl⟩ := List.mem_map.1 hk
    exact h line hline

/-- **And then the statement fails**, whatever its target holds. -/
theorem merges_fail {now : Int} {lines : List String} :
    (¬ Selects now .hot lines → ∀ silver, ∃ e, mergeSilverFromArchive now (lines.map stagedTrade) silver = .error e) ∧
    (¬ Selects now .deep lines → ∀ gold, ∃ e, mergeGoldFromArchive now (lines.map stagedKline) gold = .error e) := by
  constructor
  · intro h silver
    unfold mergeSilverFromArchive
    cases hrows : (lines.map stagedTrade).mapM (archiveRow now) with
    | error e => exact ⟨e, rfl⟩
    | ok rows => exact absurd ⟨rows, hrows⟩ h
  · intro h gold
    rw [mergeGoldFromArchive_eq]
    cases hsource : klineSource now (lines.map stagedKline) with
    | error e => exact ⟨e, rfl⟩
    | ok source => exact absurd ⟨source, hsource⟩ h

/-! ## What a file's texts must be -/

/-- The text is a numeral in the range of `DECIMAL(38, 18)`, or the `\N` that the staging table reads as NULL. -/
def IsAmount (text : String) : Prop := text = "\\N" ∨ IsDecimal 38 18 text

theorem isAmount_iff {text : String} : AmountColumn (columnOf text) ↔ IsAmount text := by
  unfold AmountColumn columnOf IsAmount
  by_cases h : text = "\\N"
  · simp [h]
  · simp [h]

/-! ## The rows of a file -/

/-- The two amounts of a trade cast.  An instrument id or symbol with a comma would move the columns: then what the row
has in their place does. -/
def TradeFits (instrumentId venueSymbol : String) (trade : ArchiveAggTrade) : Prop :=
  if ',' ∈ instrumentId.toList ∨ ',' ∈ venueSymbol.toList then
    let column i := ((columnsOf (tradeFields instrumentId venueSymbol trade))[i]?).join
    CountColumn (column 8) ∧ AmountColumn (column 4) ∧ AmountColumn (column 5)
  else IsAmount trade.price ∧ IsAmount trade.quantity

/-- The amounts of a bar cast, its count is one of 64 bits, and what the takers sold is a decimal. -/
structure BarAmounts (bar : ArchiveKline) : Prop where
  opening : IsAmount bar.opening
  high : IsAmount bar.high
  low : IsAmount bar.low
  close : IsAmount bar.close
  volume : IsAmount bar.volume
  quoteVolume : IsAmount bar.quoteVolume
  takerBuyBaseVolume : IsAmount bar.takerBuyBaseVolume
  tradeCount : -2 ^ 63 ≤ bar.tradeCount ∧ bar.tradeCount < 2 ^ 63
  sellVol : SellVolFits bar.volume bar.takerBuyBaseVolume

def BarFits (instrumentId : String) (bar : ArchiveKline) : Prop :=
  if ',' ∈ instrumentId.toList then
    let column i := ((columnsOf (klineFields instrumentId bar))[i]?).join
    KlineReads
      { instrumentId := column 0, openTimeUs := column 1, opening := column 3, high := column 4, low := column 5
        close := column 6, volume := column 7, quoteVolume := column 8, tradeCount := column 9
        takerBuyBaseVolume := column 10 }
  else BarAmounts bar

theorem countColumn_toString_iff {n : Int} : CountColumn (some (toString n)) ↔ -2 ^ 63 ≤ n ∧ n < 2 ^ 63 :=
  castBigint_casts_iff.symm.trans castBigint_toString_iff

theorem instant_isCount {us : Int} (h : Plausible us) : CountColumn (some (toString us)) := by
  rw [countColumn_toString_iff]
  unfold Plausible microsRange epochFloorS epochCeilS at h
  omega

/-- **A trade's line is accepted exactly when it fits.** -/
theorem tradeFits_iff {normalise after : UnitNormaliser} {line : String} {fields : List String} {trade : ArchiveAggTrade}
    (hfields : fieldsOf line = some fields) (htrade : aggTradeOf normalise fields = .ok (trade, after))
    (instrumentId venueSymbol : String) (now : Int) :
    Accepted now .hot (csvLine (tradeFields instrumentId venueSymbol trade)) ↔
      TradeFits instrumentId venueSymbol trade := by
  obtain ⟨hprice, hquantity, hspan⟩ := aggTradeOf_ok htrade
  unfold Accepted TradeFits
  simp only [archiveRow_casts_iff]
  rw [castBigint_casts_iff, castDecimal_casts_iff, castDecimal_casts_iff]
  change CountColumn _ ∧ AmountColumn _ ∧ AmountColumn _ ↔ _
  split
  · unfold stagedTrade
    rw [lazySimpleSerDe_csvLine_columns (by simp [tradeFields])]
  · rename_i hplain
    rw [not_or] at hplain
    rw [stagedTrade_csvLine (by
      simp only [List.mem_cons, List.not_mem_nil, or_false]
      rintro field (rfl | rfl | rfl | rfl)
      · exact hplain.1
      · exact hplain.2
      · exact fieldsOf_plain hfields hprice
      · exact fieldsOf_plain hfields hquantity)]
    simp only [isAmount_iff, instant_isCount hspan, true_and]

theorem sellVolFits_columnOf {volume taker : String} :
    (∀ v t, columnOf volume = some v → columnOf taker = some t → SellVolFits v t) ↔ SellVolFits volume taker := by
  have hnull : ∀ {text u scale}, Numeral text u scale → columnOf text = some text := by
    intro text u scale h
    refine if_neg ?_
    rintro rfl
    have hread := bigDecimal_eq_some_iff.2 h
    cases (show bigDecimal "\\N" = none by decide).symm.trans hread
  have hself : ∀ {text t}, columnOf text = some t → t = text := by
    intro text t h
    unfold columnOf at h
    split at h
    · cases h
    · exact (Option.some.inj h).symm
  constructor
  · intro h u scale u' scale' hu hu'
    exact h volume taker (hnull hu) (hnull hu') u scale u' scale' hu hu'
  · intro h v t hv ht
    rw [hself hv, hself ht]
    exact h

/-- **A bar's line is accepted exactly when it fits.** -/
theorem barFits_iff {normalise after : UnitNormaliser} {line : String} {fields : List String} {bar : ArchiveKline}
    (hfields : fieldsOf line = some fields) (hbar : klineOf normalise fields = .ok (bar, after))
    (instrumentId : String) (now : Int) :
    Accepted now .deep (csvLine (klineFields instrumentId bar)) ↔ BarFits instrumentId bar := by
  obtain ⟨htexts, hspan⟩ := klineOf_ok hbar
  unfold Accepted BarFits
  simp only [klineRow_casts_iff, klineCasts_iff]
  split
  · unfold stagedKline
    rw [lazySimpleSerDe_csvLine_columns (by simp [klineFields])]
  · rename_i hplain
    have htext : ∀ field ∈ [instrumentId, bar.opening, bar.high, bar.low, bar.close, bar.volume, bar.quoteVolume,
        bar.takerBuyBaseVolume], ',' ∉ field.toList := by
      intro field hfield
      rcases List.mem_cons.1 hfield with rfl | hfield
      · exact hplain
      · exact fieldsOf_plain hfields (htexts field hfield)
    rw [stagedKline_csvLine htext]
    constructor
    · intro h
      refine ⟨isAmount_iff.1 h.opening, isAmount_iff.1 h.high, isAmount_iff.1 h.low, isAmount_iff.1 h.close,
        isAmount_iff.1 h.volume, isAmount_iff.1 h.quoteVolume, isAmount_iff.1 h.takerBuyBaseVolume,
        countColumn_toString_iff.1 h.tradeCount, sellVolFits_columnOf.1 h.sellVol⟩
    · intro h
      exact ⟨instant_isCount hspan, isAmount_iff.2 h.opening, isAmount_iff.2 h.high, isAmount_iff.2 h.low,
        isAmount_iff.2 h.close, isAmount_iff.2 h.volume, isAmount_iff.2 h.quoteVolume,
        isAmount_iff.2 h.takerBuyBaseVolume, countColumn_toString_iff.2 h.tradeCount, sellVolFits_columnOf.2 h.sellVol⟩

/-! ## A file that is DONE -/

/-- The rows of the file fit. -/
def FileFits (item : WorkItem) (lines : List String) : Prop :=
  match item.tier with
  | .hot  => ∀ trades, parseAggTrades lines = .ok trades → ∀ trade ∈ trades,
      TradeFits item.instrumentId item.venueSymbol trade
  | .deep => ∀ bars, parseKlines lines = .ok bars → ∀ bar ∈ bars, BarFits item.instrumentId bar

theorem accepted_rows_iff {α : Type} {now : Int} {tier : Tier} {parsed : Except ParseError (List α)} {rows : List α}
    (hparse : parsed = .ok rows) {lineOf : α → String} {Fits : α → Prop}
    (hrow : ∀ row ∈ rows, Accepted now tier (lineOf row) ↔ Fits row) :
    (∀ line ∈ rows.map lineOf, Accepted now tier line) ↔ ∀ rows', parsed = .ok rows' → ∀ row ∈ rows', Fits row := by
  subst hparse
  constructor
  · intro h rows' hsame row hmem
    cases hsame
    exact (hrow row hmem).1 (h _ (List.mem_map_of_mem hmem))
  · intro h line hline
    obtain ⟨row, hmem, rfl⟩ := List.mem_map.1 hline
    exact (hrow row hmem).2 (h rows rfl row hmem)

/-- **What `_stage` makes of a file is accepted exactly when its rows fit.** -/
theorem fileFits_iff {item : WorkItem} {lines body : List String} {rowCount : Nat}
    (hstage : stage item.tier item.instrumentId item.venueSymbol lines = .ok (body, rowCount)) (now : Int) :
    (∀ line ∈ body, Accepted now item.tier line) ↔ FileFits item lines := by
  unfold FileFits
  unfold stage at hstage
  cases htier : item.tier with
  | hot =>
    rw [htier] at hstage
    cases hparse : parseAggTrades lines with
    | error e =>
      simp only [hparse] at hstage
      cases hstage
    | ok trades =>
      simp only [hparse] at hstage
      cases hstage
      refine accepted_rows_iff rfl (fun trade htrade => ?_)
      obtain ⟨line, -, fields, hfields, normalise, after, hof⟩ := mem_parseLines hparse trade htrade
      exact tradeFits_iff hfields hof _ _ now
  | deep =>
    rw [htier] at hstage
    cases hparse : parseKlines lines with
    | error e =>
      simp only [hparse] at hstage
      cases hstage
    | ok bars =>
      simp only [hparse] at hstage
      cases hstage
      refine accepted_rows_iff rfl (fun bar hbar => ?_)
      obtain ⟨line, -, fields, hfields, normalise, after, hof⟩ := mem_parseLines hparse bar hbar
      exact barFits_iff hfields hof _ now

/-- The lines of the object at a key. -/
def Objects.bodyAt (objects : Objects) (key : String) : List String :=
  (objects.filter (fun o => decide (o.1 = key))).flatMap Prod.snd

theorem bodyAt_put (objects : Objects) (key : String) (body : List String) : (objects.put key body).bodyAt key = body := by
  unfold Objects.bodyAt Objects.put
  simp [List.filter_filter]

/-- The merge of the tier accepts every row that was staged, and does not fail because of one. -/
structure Mergeable (now : Int) (tier : Tier) (body : List String) : Prop where
  accepted : ∀ line ∈ body, Accepted now tier line
  harmless : ∀ others, Selects now tier others → Selects now tier (others ++ body)

theorem mergeable_iff {now : Int} {tier : Tier} {body : List String} :
    Mergeable now tier body ↔ ∀ line ∈ body, Accepted now tier line := by
  constructor
  · exact Mergeable.accepted
  · intro h
    refine ⟨h, fun others hothers => ?_⟩
    rw [selects_iff] at hothers ⊢
    intro line hline
    rcases List.mem_append.1 hline with hline | hline
    · exact hothers line hline
    · exact h line hline

variable (lib : Stdlib) (archive : Archive)

/-- A load that ends DONE has read the file, and staged what `_stage` made of its lines. -/
theorem load_done {answer : String → Answer} {item : WorkItem} {objects objects' : Objects} {outcome : Outcome}
    (hload : load lib archive answer item objects = some (objects', outcome)) (hdone : outcome.status = .done) :
    ∃ blob lines body rowCount, archive (urlOf item.archiveKey) = some blob ∧ soleMemberLines lib blob = .ok lines ∧
      stage item.tier item.instrumentId item.venueSymbol lines = .ok (body, rowCount) ∧
      objects' = objects.put item.stagingKey body := by
  unfold load at hload
  cases hitem : loadItem lib archive answer item with
  | error raised =>
    rw [hitem] at hload
    cases raised <;> cases hload <;> cases hdone
  | ok loaded =>
    rw [hitem] at hload
    obtain ⟨⟨digest, lines⟩, hread, hitem⟩ := bind_ok hitem
    obtain ⟨⟨body, rowCount⟩, hstage, hitem⟩ := bind_ok hitem
    cases hitem
    cases hload
    obtain ⟨checksum, -, hread⟩ := bind_ok hread
    obtain ⟨checksumText, -, hread⟩ := bind_ok hread
    obtain ⟨blob, hblob, hread⟩ := bind_ok hread
    obtain ⟨digest', -, hread⟩ := bind_ok hread
    obtain ⟨lines', hlines, hread⟩ := bind_ok hread
    cases hread
    refine ⟨blob, lines, body, rowCount, ?_, hlines, ?_, rfl⟩
    · unfold fetch at hblob
      split at hblob
      · rename_i bytes _ hbytes
        cases hblob
        exact hbytes
      · cases hblob
      · cases hblob
    · cases hstaged : stage item.tier item.instrumentId item.venueSymbol lines with
      | error e => rw [hstaged] at hstage; cases hstage
      | ok staged =>
        rw [hstaged] at hstage
        cases hstage
        rfl

/-- **A DONE file can be merged exactly when its rows fit**: the loader asks less of a text than the merges do. -/
theorem doneMergeable_iff {answer : String → Answer} {item : WorkItem} {objects objects' : Objects} {outcome : Outcome}
    (hload : load lib archive answer item objects = some (objects', outcome)) (hdone : outcome.status = .done)
    (now : Int) :
    ∃ blob lines, archive (urlOf item.archiveKey) = some blob ∧ soleMemberLines lib blob = .ok lines ∧
      (Mergeable now item.tier (objects'.bodyAt item.stagingKey) ↔ FileFits item lines) := by
  obtain ⟨blob, lines, body, rowCount, hblob, hlines, hstage, rfl⟩ := load_done lib archive hload hdone
  refine ⟨blob, lines, hblob, hlines, ?_⟩
  rw [bodyAt_put, mergeable_iff]
  exact fileFits_iff hstage now

/-! ## A file whose merge fails -/

/-- The file of one trade, its price as given. -/
def pricedArchive (price : String) : Archive := fun url =>
  if url = urlOf octoberFourth.key then some ("7," ++ price ++ ",0.25,7,7,1728000600000,True,True\n").toUTF8
  else if url = checksumUrlOf octoberFourth.key then
    some (String.ofList (List.replicate 64 'a') ++ "  BTCUSDT-aggTrades-2024-10-04.zip\n").toUTF8
  else none

theorem load_pricedArchive (price line : String)
    (h : (load plainZip (pricedArchive price) (fun _ => .served) (workItem octoberFourth) []).map
      (fun r => (r.1, r.2.status)) = some ([((workItem octoberFourth).stagingKey, [line])], .done)) :
    ∃ outcome, load plainZip (pricedArchive price) (fun _ => .served) (workItem octoberFourth) [] =
      some ([((workItem octoberFourth).stagingKey, [line])], outcome) ∧ outcome.status = .done := by
  obtain ⟨⟨objects, outcome⟩, hload, he⟩ := Option.map_eq_some_iff.1 h
  simp only [Prod.mk.injEq] at he
  obtain ⟨rfl, hdone⟩ := he
  exact ⟨outcome, hload, hdone⟩

theorem doneMergeable_iff_octoberFourth :
    ∃ blob lines, pricedArchive "60000.5" (urlOf octoberFourth.key) = some blob ∧
      soleMemberLines plainZip blob = .ok lines ∧
      (Mergeable 0 .hot (Objects.bodyAt [((workItem octoberFourth).stagingKey,
          ["BTC-USD,binance,BTCUSDT,7,60000.5,0.25,7,7,1728000600000000,SELL"])] (workItem octoberFourth).stagingKey) ↔
        FileFits (workItem octoberFourth) lines) := by
  obtain ⟨outcome, hload, hdone⟩ := load_pricedArchive "60000.5"
    "BTC-USD,binance,BTCUSDT,7,60000.5,0.25,7,7,1728000600000000,SELL" (by decide +kernel)
  exact doneMergeable_iff plainZip (pricedArchive "60000.5") hload hdone 0

/-- A row without a price is staged, its file is DONE, and no merge into Silver gets past it. -/
theorem unpriced_file_is_done :
    ∃ objects outcome, load plainZip (pricedArchive "") (fun _ => .served) (workItem octoberFourth) [] =
        some (objects, outcome) ∧ outcome.status = .done ∧
      ¬ Mergeable 0 .hot (objects.bodyAt (workItem octoberFourth).stagingKey) ∧
      ∀ silver, ∃ e, mergeSilverFromArchive 0 ((objects.staged .hot).map stagedTrade) silver = .error e := by
  obtain ⟨outcome, hload, hdone⟩ := load_pricedArchive ""
    "BTC-USD,binance,BTCUSDT,7,,0.25,7,7,1728000600000000,SELL" (by decide +kernel)
  have hrefused : ¬ Accepted 0 .hot "BTC-USD,binance,BTCUSDT,7,,0.25,7,7,1728000600000000,SELL" := by
    rintro ⟨s, hs⟩
    have hfails : (archiveRow 0 (stagedTrade "BTC-USD,binance,BTCUSDT,7,,0.25,7,7,1728000600000000,SELL")).toOption.isSome
        = false := by
      decide +kernel
    rw [hs] at hfails
    cases hfails
  refine ⟨_, outcome, hload, hdone, fun h => hrefused (h.accepted _ (by decide +kernel)), merges_fail.1 (fun h => ?_)⟩
  exact hrefused (selects_iff.1 h _ (by decide +kernel))

end Backfill
