import RealtimeFinance.Sql.Printed
import RealtimeFinance.Awsnative.MergeGoldFits
/-!
# BarEnds — open and close as functions of the rows of a bar

The ends of a bar are the prices of the rows least and greatest in `ROW(event_ts_us, trade_id)`.  Silver's key is
`(venue, trade_id)`, so rows of two venues can tie there, and then the scan decides: a bar's ends are a function of its
rows exactly when tied rows at an end have one price (`orderFree_iff`).  An id is compared as text, which is its
numeric order as far as the ids of an instant have equally many digits (`barsSource_ends_by_id`).
-/
namespace Awsnative

open Sql

/-- **The rows tied for an end of the bar have one price.** -/
structure EndsAgree (rows : List SilverRow) : Prop where
  opening : ∀ f f', Least rowLt rows f → Least rowLt rows f' → f.price = f'.price
  close : ∀ l l', Least rowGt rows l → Least rowGt rows l' → l.price = l'.price

/-- **The ends of a computed bar** are the prices of a least and of a greatest row. -/
theorem barOf_ends {rows : List SilverRow} {bar : Bar} (hne : rows ≠ []) (h : barOf rows = .ok bar) :
    ∃ f l, bestBy rowLt rows = .ok (some f) ∧ bestBy rowGt rows = .ok (some l) ∧ Least rowLt rows f ∧ Least rowGt rows l ∧
      bar.opening = f.price ∧ bar.close = l.price := by
  obtain ⟨first, last, products, hc⟩ := barOf_ok h
  obtain ⟨f, rfl⟩ := bestBy_some hne hc.scansFirst
  obtain ⟨l, rfl⟩ := bestBy_some hne hc.scansLast
  exact ⟨f, l, hc.scansFirst, hc.scansLast, (rowLt_ranks.bestBy_least hc.scansFirst).1,
    (rowGt_ranks.bestBy_least hc.scansLast).1, hc.opening, hc.close⟩

theorem EndsAgree.ends_eq {rows rows' : List SilverRow} {bar bar' : Bar} (h : EndsAgree rows) (hne : rows ≠ [])
    (hp : rows'.Perm rows) (hbar : barOf rows = .ok bar) (hbar' : barOf rows' = .ok bar') :
    bar.opening = bar'.opening ∧ bar.close = bar'.close := by
  have hne' : rows' ≠ [] := fun hnil => hne (List.Perm.eq_nil (hnil ▸ hp).symm)
  obtain ⟨f, l, -, -, hf, hl, hopening, hclose⟩ := barOf_ends hne hbar
  obtain ⟨f', l', -, -, hf', hl', hopening', hclose'⟩ := barOf_ends hne' hbar'
  rw [hopening, hopening', hclose, hclose']
  exact ⟨h.opening f f' hf (hf'.perm hp), h.close l l' hl (hl'.perm hp)⟩

/-! ## Another order of the rows -/

theorem sumDecimal_perm {ds ds' : List (Decimal 38 18)} (hp : ds.Perm ds') (h : ∃ total, sumDecimal ds = .ok total) :
    ∃ total, sumDecimal ds' = .ok total := by
  rw [sumDecimal_ok_iff] at h ⊢
  rwa [← (hp.map Decimal.unscaled).sum_eq]

/-- **The measures fit in every order of the rows.** -/
theorem Measured.perm {rows rows' : List SilverRow} (h : Measured rows) (hp : rows.Perm rows') : Measured rows' where
  volume := sumDecimal_perm (hp.filterMap _) h.volume
  notional := by
    obtain ⟨products, hmul, hsum⟩ := h.notional
    obtain ⟨products', hmul'⟩ := mapM_total (fun r hr => ((mapM_ok hmul).1 r (hp.mem_iff.2 hr)).imp (fun d hd => hd.2))
    have hproducts := mapM_map_eq (fun s d hd => productOf_ok hd) hmul
    have hproducts' := mapM_map_eq (fun s d hd => productOf_ok hd) hmul'
    refine ⟨products', hmul', ?_⟩
    rw [sumDecimal_ok_iff, sum_unitsOf] at hsum ⊢
    have htotal : (products'.map (fun d => unitsOf (id d))).sum = (products.map (fun d => unitsOf (id d))).sum := by
      show (products'.map unitsOf).sum = (products.map unitsOf).sum
      rw [hproducts, hproducts', (hp.map SilverRow.product).sum_eq]
    rwa [htotal]
  buyVol := sumDecimal_perm (hp.filterMap _) h.buyVol
  sellVol := sumDecimal_perm (hp.filterMap _) h.sellVol

/-- Silver with the rows of `k` scanned first, in the order `scan`. -/
def scanFirst (k : BarKey) (scan silver : List SilverRow) : List SilverRow :=
  scan ++ silver.filter (fun s => decide (s.barKey ≠ k))

section ScanFirst

variable {k : BarKey} {scan silver : List SilverRow} (hscan : scan.Perm (groupRows SilverRow.barKey k silver))
include hscan

theorem scanFirst_perm : (scanFirst k scan silver).Perm silver := by
  have hsplit := List.filter_append_perm (fun s : SilverRow => decide (s.barKey = k)) silver
  have hrest : silver.filter (fun s => decide (s.barKey ≠ k)) = silver.filter (fun s => !decide (s.barKey = k)) := by
    congr 1
    funext s
    exact decide_not
  unfold scanFirst
  rw [hrest]
  exact (hscan.append_right _).trans hsplit

theorem groupRows_scanFirst : groupRows SilverRow.barKey k (scanFirst k scan silver) = scan := by
  have hkeeps : groupRows SilverRow.barKey k scan = scan :=
    List.filter_eq_self.2 (fun s hs => decide_eq_true (mem_groupRows.1 (hscan.mem_iff.1 hs)).2)
  have hdrops : groupRows SilverRow.barKey k (silver.filter (fun s => decide (s.barKey ≠ k))) = [] := by
    refine List.filter_eq_nil_iff.2 (fun s hs h => ?_)
    exact of_decide_eq_true (List.mem_filter.1 hs).2 (of_decide_eq_true h)
  unfold scanFirst
  rw [groupRows_append, hkeeps, hdrops, List.append_nil]

theorem groupRows_scanFirst_of_ne {k' : BarKey} (hk : k' ≠ k) :
    groupRows SilverRow.barKey k' (scanFirst k scan silver) = groupRows SilverRow.barKey k' silver := by
  have hdrops : groupRows SilverRow.barKey k' scan = [] := by
    refine List.filter_eq_nil_iff.2 (fun s hs h => ?_)
    exact hk ((of_decide_eq_true h).symm.trans (mem_groupRows.1 (hscan.mem_iff.1 hs)).2)
  unfold scanFirst
  rw [groupRows_append, hdrops, List.nil_append]
  refine groupRows_filter (fun s _ hsk => decide_eq_true ?_)
  rw [hsk]
  exact hk

/-- **The merge is computed in that order too**, once the bar of `k` is. -/
theorem barsSource_scanFirst {now : Int} {dirty : List Partition} {source : List GoldRow}
    (h : barsSource now dirty silver = .ok source) {bar : Bar} (hbar : barOf scan = .ok bar) :
    ∃ source', barsSource now dirty (scanFirst k scan silver) = .ok source' := by
  refine mapM_total (fun k' hk' => ?_)
  obtain ⟨s, hs, rfl⟩ := mem_groupKeys.1 hk'
  obtain ⟨hs, hdirty⟩ := mem_joinDirty.1 hs
  rw [goldOf_joinDirty now hdirty]
  by_cases hk : s.barKey = k
  · have hgroup : barOf (groupRows SilverRow.barKey s.barKey (scanFirst k scan silver)) = .ok bar := by
      rw [hk, groupRows_scanFirst hscan]
      exact hbar
    exact ⟨_, goldOf_of_bar now hgroup⟩
  · obtain ⟨g, -, hg⟩ := barsSource_covers h ((scanFirst_perm hscan).mem_iff.1 hs) hdirty
    have hgroup : barOf (groupRows SilverRow.barKey s.barKey (scanFirst k scan silver)) = .ok g.bar := by
      rw [groupRows_scanFirst_of_ne hscan hk]
      exact (goldOf_ok hg).2.2
    exact ⟨_, goldOf_of_bar now hgroup⟩

end ScanFirst

/-! ## Every order -/

theorem mem_barsSource_bar {now : Int} {dirty : List Partition} {silver : List SilverRow} {source : List GoldRow}
    (h : barsSource now dirty silver = .ok source) {g : GoldRow} (hg : g ∈ source) :
    ∃ s ∈ silver, rebuilt dirty s.barKey = true ∧ g.key = s.barKey ∧
      barOf (groupRows SilverRow.barKey g.key silver) = .ok g.bar := by
  obtain ⟨s, hs, hdirty, hgk⟩ := (mem_barsSource h).1 hg
  obtain ⟨hkey, -, hbar⟩ := goldOf_ok hgk
  rw [hkey]
  exact ⟨s, hs, hdirty, rfl, hbar⟩

theorem group_ne_nil {s : SilverRow} {silver : List SilverRow} (hs : s ∈ silver) :
    groupRows SilverRow.barKey s.barKey silver ≠ [] := List.ne_nil_of_mem (mem_groupRows.2 ⟨hs, rfl⟩)

/-- **Two physical orders of Silver make bars with the same ends.** -/
def OrderFree (now : Int) (dirty : List Partition) (silver : List SilverRow) : Prop :=
  ∀ silver₁ silver₂ : List SilverRow, silver₁.Perm silver → silver₂.Perm silver → ∀ source₁ source₂,
    barsSource now dirty silver₁ = .ok source₁ → barsSource now dirty silver₂ = .ok source₂ →
      ∀ g₁ ∈ source₁, ∀ g₂ ∈ source₂, g₁.key = g₂.key →
        g₁.bar.opening = g₂.bar.opening ∧ g₁.bar.close = g₂.bar.close

/-- **Every scan of a rebuilt group is the group's scan in some order of Silver**, so the ends of the bars it computes are
the ends of the bar. -/
theorem OrderFree.scans_eq {now : Int} {dirty : List Partition} {silver : List SilverRow} {source : List GoldRow}
    (horder : OrderFree now dirty silver) (h : barsSource now dirty silver = .ok source) {s : SilverRow} (hs : s ∈ silver)
    (hdirty : rebuilt dirty s.barKey = true) {scan scan' : List SilverRow}
    (hscan : scan.Perm (groupRows SilverRow.barKey s.barKey silver))
    (hscan' : scan'.Perm (groupRows SilverRow.barKey s.barKey silver)) {bar bar' : Bar} (hbar : barOf scan = .ok bar)
    (hbar' : barOf scan' = .ok bar') : bar.opening = bar'.opening ∧ bar.close = bar'.close := by
  obtain ⟨source₁, hsource₁⟩ := barsSource_scanFirst hscan h hbar
  obtain ⟨source₂, hsource₂⟩ := barsSource_scanFirst hscan' h hbar'
  obtain ⟨g₁, hg₁, hgold₁⟩ := barsSource_covers hsource₁ ((scanFirst_perm hscan).mem_iff.2 hs) hdirty
  obtain ⟨g₂, hg₂, hgold₂⟩ := barsSource_covers hsource₂ ((scanFirst_perm hscan').mem_iff.2 hs) hdirty
  obtain ⟨hkey₁, -, hof₁⟩ := goldOf_ok hgold₁
  obtain ⟨hkey₂, -, hof₂⟩ := goldOf_ok hgold₂
  rw [groupRows_scanFirst hscan, hbar] at hof₁
  rw [groupRows_scanFirst hscan', hbar'] at hof₂
  rw [Except.ok.inj hof₁, Except.ok.inj hof₂]
  exact horder _ _ (scanFirst_perm hscan) (scanFirst_perm hscan') _ _ hsource₁ hsource₂ g₁ hg₁ g₂ hg₂
    (hkey₁.trans hkey₂.symm)

/-- A row tied for an end is the end of the bar of some scan. -/
theorem exists_bar_of_least {rows : List SilverRow} (hnodup : rows.Nodup) (hne : rows ≠ []) {bar : Bar}
    (hbar : barOf rows = .ok bar) :
    (∀ f, Least rowLt rows f → ∃ scan bar', scan.Perm rows ∧ barOf scan = .ok bar' ∧ bar'.opening = f.price) ∧
    ∀ l, Least rowGt rows l → ∃ scan bar', scan.Perm rows ∧ barOf scan = .ok bar' ∧ bar'.close = l.price := by
  obtain ⟨first, last, hfirst, hlast, -⟩ := barOf_ends hne hbar
  obtain ⟨_, _, _, hc⟩ := barOf_ok hbar
  constructor
  · intro f hf
    obtain ⟨scan, hp, hmin, l', hmax⟩ := rowLt_ranks.exists_scan hnodup hfirst hlast hf
    obtain ⟨bar', hbar'⟩ := barOf_of_measured hmin hmax (hc.measured.perm hp.symm)
    obtain ⟨_, _, _, hc'⟩ := barOf_ok hbar'
    have hsame := hc'.scansFirst.symm.trans hmin
    refine ⟨scan, bar', hp, hbar', ?_⟩
    rw [hc'.opening, Except.ok.inj hsame]
    rfl
  · intro l hl
    obtain ⟨scan, hp, hmax, f', hmin⟩ := rowGt_ranks.exists_scan hnodup hlast hfirst hl
    obtain ⟨bar', hbar'⟩ := barOf_of_measured hmin hmax (hc.measured.perm hp.symm)
    obtain ⟨_, _, _, hc'⟩ := barOf_ok hbar'
    have hsame := hc'.scansLast.symm.trans hmax
    refine ⟨scan, bar', hp, hbar', ?_⟩
    rw [hc'.close, Except.ok.inj hsame]
    rfl

/-- **The ends of the bars are a function of the set of rows exactly when tied ends agree**, and then a bar whose trades
did not change keeps its ends in every later run. -/
theorem orderFree_iff (now : Int) (dirty : List Partition) {silver : List SilverRow}
    (hkeys : (silver.map SilverRow.key).Nodup) {source : List GoldRow} (h : barsSource now dirty silver = .ok source) :
    (OrderFree now dirty silver ↔
      ∀ s ∈ silver, rebuilt dirty s.barKey = true → EndsAgree (groupRows SilverRow.barKey s.barKey silver)) ∧
    ∀ g ∈ source, EndsAgree (groupRows SilverRow.barKey g.key silver) → ∀ now' dirty' silver' source',
      barsSource now' dirty' silver' = .ok source' →
      (groupRows SilverRow.barKey g.key silver').Perm (groupRows SilverRow.barKey g.key silver) →
      ∀ g' ∈ source', g'.key = g.key → g'.bar.opening = g.bar.opening ∧ g'.bar.close = g.bar.close := by
  have hrerun : ∀ g ∈ source, EndsAgree (groupRows SilverRow.barKey g.key silver) → ∀ now' dirty' silver' source',
      barsSource now' dirty' silver' = .ok source' →
      (groupRows SilverRow.barKey g.key silver').Perm (groupRows SilverRow.barKey g.key silver) →
      ∀ g' ∈ source', g'.key = g.key → g'.bar.opening = g.bar.opening ∧ g'.bar.close = g.bar.close := by
    intro g hg hends now' dirty' silver' source' h' hperm g' hg' hkey
    obtain ⟨s, hs, -, hsk, hbar⟩ := mem_barsSource_bar h hg
    obtain ⟨-, -, -, -, hbar'⟩ := mem_barsSource_bar h' hg'
    rw [hkey] at hbar'
    rw [hsk] at hends hbar hbar' hperm
    obtain ⟨hopening, hclose⟩ := hends.ends_eq (group_ne_nil hs) hperm hbar hbar'
    exact ⟨hopening.symm, hclose.symm⟩
  refine ⟨⟨fun horder s hs hdirty => ?_, fun hends silver₁ silver₂ hp₁ hp₂ source₁ source₂ h₁ h₂ g₁ hg₁ g₂ hg₂ hkey => ?_⟩,
    hrerun⟩
  · obtain ⟨g, -, hgold⟩ := barsSource_covers h hs hdirty
    have hnodup : (groupRows SilverRow.barKey s.barKey silver).Nodup := (List.Nodup.of_map _ hkeys).filter _
    obtain ⟨hleast, hgreatest⟩ := exists_bar_of_least hnodup (group_ne_nil hs) (goldOf_ok hgold).2.2
    refine ⟨fun f f' hf hf' => ?_, fun l l' hl hl' => ?_⟩
    · obtain ⟨scan, bar, hscan, hbar, hf⟩ := hleast f hf
      obtain ⟨scan', bar', hscan', hbar', hf'⟩ := hleast f' hf'
      rw [← hf, ← hf']
      exact (horder.scans_eq h hs hdirty hscan hscan' hbar hbar').1
    · obtain ⟨scan, bar, hscan, hbar, hl⟩ := hgreatest l hl
      obtain ⟨scan', bar', hscan', hbar', hl'⟩ := hgreatest l' hl'
      rw [← hl, ← hl']
      exact (horder.scans_eq h hs hdirty hscan hscan' hbar hbar').2
  · obtain ⟨s, hs₁, hdirty, hsk, -⟩ := mem_barsSource_bar h₁ hg₁
    have hs := hp₁.mem_iff.1 hs₁
    obtain ⟨g, hg, hgold⟩ := barsSource_covers h hs hdirty
    have hgk : g.key = g₁.key := (goldOf_ok hgold).1.trans hsk.symm
    have hends' : EndsAgree (groupRows SilverRow.barKey g.key silver) := by
      rw [hgk, hsk]
      exact hends s hs hdirty
    obtain ⟨hopening₁, hclose₁⟩ := hrerun g hg hends' now dirty silver₁ source₁ h₁ (groupRows_perm hp₁) g₁ hg₁ hgk.symm
    obtain ⟨hopening₂, hclose₂⟩ := hrerun g hg hends' now dirty silver₂ source₂ h₂ (groupRows_perm hp₂) g₂ hg₂
      (hkey.symm.trans hgk.symm)
    exact ⟨hopening₁.trans hopening₂.symm, hclose₁.trans hclose₂.symm⟩

/-! ## Two venues at one instant -/

/-- A trade of the minute that ends at 1728000660000000, of the id that both venues number it with. -/
def tiedTrade (venue symbol price : String) : SilverRow :=
  { venue := some venue, venueSymbol := some symbol, instrumentId := some "BTC-USD", tradeId := some "700000001"
    eventTs := some 1728000600000000, ingestTs := some 1728000600000000, eventTsUs := some 1728000600000000
    ingestTsUs := some 1728000600000000, price := tryCastDecimal 38 18 (some price)
    size := tryCastDecimal 38 18 (some "1"), side := some "BUY", sequence := none, isBackfill := some false
    source := some "STREAM" }

theorem tiedTrade_price (venue symbol price : String) :
    (tiedTrade venue symbol price).price = tryCastDecimal 38 18 (some price) := rfl

def tiedSilver : List SilverRow := [tiedTrade "binance" "BTCUSDT" "60000", tiedTrade "coinbase" "BTC-USD" "60001"]

def tiedSource (silver : List SilverRow) : List GoldRow :=
  (barsSource 1728000900000 [(some "BTC-USD", 20000)] silver).toOption.getD []

theorem tied_venues_reorder_ends : (tiedSilver.map SilverRow.key).Nodup ∧
    barsSource 1728000900000 [(some "BTC-USD", 20000)] tiedSilver = .ok (tiedSource tiedSilver) ∧
    ¬ OrderFree 1728000900000 [(some "BTC-USD", 20000)] tiedSilver := by
  have hforward : barsSource 1728000900000 [(some "BTC-USD", 20000)] tiedSilver = .ok (tiedSource tiedSilver) := by
    decide +kernel
  have hback : barsSource 1728000900000 [(some "BTC-USD", 20000)] tiedSilver.reverse = .ok (tiedSource tiedSilver.reverse) := by
    decide +kernel
  have hdiffer : ∃ g ∈ tiedSource tiedSilver, ∃ g' ∈ tiedSource tiedSilver.reverse, g.key = g'.key ∧
      g.bar.opening ≠ g'.bar.opening := by decide +kernel
  refine ⟨by decide +kernel, hforward, fun horder => ?_⟩
  obtain ⟨g, hg, g', hg', hkey, hne⟩ := hdiffer
  exact hne (horder _ _ (List.Perm.refl _) (List.reverse_perm _) _ _ hforward hback g hg g' hg' hkey).1

/-- Two venues tied at one price, and the trade that closes the minute. -/
def agreeingSilver : List SilverRow :=
  [tiedTrade "binance" "BTCUSDT" "60000", tiedTrade "coinbase" "BTC-USD" "60000",
   { tiedTrade "binance" "BTCUSDT" "60001.5" with tradeId := some "700000002" }]

theorem agreeingSilver_computes :
    barsSource 1728000900000 [(some "BTC-USD", 20000)] agreeingSilver = .ok (tiedSource agreeingSilver) := by decide +kernel

theorem agreeingSilver_opens {f : SilverRow} (h : Least rowLt agreeingSilver f) :
    f.price = tryCastDecimal 38 18 (some "60000") := by
  obtain ⟨hf, hleast⟩ := h
  simp only [agreeingSilver, List.mem_cons, List.not_mem_nil, or_false] at hf
  rcases hf with rfl | rfl | rfl
  · exact tiedTrade_price ..
  · exact tiedTrade_price ..
  · exact absurd rfl (hleast (tiedTrade "binance" "BTCUSDT" "60000") List.mem_cons_self)

theorem agreeingSilver_closes {l : SilverRow} (h : Least rowGt agreeingSilver l) :
    l.price = tryCastDecimal 38 18 (some "60001.5") := by
  obtain ⟨hl, hgreatest⟩ := h
  have hlast : { tiedTrade "binance" "BTCUSDT" "60001.5" with tradeId := some "700000002" } ∈ agreeingSilver := by
    simp [agreeingSilver]
  simp only [agreeingSilver, List.mem_cons, List.not_mem_nil, or_false] at hl
  rcases hl with rfl | rfl | rfl
  · exact absurd rfl (hgreatest _ hlast)
  · exact absurd rfl (hgreatest _ hlast)
  · simp only [tiedTrade_price]

theorem agreeingSilver_agrees : EndsAgree agreeingSilver :=
  ⟨fun _ _ hf hf' => (agreeingSilver_opens hf).trans (agreeingSilver_opens hf').symm,
    fun _ _ hl hl' => (agreeingSilver_closes hl).trans (agreeingSilver_closes hl').symm⟩

/-- The tie is at one price, so the bar is the same in every order. -/
theorem orderFree_iff_agreeing : OrderFree 1728000900000 [(some "BTC-USD", 20000)] agreeingSilver ∧
    ∀ g ∈ tiedSource agreeingSilver, ∀ g' ∈ tiedSource agreeingSilver.reverse, g'.key = g.key →
      g'.bar.opening = g.bar.opening ∧ g'.bar.close = g.bar.close := by
  have hback : barsSource 1728000900000 [(some "BTC-USD", 20000)] agreeingSilver.reverse =
      .ok (tiedSource agreeingSilver.reverse) := by decide +kernel
  obtain ⟨hgroup, hrows⟩ : (∀ g ∈ tiedSource agreeingSilver, groupRows SilverRow.barKey g.key agreeingSilver = agreeingSilver) ∧
      ∀ s ∈ agreeingSilver, groupRows SilverRow.barKey s.barKey agreeingSilver = agreeingSilver := by decide +kernel
  obtain ⟨hiff, hrerun⟩ := orderFree_iff 1728000900000 [(some "BTC-USD", 20000)] (by decide +kernel) agreeingSilver_computes
  refine ⟨hiff.2 (fun s hs _ => ?_), fun g hg => ?_⟩
  · rw [hrows s hs]
    exact agreeingSilver_agrees
  · refine hrerun g hg ?_ 1728000900000 [(some "BTC-USD", 20000)] agreeingSilver.reverse _ hback
      (groupRows_perm (List.reverse_perm _))
    rw [hgroup g hg]
    exact agreeingSilver_agrees

/-! ## Ids as text -/

/-- The trade happened at `us` and has the number `n` for its id. -/
def SilverRow.NumberedAt (r : SilverRow) (us : Int) (n : Nat) : Prop :=
  r.eventTsUs = some us ∧ r.tradeId = some (toString n)

theorem SilverRow.NumberedAt.not_rowLt {r f : SilverRow} {us us' : Int} {n n' : Nat} (hr : r.NumberedAt us' n')
    (hf : f.NumberedAt us n) (h : rowLt r f ≠ .ok true) : us < us' ∨ us = us' ∧ toString n ≤ toString n' := by
  rcases Int.lt_trichotomy us us' with hlt | rfl | hgt
  · exact Or.inl hlt
  · refine Or.inr ⟨rfl, not_lt.1 (fun hlt => h (rowLt_eq_true.2 ?_))⟩
    exact ⟨us, us, hr.1, hf.1, Or.inr ⟨rfl, _, _, hr.2, hf.2, hlt⟩⟩
  · exact absurd (rowLt_eq_true.2 ⟨us', us, hr.1, hf.1, Or.inl hgt⟩) h

/-- The first of `rows` by time and then by id, as `before` orders ids. -/
def FirstBy (before : Nat → Nat → Prop) (rows : List SilverRow) (us : Int) (n : Nat) : Prop :=
  ∀ r ∈ rows, ∀ us' n', r.NumberedAt us' n' → us < us' ∨ us = us' ∧ before n n'

def LastBy (before : Nat → Nat → Prop) (rows : List SilverRow) (us : Int) (n : Nat) : Prop :=
  ∀ r ∈ rows, ∀ us' n', r.NumberedAt us' n' → us' < us ∨ us' = us ∧ before n' n

/-- Of what comes first by text, the numbers come first too exactly when no id of the instant has fewer digits. -/
theorem firstBy_le_iff {rows : List SilverRow} {us : Int} {n : Nat}
    (h : FirstBy (fun n n' => toString n ≤ toString n') rows us n) : FirstBy (· ≤ ·) rows us n ↔
      ∀ r ∈ rows, ∀ n', r.NumberedAt us n' → (toString n).length ≤ (toString n').length := by
  have hinstant : ∀ m, (∃ r ∈ rows, r.NumberedAt us m) → toString n ≤ toString m := by
    rintro m ⟨r, hr, hm⟩
    exact ((h r hr us m hm).resolve_left (Int.lt_irrefl us)).2
  have hiff := least_toString_iff hinstant
  constructor
  · intro hfirst r hr n' hn'
    refine hiff.1 (fun m hm => ?_) n' ⟨r, hr, hn'⟩
    obtain ⟨r, hr, hm⟩ := hm
    exact ((hfirst r hr us m hm).resolve_left (Int.lt_irrefl us)).2
  · intro hlen r hr us' n' hn'
    refine (h r hr us' n' hn').imp_right (fun ⟨hus, _⟩ => ⟨hus, ?_⟩)
    rw [← hus] at hn'
    exact hiff.2 (fun m ⟨r, hr, hm⟩ => hlen r hr m hm) n' ⟨r, hr, hn'⟩

theorem lastBy_le_iff {rows : List SilverRow} {us : Int} {n : Nat}
    (h : LastBy (fun n n' => toString n ≤ toString n') rows us n) : LastBy (· ≤ ·) rows us n ↔
      ∀ r ∈ rows, ∀ n', r.NumberedAt us n' → (toString n').length ≤ (toString n).length := by
  have hinstant : ∀ m, (∃ r ∈ rows, r.NumberedAt us m) → toString m ≤ toString n := by
    rintro m ⟨r, hr, hm⟩
    exact ((h r hr us m hm).resolve_left (Int.lt_irrefl us)).2
  have hiff := greatest_toString_iff hinstant
  constructor
  · intro hlast r hr n' hn'
    refine hiff.1 (fun m hm => ?_) n' ⟨r, hr, hn'⟩
    obtain ⟨r, hr, hm⟩ := hm
    exact ((hlast r hr us m hm).resolve_left (Int.lt_irrefl us)).2
  · intro hlen r hr us' n' hn'
    refine (h r hr us' n' hn').imp_right (fun ⟨hus, _⟩ => ⟨hus, ?_⟩)
    rw [hus] at hn'
    exact hiff.2 (fun m ⟨r, hr, hm⟩ => hlen r hr m hm) n' ⟨r, hr, hn'⟩

/-- **The ends of a bar are the trades that come first and last by time and then by the text of their ids**, and these are
the first and last by the ids as numbers exactly when no id of their instant has fewer digits, or more. -/
theorem barsSource_ends_by_id {now : Int} {dirty : List Partition} {silver : List SilverRow} {source : List GoldRow}
    (h : barsSource now dirty silver = .ok source) {g : GoldRow} (hg : g ∈ source)
    (hnumbered : ∀ r ∈ groupRows SilverRow.barKey g.key silver, ∃ us n, r.NumberedAt us n) :
    (∃ f ∈ groupRows SilverRow.barKey g.key silver, ∃ us n, f.NumberedAt us n ∧ g.bar.opening = f.price ∧
      FirstBy (fun n n' => toString n ≤ toString n') (groupRows SilverRow.barKey g.key silver) us n ∧
      (FirstBy (· ≤ ·) (groupRows SilverRow.barKey g.key silver) us n ↔
        ∀ r ∈ groupRows SilverRow.barKey g.key silver, ∀ n', r.NumberedAt us n' →
          (toString n).length ≤ (toString n').length)) ∧
    ∃ l ∈ groupRows SilverRow.barKey g.key silver, ∃ us n, l.NumberedAt us n ∧ g.bar.close = l.price ∧
      LastBy (fun n n' => toString n ≤ toString n') (groupRows SilverRow.barKey g.key silver) us n ∧
      (LastBy (· ≤ ·) (groupRows SilverRow.barKey g.key silver) us n ↔
        ∀ r ∈ groupRows SilverRow.barKey g.key silver, ∀ n', r.NumberedAt us n' →
          (toString n').length ≤ (toString n).length) := by
  obtain ⟨s, hs, -, hkey, hbar⟩ := mem_barsSource_bar h hg
  have hne : groupRows SilverRow.barKey g.key silver ≠ [] := by
    rw [hkey]
    exact group_ne_nil hs
  generalize groupRows SilverRow.barKey g.key silver = rows at hnumbered hbar hne ⊢
  obtain ⟨f, l, -, -, hf, hl, hopening, hclose⟩ := barOf_ends hne hbar
  obtain ⟨us, n, hfn⟩ := hnumbered f hf.1
  obtain ⟨us', n', hln⟩ := hnumbered l hl.1
  have hfirst : FirstBy (fun n n' => toString n ≤ toString n') rows us n :=
    fun r hr us₁ n₁ hr₁ => hr₁.not_rowLt hfn (hf.2 r hr)
  have hlast : LastBy (fun n n' => toString n ≤ toString n') rows us' n' := by
    intro r hr us₁ n₁ hr₁
    rcases hln.not_rowLt hr₁ (hl.2 r hr) with hlt | ⟨heq, hle⟩
    · exact Or.inl hlt
    · exact Or.inr ⟨heq, hle⟩
  exact ⟨⟨f, hf.1, us, n, hfn, hopening, hfirst, firstBy_le_iff hfirst⟩,
    l, hl.1, us', n', hln, hclose, hlast, lastBy_le_iff hlast⟩

/-- Two trades of one instant on either side of a power of ten. -/
def crossingSilver : List SilverRow :=
  [{ tiedTrade "binance" "BTCUSDT" "60000" with tradeId := some "999999999" },
   { tiedTrade "binance" "BTCUSDT" "60001" with tradeId := some "1000000000" }]

theorem SilverRow.NumberedAt.unique {r : SilverRow} {us us' : Int} {n n' : Nat} (h : r.NumberedAt us n)
    (h' : r.NumberedAt us' n') : us' = us ∧ n' = n :=
  ⟨Option.some.inj (h'.1.symm.trans h.1), eq_of_toString_eq (Option.some.inj (h'.2.symm.trans h.2))⟩

/-- The bar opens with the trade that the exchange executed last. -/
theorem crossing_ids_swap_ends :
    barsSource 1728000900000 [(some "BTC-USD", 20000)] crossingSilver = .ok (tiedSource crossingSilver) ∧
    (∀ s ∈ crossingSilver, s.venue = some "binance" ∧ s.venueSymbol = some "BTCUSDT") ∧
    (crossingSilver.map SilverRow.key).Nodup ∧
    ∃ g ∈ tiedSource crossingSilver, groupRows SilverRow.barKey g.key crossingSilver = crossingSilver ∧
      ∃ f ∈ crossingSilver, ∃ us n, f.NumberedAt us n ∧ FirstBy (· ≤ ·) crossingSilver us n ∧ g.bar.opening ≠ f.price := by
  have hends : ∃ g ∈ tiedSource crossingSilver, groupRows SilverRow.barKey g.key crossingSilver = crossingSilver ∧
      ∃ f ∈ crossingSilver, f.eventTsUs = some 1728000600000000 ∧ f.tradeId = some "999999999" ∧ g.bar.opening ≠ f.price := by
    decide +kernel
  obtain ⟨h₁, h₂⟩ : "999999999" = toString 999999999 ∧ "1000000000" = toString 1000000000 := by decide +kernel
  have hids : ∀ r ∈ crossingSilver, r.NumberedAt 1728000600000000 999999999 ∨ r.NumberedAt 1728000600000000 1000000000 := by
    intro r hr
    rcases List.mem_cons.1 hr with rfl | hr
    · exact Or.inl ⟨rfl, congrArg some h₁⟩
    · rw [List.mem_singleton.1 hr]
      exact Or.inr ⟨rfl, congrArg some h₂⟩
  obtain ⟨g, hg, hgroup, f, hf, hus, hid, hne⟩ := hends
  refine ⟨by decide +kernel, by decide +kernel, by decide +kernel, g, hg, hgroup, f, hf, 1728000600000000, 999999999, ⟨hus, ?_⟩,
    fun r hr us' n' hn' => Or.inr ?_, hne⟩
  · rw [hid, ← h₁]
  · rcases hids r hr with hr | hr
    · obtain ⟨rfl, rfl⟩ := hr.unique hn'
      exact ⟨rfl, Nat.le_refl _⟩
    · obtain ⟨rfl, rfl⟩ := hr.unique hn'
      exact ⟨rfl, by decide⟩

theorem agreeingSilver_numbered : ∀ r ∈ agreeingSilver, ∃ n, r.NumberedAt 1728000600000000 n ∧ (toString n).length = 9 := by
  intro r hr
  obtain ⟨⟨h₁, hlen₁⟩, h₂, hlen₂⟩ : ("700000001" = toString 700000001 ∧ (toString 700000001).length = 9) ∧
      "700000002" = toString 700000002 ∧ (toString 700000002).length = 9 := by decide +kernel
  simp only [agreeingSilver, List.mem_cons, List.not_mem_nil, or_false] at hr
  rcases hr with rfl | rfl | rfl
  · exact ⟨700000001, ⟨rfl, congrArg some h₁⟩, hlen₁⟩
  · exact ⟨700000001, ⟨rfl, congrArg some h₁⟩, hlen₁⟩
  · exact ⟨700000002, ⟨rfl, congrArg some h₂⟩, hlen₂⟩

/-- Ids of nine digits: the bar opens with a first trade by number, and closes with the last. -/
theorem barsSource_ends_by_id_agreeing : ∃ g ∈ tiedSource agreeingSilver,
    (∃ f ∈ agreeingSilver, ∃ us n, f.NumberedAt us n ∧ g.bar.opening = f.price ∧ FirstBy (· ≤ ·) agreeingSilver us n) ∧
    ∃ l ∈ agreeingSilver, ∃ us n, l.NumberedAt us n ∧ g.bar.close = l.price ∧ LastBy (· ≤ ·) agreeingSilver us n := by
  obtain ⟨g, hg, hgroup⟩ : ∃ g ∈ tiedSource agreeingSilver,
      groupRows SilverRow.barKey g.key agreeingSilver = agreeingSilver := by decide +kernel
  have hnine : ∀ r ∈ agreeingSilver, ∀ us n, r.NumberedAt us n → (toString n).length = 9 := by
    intro r hr us n hn
    obtain ⟨m, hm, hlen⟩ := agreeingSilver_numbered r hr
    obtain ⟨-, rfl⟩ := hm.unique hn
    exact hlen
  have hnumbered : ∀ r ∈ groupRows SilverRow.barKey g.key agreeingSilver, ∃ us n, r.NumberedAt us n := by
    intro r hr
    obtain ⟨n, hn, -⟩ := agreeingSilver_numbered r (mem_groupRows.1 hr).1
    exact ⟨_, n, hn⟩
  obtain ⟨⟨f, hf, us, n, hn, hopening, -, hfirst⟩, l, hl, us', n', hn', hclose, -, hlast⟩ :=
    barsSource_ends_by_id agreeingSilver_computes hg hnumbered
  rw [hgroup] at hf hl hfirst hlast
  refine ⟨g, hg, ⟨f, hf, us, n, hn, hopening, hfirst.2 (fun r hr m hm => ?_)⟩,
    l, hl, us', n', hn', hclose, hlast.2 (fun r hr m hm => ?_)⟩
  · rw [hnine f hf us n hn, hnine r hr us m hm]
  · rw [hnine l hl us' n' hn', hnine r hr us' m hm]

end Awsnative
