import Mathlib.Data.Int.ConditionallyCompleteOrder
import Mathlib.Data.Prod.Lex
import Mathlib.Data.String.Basic
import Mathlib.Order.WithBot
import RealtimeFinance.Sql.Value
import RealtimeFinance.Awsnative.BarEnds
import RealtimeFinance.Awsnative.Bars
/-!
# BarsInStep — `merge_gold_bars_1m.sql` beside `bar_from_trades`

The statement and the function build a bar of the same trades, the function from a list of them in
`(event_ts_us, trade_id)` order.  They agree on sums and extremes.  The statement multiplies factors of nine places, so
the notionals agree when nothing is lost there, and the ends when no listing is free to choose them
(`barsSource_inStep_iff`).
-/
namespace Awsnative

open Sql

/-- A row with its amounts. -/
def SilverRow.Priced (s : SilverRow) : Prop := s.price.isSome = true ∧ s.size.isSome = true

def tradeOf (s : SilverRow) : Bars.Trade := { price := valueOf s.price, size := valueOf s.size, side := s.side }

/-- The columns that both compute in decimals are equal. -/
structure SameBar {F : Type} (bar : Bar) (b : Bars.Bar F) : Prop where
  opening : bar.opening.map Decimal.value = some b.opening
  high : bar.high.map Decimal.value = some b.high
  low : bar.low.map Decimal.value = some b.low
  close : bar.close.map Decimal.value = some b.close
  volume : bar.volume.map Decimal.value = some b.volume
  notional : bar.notional.map Decimal.value = some b.notional
  buyVol : bar.buyVol.map Decimal.value = some b.buyVol
  sellVol : bar.sellVol.map Decimal.value = some b.sellVol
  tradeCount : bar.tradeCount = some (b.tradeCount : Int)

/-! ## Listings -/

/-- `listing` is the rows in `(event_ts_us, trade_id)` order. -/
def InOrder (rows listing : List SilverRow) : Prop :=
  listing.Perm rows ∧ listing.Pairwise (fun a b => rowLt b a ≠ .ok true)

theorem rowLt_irrefl (r : SilverRow) : rowLt r r ≠ .ok true := by
  intro h
  have hfalse := rowLt_ranks.asymm h
  rw [h] at hfalse
  cases hfalse

theorem InOrder.head_least {rows rest : List SilverRow} {f : SilverRow} (h : InOrder rows (f :: rest)) :
    Least rowLt rows f := by
  obtain ⟨hperm, hpairs⟩ := h
  refine ⟨hperm.mem_iff.1 List.mem_cons_self, fun r hr => ?_⟩
  rcases List.mem_cons.1 (hperm.mem_iff.2 hr) with rfl | hr
  · exact rowLt_irrefl r
  · exact (List.pairwise_cons.1 hpairs).1 r hr

theorem InOrder.last_greatest {rows rest : List SilverRow} {l : SilverRow} (h : InOrder rows (rest ++ [l])) :
    Least rowGt rows l := by
  obtain ⟨hperm, hpairs⟩ := h
  refine ⟨hperm.mem_iff.1 (List.mem_append_right _ List.mem_cons_self), fun r hr => ?_⟩
  rcases List.mem_append.1 (hperm.mem_iff.2 hr) with hr | hr
  · exact (List.pairwise_append.1 hpairs).2.2 r hr l List.mem_cons_self
  · rw [List.mem_singleton.1 hr]
    exact rowLt_irrefl l

theorem InOrder.ends {rows listing : List SilverRow} (hne : rows ≠ []) (h : InOrder rows listing) :
    ∃ f l, listing.head? = some f ∧ listing.getLast? = some l ∧ Least rowLt rows f ∧ Least rowGt rows l := by
  have hlisting : listing ≠ [] := fun hnil => hne (List.Perm.eq_nil (hnil ▸ h.1).symm)
  obtain ⟨f, rest, hfirst⟩ := List.exists_cons_of_ne_nil hlisting
  obtain ⟨rest', l, hlast⟩ := (List.eq_nil_or_concat listing).resolve_left hlisting
  rw [List.concat_eq_append] at hlast
  refine ⟨f, l, by rw [hfirst]; rfl, by rw [hlast]; exact List.getLast?_concat, ?_, ?_⟩
  · rw [hfirst] at h
    exact h.head_least
  · rw [hlast] at h
    exact h.last_greatest

/-- `(event_ts_us, trade_id)` with a NULL before everything. -/
def rank (s : SilverRow) : WithBot Int ×ₗ WithBot String := toLex (s.eventTsUs, s.tradeId)

theorem rank_lt_of_rowLt {a b : SilverRow} (h : rowLt a b = .ok true) : rank a < rank b := by
  obtain ⟨x, y, ha, hb, hlt⟩ := rowLt_eq_true.1 h
  unfold rank
  rw [Prod.Lex.toLex_lt_toLex, ha, hb]
  rcases hlt with hlt | ⟨rfl, s, t, hs, ht, hlt⟩
  · exact Or.inl (WithBot.coe_lt_coe.2 hlt)
  · rw [hs, ht]
    exact Or.inr ⟨rfl, WithBot.coe_lt_coe.2 hlt⟩

def sorted (rows : List SilverRow) : List SilverRow := rows.mergeSort (fun a b => decide (rank a ≤ rank b))

theorem sorted_perm (rows : List SilverRow) : (sorted rows).Perm rows := List.mergeSort_perm _ _

theorem sorted_pairwise (rows : List SilverRow) : (sorted rows).Pairwise (fun a b => rowLt b a ≠ .ok true) := by
  have hsorted : (sorted rows).Pairwise (fun a b => decide (rank a ≤ rank b) = true) := by
    apply List.pairwise_mergeSort
    · intro a b c hab hbc
      exact decide_eq_true ((of_decide_eq_true hab).trans (of_decide_eq_true hbc))
    · intro a b
      simp only [Bool.or_eq_true, decide_eq_true_eq]
      exact le_total _ _
  exact hsorted.imp (fun hab hlt => not_lt.2 (of_decide_eq_true hab) (rank_lt_of_rowLt hlt))

/-- **Every row tied for first can head a listing.** -/
theorem exists_inOrder_head {rows : List SilverRow} {f : SilverRow} (hf : Least rowLt rows f) :
    ∃ rest, InOrder rows (f :: rest) := by
  have hperm : (f :: sorted (rows.erase f)).Perm rows :=
    ((sorted_perm (rows.erase f)).cons f).trans (List.perm_cons_erase hf.1).symm
  refine ⟨sorted (rows.erase f), hperm, List.pairwise_cons.2 ⟨fun r hr => ?_, sorted_pairwise _⟩⟩
  exact hf.2 r (List.mem_of_mem_erase ((sorted_perm _).mem_iff.1 hr))

theorem exists_inOrder_last {rows : List SilverRow} {l : SilverRow} (hl : Least rowGt rows l) :
    ∃ rest, InOrder rows (rest ++ [l]) := by
  have hperm : (sorted (rows.erase l) ++ [l]).Perm rows :=
    (List.perm_append_comm.trans ((sorted_perm (rows.erase l)).cons l)).trans (List.perm_cons_erase hl.1).symm
  refine ⟨sorted (rows.erase l), hperm, List.pairwise_append.2 ⟨sorted_pairwise _, List.pairwise_singleton _ _, ?_⟩⟩
  intro r hr l' hl'
  rw [List.mem_singleton.1 hl']
  exact hl.2 r (List.mem_of_mem_erase ((sorted_perm _).mem_iff.1 hr))

/-! ## The measures -/

/-- **The notional loses nothing at nine places**: the products of the factors at nine places, in units of the eighteenth,
add up to the products of the factors. -/
def NotionalExact (rows : List SilverRow) : Prop :=
  (rows.map SilverRow.product).sum * 10 ^ 18 = (rows.map (fun r => unitsOf r.price * unitsOf r.size)).sum

theorem SilverRow.Priced.price_value {r : SilverRow} (h : r.Priced) :
    r.price.map Decimal.value = some (tradeOf r).price := value_of_isSome h.1

theorem valueOf_sizeIfSide (side : String) (r : SilverRow) : valueOf (sizeIfSide side r) = (tradeOf r).sizeOn side := by
  have hside : equals r.side (some side) = some true ↔ (tradeOf r).side = some side := by
    rw [equals_eq_true]
    exact ⟨And.left, fun h => ⟨h, by rw [show r.side = some side from h]; rfl⟩⟩
  unfold sizeIfSide Bars.Trade.sizeOn
  by_cases h : (tradeOf r).side = some side
  · rw [if_pos h, if_pos (hside.2 h)]
    rfl
  · rw [if_neg h, if_neg (fun h' => h (hside.1 h'))]
    exact zero_div _

theorem SilverRow.Priced.sizeIfSide_isSome {r : SilverRow} (h : r.Priced) (side : String) :
    (sizeIfSide side r).isSome = true := by
  unfold sizeIfSide
  split
  · exact h.2
  · rfl

theorem SilverRow.Priced.product_isSome {r : SilverRow} (h : r.Priced) {d : Option (Decimal 38 18)}
    (hd : productOf r = .ok d) : d.isSome = true := by
  obtain ⟨p, hp⟩ := Option.isSome_iff_exists.1 h.1
  obtain ⟨z, hz⟩ := Option.isSome_iff_exists.1 h.2
  unfold productOf at hd
  rw [hp, hz] at hd
  obtain ⟨x, -, hd⟩ := bind_ok hd
  obtain ⟨y, -, hd⟩ := bind_ok hd
  split at hd <;> cases hd
  rfl

/-- The notional of the function. -/
theorem sum_products (rows : List SilverRow) : (rows.map (fun r => (tradeOf r).price * (tradeOf r).size)).sum =
    (((rows.map (fun r => unitsOf r.price * unitsOf r.size)).sum : Int) : ℚ) / 10 ^ 36 := by
  rw [sum_unscaled_div, List.map_map]
  congr 1
  apply List.map_congr_left
  intro r _
  show valueOf r.price * valueOf r.size = ((unitsOf r.price * unitsOf r.size : Int) : ℚ) / 10 ^ 36
  unfold valueOf
  rw [div_mul_div_comm, ← pow_add, Int.cast_mul]

section Measures

variable {F : Type} {rows listing : List SilverRow} (hne : rows ≠ []) (hpriced : ∀ r ∈ rows, r.Priced) {bar : Bar}
  {first last : Option SilverRow} {products : List (Option (Decimal 38 18))}

include hne in
theorem sum_sameValue {f : SilverRow → Option (Decimal 38 18)} (hsome : ∀ r ∈ rows, (f r).isSome = true)
    {total : Option (Decimal 38 18)} (h : sumDecimal (rows.filterMap f) = .ok total) :
    total.map Decimal.value = some ((rows.map (fun r => valueOf (f r))).sum) := by
  have hmap : rows.filterMap f = (rows.map f).filterMap id := by
    rw [List.filterMap_map]
    rfl
  rw [hmap] at h
  have hvalue := sumDecimal_value (fun hnil => hne (List.map_eq_nil_iff.1 hnil)) (fun d hd => by
    obtain ⟨r, hr, rfl⟩ := List.mem_map.1 hd
    exact hsome r hr) h
  rw [hvalue, sum_valueOf, List.map_map]
  rfl

include hne hpriced

/-- The notional of the statement. -/
theorem notional_value (hc : Computed rows bar first last products) :
    bar.notional.map Decimal.value = some ((((rows.map SilverRow.product).sum : Int) : ℚ) / 10 ^ 18) := by
  have hproducts := mapM_map_eq (fun s d hd => productOf_ok hd) hc.multiplies
  have hsome : ∀ d ∈ products, d.isSome = true := by
    intro d hd
    obtain ⟨r, hr, hrd⟩ := (mapM_ok hc.multiplies).2 d hd
    exact (hpriced r hr).product_isSome hrd
  have hnil : products ≠ [] := by
    rintro rfl
    rw [List.map_nil] at hproducts
    exact hne (List.map_eq_nil_iff.1 hproducts.symm)
  rw [sumDecimal_value hnil hsome hc.notional, hproducts]

theorem notional_same_iff (hc : Computed rows bar first last products) (hperm : listing.Perm rows) {b : Bars.Bar F}
    (hb : Bars.Sums (listing.map tradeOf) b) :
    bar.notional.map Decimal.value = some b.notional ↔ NotionalExact rows := by
  have hfunction : b.notional = (((rows.map (fun r => unitsOf r.price * unitsOf r.size)).sum : Int) : ℚ) / 10 ^ 36 := by
    rw [hb.notional, List.map_map, ← sum_products, ← (hperm.map _).sum_eq]
    rfl
  have hstatement : (((rows.map SilverRow.product).sum : Int) : ℚ) / 10 ^ 18 =
      (((rows.map SilverRow.product).sum * 10 ^ 18 : Int) : ℚ) / 10 ^ 36 := by
    rw [Int.cast_mul, div_eq_div_iff (by norm_num) (by norm_num), mul_assoc]
    norm_num
  rw [notional_value hne hpriced hc, hfunction, hstatement, Option.some_inj, div_left_inj' (by norm_num), Int.cast_inj]
  rfl

/-- The statement and the function see the same prices. -/
theorem prices_same (hperm : listing.Perm rows) : rows.filterMap SilverRow.price ≠ [] ∧
    {q | q ∈ (rows.filterMap SilverRow.price).map Decimal.value} = {q | q ∈ (listing.map tradeOf).map Bars.Trade.price} := by
  have hprice : ∀ r ∈ rows, ∃ d, r.price = some d ∧ d.value = (tradeOf r).price := by
    intro r hr
    exact Option.map_eq_some_iff.1 (hpriced r hr).price_value
  constructor
  · obtain ⟨r, hr⟩ := List.exists_mem_of_ne_nil rows hne
    obtain ⟨d, hd, -⟩ := hprice r hr
    exact List.ne_nil_of_mem (List.mem_filterMap.2 ⟨r, hr, hd⟩)
  · ext q
    simp only [Set.mem_ofPred_eq, List.mem_map, List.mem_filterMap, List.map_map, Function.comp_apply]
    constructor
    · rintro ⟨d, ⟨r, hr, hd⟩, rfl⟩
      obtain ⟨d', hd', hvalue⟩ := hprice r hr
      rw [hd] at hd'
      cases hd'
      exact ⟨r, hperm.mem_iff.2 hr, hvalue.symm⟩
    · rintro ⟨r, hr, rfl⟩
      obtain ⟨d, hd, hvalue⟩ := hprice r (hperm.mem_iff.1 hr)
      exact ⟨d, ⟨r, hperm.mem_iff.1 hr, hd⟩, hvalue⟩

/-- **Sums and extremes agree.** -/
theorem measures_same (hc : Computed rows bar first last products) (hperm : listing.Perm rows) {b : Bars.Bar F}
    (hb : Bars.Sums (listing.map tradeOf) b) (hopening : bar.opening.map Decimal.value = some b.opening)
    (hclose : bar.close.map Decimal.value = some b.close) (hexact : NotionalExact rows) : SameBar bar b := by
  obtain ⟨hprices, hsame⟩ := prices_same hne hpriced hperm
  obtain ⟨high, hhigh, hgreatest⟩ := maxDecimal_isGreatest hprices
  obtain ⟨low, hlow, hleast⟩ := minDecimal_isLeast hprices
  rw [hsame] at hgreatest hleast
  have hsum : ∀ f : SilverRow → Option (Decimal 38 18), ∀ g : Bars.Trade → ℚ, (∀ r, valueOf (f r) = g (tradeOf r)) →
      (rows.map (fun r => valueOf (f r))).sum = ((listing.map tradeOf).map g).sum := by
    intro f g hfg
    rw [List.map_map, ← (hperm.map (fun r => valueOf (f r))).sum_eq]
    exact congrArg List.sum (List.map_congr_left (fun r _ => hfg r))
  exact {
    opening := hopening
    high := by
      rw [hc.high, hhigh]
      exact congrArg some (hgreatest.unique hb.high)
    low := by
      rw [hc.low, hlow]
      exact congrArg some (hleast.unique hb.low)
    close := hclose
    volume := by
      rw [sum_sameValue hne (fun r hr => (hpriced r hr).2) hc.volume, hb.volume, hsum _ Bars.Trade.size (fun _ => rfl)]
    notional := (notional_same_iff hne hpriced hc hperm hb).2 hexact
    buyVol := by
      rw [sum_sameValue hne (fun r hr => (hpriced r hr).sizeIfSide_isSome "BUY") hc.buyVol, hb.buyVol,
        hsum _ _ (valueOf_sizeIfSide "BUY")]
    sellVol := by
      rw [sum_sameValue hne (fun r hr => (hpriced r hr).sizeIfSide_isSome "SELL") hc.sellVol, hb.sellVol,
        hsum _ _ (valueOf_sizeIfSide "SELL")]
    tradeCount := by
      rw [hc.tradeCount, hb.tradeCount, List.length_map, hperm.length_eq] }

end Measures

/-! ## In step -/

/-- `math.log` of the quotient of two prices as doubles: it is defined where the quotient is positive. -/
def LogDomain {F : Type} (math : Bars.FloatMath F) : Prop := ∀ close opening : Decimal 38 18,
  (∃ x, math.sqLogReturn close.value opening.value = .ok x) ↔ 0 < close.unscaled * opening.unscaled

/-- **What keeps the statement and the function in step.** -/
structure InStep (rows : List SilverRow) : Prop where
  ends : EndsAgree rows
  logarithm : ∀ f l, Least rowLt rows f → Least rowGt rows l → 0 < unitsOf l.price * unitsOf f.price
  notional : NotionalExact rows

/-- The function makes the bar of every listing. -/
def MakesBar {F : Type} (math : Bars.FloatMath F) (rows : List SilverRow) (bar : Bar) : Prop :=
  ∀ listing, InOrder rows listing → ∃ b, Bars.barOfTrades math (listing.map tradeOf) = .ok b ∧ SameBar bar b

section InStep

variable {F : Type} {math : Bars.FloatMath F} (hmath : LogDomain math) {rows : List SilverRow} (hne : rows ≠ [])
  (hpriced : ∀ r ∈ rows, r.Priced) {bar : Bar}

include hmath in
theorem logarithm_iff {f l : SilverRow} (hf : f.Priced) (hl : l.Priced) :
    (∃ x, math.sqLogReturn (tradeOf l).price (tradeOf f).price = .ok x) ↔ 0 < unitsOf l.price * unitsOf f.price := by
  obtain ⟨d, hd, hdvalue⟩ := Option.map_eq_some_iff.1 hf.price_value
  obtain ⟨e, he, hevalue⟩ := Option.map_eq_some_iff.1 hl.price_value
  rw [← hdvalue, ← hevalue, hmath, hd, he]
  rfl

include hne in
/-- The ends of the function's bar are a least and a greatest row. -/
theorem function_ends {listing : List SilverRow} (h : InOrder rows listing) {b : Bars.Bar F}
    (hb : Bars.barOfTrades math (listing.map tradeOf) = .ok b) :
    ∃ f l, listing.head? = some f ∧ listing.getLast? = some l ∧ Least rowLt rows f ∧ Least rowGt rows l ∧
      b.opening = (tradeOf f).price ∧ b.close = (tradeOf l).price ∧
      ∃ x, math.sqLogReturn (tradeOf l).price (tradeOf f).price = .ok x := by
  obtain ⟨f, l, hfirst, hlast, hf, hl⟩ := h.ends hne
  obtain ⟨first, last, hfirst', hlast', hopening, hclose, hlog⟩ := Bars.barOfTrades_ends math hb
  rw [List.head?_map, hfirst] at hfirst'
  rw [List.getLast?_map, hlast] at hlast'
  cases hfirst'
  cases hlast'
  exact ⟨f, l, hfirst, hlast, hf, hl, hopening, hclose, hlog⟩

include hmath hne hpriced

theorem MakesBar.inStep (h : MakesBar math rows bar) (hbar : barOf rows = .ok bar) : InStep rows := by
  obtain ⟨first, last, products, hc⟩ := barOf_ok hbar
  obtain ⟨f₀, l₀, -, -, hf₀, hl₀, -⟩ := barOf_ends hne hbar
  have hvalue : Function.Injective (Decimal.value : Decimal 38 18 → ℚ) := Decimal.value_injective
  have hinj := Option.map_injective hvalue
  have hopening : ∀ f, Least rowLt rows f → f.price = bar.opening := by
    intro f hf
    obtain ⟨rest, hlisting⟩ := exists_inOrder_head hf
    obtain ⟨b, hb, hsame⟩ := h _ hlisting
    obtain ⟨f', l, hfirst, -, -, -, hprice, -⟩ := function_ends hne hlisting hb
    cases hfirst
    apply hinj
    rw [hsame.opening, hprice, (hpriced f hf.1).price_value]
  have hclose : ∀ l, Least rowGt rows l → l.price = bar.close := by
    intro l hl
    obtain ⟨rest, hlisting⟩ := exists_inOrder_last hl
    obtain ⟨b, hb, hsame⟩ := h _ hlisting
    obtain ⟨f, l', -, hlast, -, -, -, hprice, -⟩ := function_ends hne hlisting hb
    rw [List.getLast?_concat] at hlast
    cases hlast
    apply hinj
    rw [hsame.close, hprice, (hpriced l hl.1).price_value]
  obtain ⟨rest, hlisting⟩ := exists_inOrder_head hf₀
  obtain ⟨b, hb, hsame⟩ := h _ hlisting
  obtain ⟨f₁, l₁, -, -, hf₁, hl₁, -, -, hlog⟩ := function_ends hne hlisting hb
  have hpositive := (logarithm_iff hmath (hpriced f₁ hf₁.1) (hpriced l₁ hl₁.1)).1 hlog
  refine ⟨⟨fun f f' hf hf' => (hopening f hf).trans (hopening f' hf').symm,
    fun l l' hl hl' => (hclose l hl).trans (hclose l' hl').symm⟩, fun f l hf hl => ?_,
    (notional_same_iff hne hpriced hc hlisting.1 (Bars.barOfTrades_sums math hb)).1 hsame.notional⟩
  rw [(hopening f hf).trans (hopening f₁ hf₁).symm, (hclose l hl).trans (hclose l₁ hl₁).symm]
  exact hpositive

theorem InStep.makesBar (h : InStep rows) (hbar : barOf rows = .ok bar) : MakesBar math rows bar := by
  intro listing hlisting
  obtain ⟨first, last, products, hc⟩ := barOf_ok hbar
  obtain ⟨f₀, l₀, -, -, hf₀, hl₀, hopening, hclose⟩ := barOf_ends hne hbar
  obtain ⟨f, l, hfirst, hlast, hf, hl⟩ := hlisting.ends hne
  have hlogs : Bars.Logs math (listing.map tradeOf) := by
    intro first last hfirst' hlast'
    rw [List.head?_map, hfirst] at hfirst'
    rw [List.getLast?_map, hlast] at hlast'
    cases hfirst'
    cases hlast'
    exact (logarithm_iff hmath (hpriced f hf.1) (hpriced l hl.1)).2 (h.logarithm f l hf hl)
  have htrades : listing.map tradeOf ≠ [] := fun hnil => by
    rw [List.map_eq_nil_iff.1 hnil] at hfirst
    cases hfirst
  obtain ⟨b, hb⟩ := Bars.barOfTrades_ok math htrades hlogs
  obtain ⟨f', l', -, -, hf', hl', hprice, hprice', -⟩ := function_ends hne hlisting hb
  refine ⟨b, hb, measures_same hne hpriced hc hlisting.1 (Bars.barOfTrades_sums math hb) ?_ ?_ h.notional⟩
  · rw [hopening, h.ends.opening f₀ f' hf₀ hf', (hpriced f' hf'.1).price_value, hprice]
  · rw [hclose, h.ends.close l₀ l' hl₀ hl', (hpriced l' hl'.1).price_value, hprice']

end InStep

/-- **A bar of the statement is the function's bar of its trades, in every listing, exactly when the two are in step.** -/
theorem barsSource_inStep_iff {F : Type} {math : Bars.FloatMath F} (hmath : LogDomain math) (now : Int)
    (dirty : List Partition) {silver : List SilverRow} (hpriced : ∀ s ∈ silver, s.Priced) {source : List GoldRow}
    (h : barsSource now dirty silver = .ok source) : ∀ g ∈ source,
      (MakesBar math (groupRows SilverRow.barKey g.key silver) g.bar ↔ InStep (groupRows SilverRow.barKey g.key silver)) := by
  intro g hg
  obtain ⟨s, hs, -, hkey, hbar⟩ := mem_barsSource_bar h hg
  have hne : groupRows SilverRow.barKey g.key silver ≠ [] := by
    rw [hkey]
    exact group_ne_nil hs
  have hgroup : ∀ r ∈ groupRows SilverRow.barKey g.key silver, r.Priced := fun r hr => hpriced r (mem_groupRows.1 hr).1
  exact ⟨fun hmakes => hmakes.inStep hmath hne hgroup hbar, fun hstep => hstep.makesBar hmath hne hgroup hbar⟩

theorem firstOrder_logDomain : LogDomain Bars.firstOrder := by
  intro close opening
  have hpositive : (0 : ℚ) < close.value * opening.value ↔ 0 < close.unscaled * opening.unscaled := by
    unfold Decimal.value
    rw [div_mul_div_comm, div_pos_iff_of_pos_right (by positivity), ← Int.cast_mul, Int.cast_pos]
  rw [← hpositive]
  unfold Bars.firstOrder
  dsimp only
  by_cases h : 0 < close.value * opening.value
  · rw [if_pos h]
    exact iff_of_true ⟨_, rfl⟩ h
  · rw [if_neg h]
    exact iff_of_false (fun ⟨_, hx⟩ => by cases hx) h

theorem barsSource_inStep_iff_agreeing : ∃ g ∈ tiedSource agreeingSilver,
    MakesBar Bars.firstOrder (groupRows SilverRow.barKey g.key agreeingSilver) g.bar := by
  obtain ⟨g, hg, hgroup⟩ : ∃ g ∈ tiedSource agreeingSilver,
      groupRows SilverRow.barKey g.key agreeingSilver = agreeingSilver := by decide +kernel
  have hpriced : ∀ s ∈ agreeingSilver, s.Priced := by
    unfold SilverRow.Priced
    decide +kernel
  refine ⟨g, hg, (barsSource_inStep_iff firstOrder_logDomain _ _ hpriced agreeingSilver_computes g hg).2 ?_⟩
  rw [hgroup]
  refine ⟨agreeingSilver_agrees, fun f l hf hl => ?_, ?_⟩
  · rw [agreeingSilver_opens hf, agreeingSilver_closes hl]
    decide +kernel
  · unfold NotionalExact
    decide +kernel

/-! ## A price of ten places -/

/-- One trade of a minute, at the price. -/
def tradeAt (price : String) : SilverRow := tiedTrade "binance" "BTCUSDT" price

/-- The statement takes the tenth place of a price for nothing, and the function does not. -/
theorem tenth_place_out_of_step : (tradeAt "0.0000000001").Priced ∧
    barsSource 1728000900000 [(some "BTC-USD", 20000)] [tradeAt "0.0000000001"] =
      .ok (tiedSource [tradeAt "0.0000000001"]) ∧
    ∃ g ∈ tiedSource [tradeAt "0.0000000001"],
      ¬ MakesBar Bars.firstOrder (groupRows SilverRow.barKey g.key [tradeAt "0.0000000001"]) g.bar := by
  have hpriced : (tradeAt "0.0000000001").Priced := ⟨by decide +kernel, by decide +kernel⟩
  refine ⟨hpriced, by decide +kernel, ?_⟩
  have hbar : ∃ g ∈ tiedSource [tradeAt "0.0000000001"],
      groupRows SilverRow.barKey g.key [tradeAt "0.0000000001"] = [tradeAt "0.0000000001"] ∧
      barOf [tradeAt "0.0000000001"] = .ok g.bar := by decide +kernel
  obtain ⟨g, hg, hgroup, hbar⟩ := hbar
  refine ⟨g, hg, fun hmakes => ?_⟩
  rw [hgroup] at hmakes
  have hstep := hmakes.inStep firstOrder_logDomain (by simp) (fun r hr => by rw [List.mem_singleton.1 hr]; exact hpriced) hbar
  have hexact : ([tradeAt "0.0000000001"].map SilverRow.product).sum * 10 ^ 18 ≠
      ([tradeAt "0.0000000001"].map (fun r => unitsOf r.price * unitsOf r.size)).sum := by decide +kernel
  exact hexact hstep.notional

end Awsnative
