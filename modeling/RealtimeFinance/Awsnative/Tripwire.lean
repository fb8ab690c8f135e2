import RealtimeFinance.Awsnative.SilverKeys
/-!
# Tripwire — query 2 of `verify_silver_gold.sql`

The query looks in Silver for two rows of one `(venue, trade_id)` that differ in what a trade must not change.  Both
writers deduplicate before Silver and insert only what it lacks, so of a full key it never holds two rows: a disagreement
between copies is gone before the query can see it, and what the query can return is a key with a NULL
(`tripwire_not_full`).
-/
namespace Awsnative

open Sql Runs

variable (hexMd5 : String → String)

structure TripwireRow where
  venue : Option String
  tradeId : Option String
  rowCount : Nat
  distinctEventTs : Nat
  distinctPrice : Nat
  distinctSize : Nat
  deriving DecidableEq

def TripwireRow.key (r : TripwireRow) : Option String × Option String := (r.venue, r.tradeId)

def tripwireRow (silver : List SilverRow) (k : Option String × Option String) : TripwireRow :=
  let rows := groupRows SilverRow.key k silver
  { venue := k.1, tradeId := k.2, rowCount := rows.length
    distinctEventTs := countDistinct (rows.map SilverRow.eventTsUs)
    distinctPrice := countDistinct (rows.map SilverRow.price), distinctSize := countDistinct (rows.map SilverRow.size) }

/-- `HAVING`. -/
def TripwireRow.fires (r : TripwireRow) : Bool :=
  decide (1 < r.rowCount) || decide (1 < r.distinctEventTs) || decide (1 < r.distinctPrice) || decide (1 < r.distinctSize)

/-- Query 2, with its `LIMIT 100`. -/
def tripwire (silver : List SilverRow) : List TripwireRow :=
  (((groupKeys SilverRow.key silver).map (tripwireRow silver)).filter TripwireRow.fires).take 100

/-- What a trade must not change, and the query counts. -/
def SilverRow.checked (s : SilverRow) : Option Int × Option (Decimal 38 18) × Option (Decimal 38 18) :=
  (s.eventTsUs, s.price, s.size)

/-- A valid Bronze row that some merge of the run reads, as it would be written. -/
def BronzeCopy (run : List Statement) (s : SilverRow) : Prop :=
  ∃ now lookbackDays bronze, Statement.mergeSilverTrades now lookbackDays bronze ∈ run ∧
    ∃ b ∈ bronze, accepted now lookbackDays b = true ∧ silverOf b = .ok s

/-- A staged row of a merge of the run whose staging casts. -/
def StagedCopy (run : List Statement) (s : SilverRow) : Prop :=
  ∃ now staging rows, Statement.mergeSilverFromArchive now staging ∈ run ∧ staging.mapM (archiveRow now) = .ok rows ∧
    s ∈ rows

def Copy (run : List Statement) (s : SilverRow) : Prop := BronzeCopy run s ∨ StagedCopy run s

/-- Two valid source rows, one of them from Bronze, share a full key and disagree. -/
def Disagreement (run : List Statement) (k : Option String × Option String) : Prop :=
  fullKey k = true ∧ ∃ s t, BronzeCopy run s ∧ Copy run t ∧ s.key = k ∧ t.key = k ∧ s.checked ≠ t.checked

def CopiesAgree (run : List Statement) : Prop :=
  ∀ s t, Copy run s → Copy run t → s.key = t.key → s.checked = t.checked

/-- **The tripwire is complete**: it returns every key whose copies disagree, and nothing when all copies agree. -/
structure TripwireComplete (run : List Statement) : Prop where
  fires : ∀ k, Disagreement run k → k ∈ (tripwire (Lake.empty.run hexMd5 run).silver).map TripwireRow.key
  quiet : CopiesAgree run → tripwire (Lake.empty.run hexMd5 run).silver = []

/-! ## What the query can return -/

theorem tripwireRow_fires (silver : List SilverRow) (k : Option String × Option String) :
    (tripwireRow silver k).fires = true ↔ 1 < (groupRows SilverRow.key k silver).length := by
  have hevent := countDistinct_le ((groupRows SilverRow.key k silver).map SilverRow.eventTsUs)
  have hprice := countDistinct_le ((groupRows SilverRow.key k silver).map SilverRow.price)
  have hsize := countDistinct_le ((groupRows SilverRow.key k silver).map SilverRow.size)
  rw [List.length_map] at hevent hprice hsize
  unfold TripwireRow.fires tripwireRow
  simp only [Bool.or_eq_true, decide_eq_true_eq]
  omega

/-- **The query returns nothing exactly when** no two Silver rows share a key, NULL equal to NULL. -/
theorem tripwire_eq_nil_iff (silver : List SilverRow) : tripwire silver = [] ↔ (silver.map SilverRow.key).Nodup := by
  unfold tripwire
  rw [List.take_eq_nil_iff, List.filter_eq_nil_iff, List.nodup_iff_count_le_one]
  simp only [show (100 : Nat) ≠ 0 by decide, false_or]
  constructor
  · intro h k
    by_cases hk : k ∈ silver.map SilverRow.key
    · obtain ⟨s, hs, hsk⟩ := List.mem_map.1 hk
      have hgroup := h _ (List.mem_map_of_mem (mem_groupKeys.2 ⟨s, hs, hsk⟩))
      rw [tripwireRow_fires, length_groupRows] at hgroup
      omega
    · rw [List.count_eq_zero_of_not_mem hk]
      omega
  · intro h r hr
    obtain ⟨k, -, rfl⟩ := List.mem_map.1 hr
    rw [tripwireRow_fires, length_groupRows]
    have := h k
    omega

/-- **The query never returns a full key**, whatever the copies of it said. -/
theorem tripwire_not_full {silver : List SilverRow} (hu : UniqueKeys SilverRow.key fullKey silver)
    {k : Option String × Option String} (hk : k ∈ (tripwire silver).map TripwireRow.key) : fullKey k = false := by
  obtain ⟨r, hr, rfl⟩ := List.mem_map.1 hk
  obtain ⟨hr, hfires⟩ := List.mem_filter.1 (List.mem_of_mem_take hr)
  obtain ⟨k, -, rfl⟩ := List.mem_map.1 hr
  rw [tripwireRow_fires] at hfires
  cases hf : fullKey (tripwireRow silver k).key with
  | false => rfl
  | true =>
    have hpair : (groupRows SilverRow.key k silver).Pairwise (fun _ _ => False) := by
      refine (hu.filter _).imp_of_mem (fun hmem hmem' hne => ?_)
      have hkey := (mem_groupRows.1 hmem).2
      have hkey' := (mem_groupRows.1 hmem').2
      have hnot := hne (hkey.trans hkey'.symm)
      rw [hkey, show fullKey k = true from hf] at hnot
      cases hnot
    generalize groupRows SilverRow.key k silver = rows at hfires hpair
    match rows, hfires, hpair with
    | a :: b :: rest, _, hpair => exact (List.rel_of_pairwise_cons hpair List.mem_cons_self).elim

/-! ## When Silver holds a key twice -/

/-- **A row read with a NULL key is the first of it in Silver.** -/
def NullKeysNew (lake : Lake) (st : Statement) : Prop :=
  (∀ now lookbackDays bronze, st = .mergeSilverTrades now lookbackDays bronze →
    ∀ b ∈ bronze, accepted now lookbackDays b = true → fullKey b.key = true ∨ b.key ∉ lake.silver.map SilverRow.key) ∧
  (∀ now staging, st = .mergeSilverFromArchive now staging → lake.commits hexMd5 st = true →
    ∀ a ∈ staging, fullKey a.key = true ∨ a.key ∉ lake.silver.map SilverRow.key)

theorem nullKeysNew_source {lake : Lake} {st : Statement} (hc : lake.commits hexMd5 st = true) {source : List SilverRow}
    (h : st.SilverSource source) : NullKeysNew hexMd5 lake st ↔
      ∀ s ∈ source, fullKey s.key = true ∨ s.key ∉ lake.silver.map SilverRow.key := by
  rcases h with ⟨now, lookbackDays, bronze, rfl, hsource⟩ | ⟨now, staging, rows, rfl, hrows, rfl⟩
  · constructor
    · intro hnew s hs
      obtain ⟨b, hb, hacc, hbs⟩ := accepted_of_mem_source hsource hs
      rw [silverOf_key hbs]
      exact hnew.1 now lookbackDays bronze rfl b hb hacc
    · intro hnew
      refine ⟨fun now' lookbackDays' bronze' hst b hb hacc => ?_, fun _ _ hst => (by cases hst)⟩
      cases hst
      obtain ⟨s, hs, hsb⟩ := source_of_accepted hsource hb hacc
      rw [← hsb]
      exact hnew s hs
  · constructor
    · intro hnew s hs
      obtain ⟨a, ha, has⟩ := (mapM_ok hrows).2 s (mem_of_mem_rowNumberOne _ _ hs)
      rw [archiveRow_key has]
      exact hnew.2 now staging rfl hc a ha
    · intro hnew
      refine ⟨fun _ _ _ hst => (by cases hst), fun now' staging' hst _ a ha => ?_⟩
      cases hst
      obtain ⟨s, hs, hsa⟩ := source_of_staged hrows ha
      rw [← hsa]
      exact hnew s hs

/-- A statement that commits has a source, or does not write Silver. -/
theorem nullKeysNew_of_no_source {lake : Lake} {st : Statement}
    (h : lake.commits hexMd5 st = false ∨ ∀ source, ¬ st.SilverSource source) : NullKeysNew hexMd5 lake st := by
  constructor
  · intro now lookbackDays bronze hst
    subst hst
    obtain ⟨source, hsource, -, hcommits, -⟩ := lake.step_mergeSilverTrades hexMd5 now lookbackDays bronze
    rcases h with h | h
    · rw [hcommits] at h
      cases h
    · exact absurd (Or.inl ⟨now, lookbackDays, bronze, rfl, hsource⟩) (h source)
  · intro now staging hst hc
    subst hst
    obtain ⟨rows, hrows, -⟩ := Lake.step_mergeSilverFromArchive hexMd5 hc
    rcases h with h | h
    · rw [hc] at h
      cases h
    · exact absurd (Or.inr ⟨now, staging, rows, rfl, hrows, rfl⟩) (h _)

theorem uniqueNullSafe_step_iff (lake : Lake) (st : Statement) :
    UniqueNullSafe (lake.step hexMd5 st) ↔ UniqueNullSafe lake ∧ NullKeysNew hexMd5 lake st := by
  by_cases hsource : lake.commits hexMd5 st = true ∧ ∃ source, st.SilverSource source
  · obtain ⟨hc, source, hsource⟩ := hsource
    have hsilver := Lake.step_of_source hexMd5 hsource hc
    have hnodup : (source.map SilverRow.key).Nodup := by
      rcases hsource with ⟨now, lookbackDays, bronze, rfl, hrows⟩ | ⟨now, staging, rows, rfl, hrows, rfl⟩
      · obtain ⟨source', hsource', hnodup, -⟩ := lake.step_mergeSilverTrades hexMd5 now lookbackDays bronze
        rw [hrows] at hsource'
        cases hsource'
        exact hnodup
      · exact rowNumberOne_nodup _ _ _
    rw [nullKeysNew_source hexMd5 hc hsource]
    unfold UniqueNullSafe
    rw [hsilver]
    constructor
    · intro h
      have hu : (lake.silver.map SilverRow.key).Nodup := by
        rw [List.map_append] at h
        exact h.of_append_left
      exact ⟨hu, (nodup_inserted_iff hnodup hu).1 h⟩
    · rintro ⟨hu, hnew⟩
      exact (nodup_inserted_iff hnodup hu).2 hnew
  · have hnone : lake.commits hexMd5 st = false ∨ ∀ source, ¬ st.SilverSource source := by
      cases hc : lake.commits hexMd5 st with
      | false => exact Or.inl rfl
      | true => exact Or.inr (fun source hs => hsource ⟨hc, source, hs⟩)
    have hperm : (lake.step hexMd5 st).silver.Perm lake.silver := by
      rcases lake.step_silver hexMd5 st with ⟨source, hs, -, hc, -⟩ | hperm
      · exact absurd ⟨hc, source, hs⟩ hsource
      · exact hperm
    have hkeys : UniqueNullSafe (lake.step hexMd5 st) ↔ UniqueNullSafe lake := (hperm.map SilverRow.key).nodup_iff
    rw [hkeys]
    exact (and_iff_left (nullKeysNew_of_no_source hexMd5 hnone)).symm

theorem uniqueNullSafe_run_iff (run : List Statement) : ∀ lake : Lake, UniqueNullSafe (lake.run hexMd5 run) ↔
    UniqueNullSafe lake ∧ AllSteps (Lake.step hexMd5) (NullKeysNew hexMd5) lake run := by
  induction run with
  | nil =>
    intro lake
    exact (and_iff_left (allSteps_nil lake)).symm
  | cons st run ih =>
    intro lake
    rw [Lake.run_cons, ih, uniqueNullSafe_step_iff, allSteps_cons, and_assoc]

/-- **The tripwire is complete exactly when** no two valid source rows disagree, so that there is nothing to return, and
no key with a NULL is read again where all copies agree. -/
theorem tripwireComplete_iff (run : List Statement) :
    TripwireComplete hexMd5 run ↔ (∀ k, ¬ Disagreement run k) ∧
      (CopiesAgree run → AllSteps (Lake.step hexMd5) (NullKeysNew hexMd5) Lake.empty run) := by
  have hquiet : tripwire (Lake.empty.run hexMd5 run).silver = [] ↔
      AllSteps (Lake.step hexMd5) (NullKeysNew hexMd5) Lake.empty run := by
    rw [tripwire_eq_nil_iff]
    exact (uniqueNullSafe_run_iff hexMd5 run Lake.empty).trans (and_iff_right List.nodup_nil)
  constructor
  · rintro ⟨hfires, hnil⟩
    refine ⟨fun k hk => ?_, fun hagree => hquiet.1 (hnil hagree)⟩
    have hnot := tripwire_not_full (uniqueKeys_run hexMd5 run) (hfires k hk)
    rw [hk.1] at hnot
    cases hnot
  · rintro ⟨hnone, hnew⟩
    exact ⟨fun k hk => absurd hk (hnone k), fun hagree => hquiet.2 (hnew hagree)⟩

def pricedTrade : BronzeRow := { keylessTrade with tradeId := some "7" }

/-- Another copy of it, at another price. -/
def repricedTrade : BronzeRow := { pricedTrade with price := some "60001" }

theorem repriced_copy_is_not_returned :
    ¬ ∀ (hexMd5 : String → String) (run : List Statement), TripwireComplete hexMd5 run := by
  intro h
  have hprices : (silverOf pricedTrade).toOption.map SilverRow.price ≠
      (silverOf repricedTrade).toOption.map SilverRow.price := by decide
  obtain ⟨s, hs⟩ := silverOf_valid (show valid 1728000900000 pricedTrade = true by decide)
  obtain ⟨t, ht⟩ := silverOf_valid (show valid 1728000900000 repricedTrade = true by decide)
  have hacc : ∀ b ∈ [pricedTrade, repricedTrade], accepted 1728000900000 1 b = true := by decide
  have hread : ∀ b ∈ [pricedTrade, repricedTrade], ∀ r, silverOf b = .ok r →
      BronzeCopy [.mergeSilverTrades 1728000900000 1 [pricedTrade, repricedTrade]] r := fun b hb r hr =>
    ⟨1728000900000, 1, _, List.mem_singleton.2 rfl, b, hb, hacc b hb, hr⟩
  have hdiffer : s.checked ≠ t.checked := by
    intro he
    rw [hs, ht] at hprices
    exact hprices (congrArg some (congrArg (fun c => c.2.1) he))
  have hdis : Disagreement [.mergeSilverTrades 1728000900000 1 [pricedTrade, repricedTrade]]
      (some "binance", some "7") :=
    ⟨by decide, s, t, hread pricedTrade (by simp) s hs, Or.inl (hread repricedTrade (by simp) t ht), silverOf_key hs,
      silverOf_key ht, hdiffer⟩
  have hreturned := (h id [.mergeSilverTrades 1728000900000 1 [pricedTrade, repricedTrade]]).fires _ hdis
  exact absurd hreturned (by decide)

end Awsnative
