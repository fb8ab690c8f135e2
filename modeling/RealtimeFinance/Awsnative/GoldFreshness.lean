import RealtimeFinance.Awsnative.GoldRebuild
import RealtimeFinance.Awsnative.SilverKeys
/-!
# GoldFreshness — whether a bar is the bar of its Silver rows, over runs of both pipelines

`MergeGold` learns what changed from a window of Bronze, not from the Silver merges before it.  `Tracked` keeps beside
the lake the Silver rows that no committed `MergeGold` has followed; every other row's bar is current
(`Tracked.Covered`), so a rebuild leaves all bars current exactly when its dirty set names the pending rows'
partitions (`barsCurrent_iff`), and all derived bars right exactly when it names those of them that have such a bar
(`derivedBars_iff`).
-/
namespace Awsnative

open Sql Runs

variable (hexMd5 : String → String)

/-- A lake, and the Silver rows inserted since the last committed `MergeGold`. -/
structure Tracked where
  lake : Lake
  pending : List SilverRow

def Tracked.empty : Tracked := ⟨Lake.empty, []⟩

def Tracked.rebuilds (t : Tracked) (st : Statement) : Option (List Partition) :=
  match st with
  | .mergeGoldBars1m now lookbackDays bronze =>
    if t.lake.commits hexMd5 st then some (dirtyFromBronze now lookbackDays bronze) else none
  | _ => none

def Tracked.step (t : Tracked) (st : Statement) : Tracked :=
  { lake := t.lake.step hexMd5 st
    pending := if (t.rebuilds hexMd5 st).isSome then []
               else t.pending ++ (t.lake.step hexMd5 st).silver.drop t.lake.silver.length }

theorem Lake.step_gold (lake : Lake) {st : Statement}
    (hst : ∀ now lookbackDays bronze, st ≠ .mergeGoldBars1m now lookbackDays bronze) :
    (lake.step hexMd5 st).gold = lake.gold ∨ Fills lake.gold (lake.step hexMd5 st).gold := by
  cases hc : lake.commits hexMd5 st with
  | false => exact Or.inl (by rw [Lake.step_of_not_commits hexMd5 hc])
  | true =>
    have he := Lake.exec_of_commits hexMd5 hc
    cases st with
    | mergeGoldBars1m now lookbackDays bronze => exact absurd rfl (hst now lookbackDays bronze)
    | mergeGoldFromArchive now staging =>
      obtain ⟨gold, hgold, he⟩ := bind_ok he
      rw [← Except.ok.inj he]
      exact Or.inr (mergeGoldFromArchive_fills hgold)
    | mergeSilverTrades | mergeSilverQuarantine | mergeSilverFromArchive =>
      obtain ⟨_, -, he⟩ := bind_ok he
      rw [← Except.ok.inj he]
      exact Or.inl rfl
    | optimizeSilverTrades rewritten =>
      rw [← Except.ok.inj he]
      split <;> exact Or.inl rfl

theorem Lake.step_mergeGoldBars1m {lake : Lake} {now : Int} {lookbackDays : Nat} {bronze : List BronzeRow}
    (hc : lake.commits hexMd5 (.mergeGoldBars1m now lookbackDays bronze) = true) :
    (lake.step hexMd5 (.mergeGoldBars1m now lookbackDays bronze)).silver = lake.silver ∧
      Rebuilds (dirtyFromBronze now lookbackDays bronze) lake.silver lake.gold
        (lake.step hexMd5 (.mergeGoldBars1m now lookbackDays bronze)).gold := by
  obtain ⟨gold, hgold, he⟩ := bind_ok (Lake.exec_of_commits hexMd5 hc)
  rw [← Except.ok.inj he]
  exact ⟨rfl, mergeGoldBars1m_rebuilds hgold⟩

theorem Lake.step_silver_drop (lake : Lake) (st : Statement) :
    (lake.step hexMd5 st).silver.Perm (lake.silver ++ (lake.step hexMd5 st).silver.drop lake.silver.length) := by
  rcases lake.step_silver hexMd5 st with ⟨source, -, -, -, hsilver⟩ | hperm
  · rw [hsilver, List.drop_left]
  · rw [List.drop_eq_nil_of_le (Nat.le_of_eq hperm.length_eq), List.append_nil]
    exact hperm

/-- A step is a committed `MergeGold`, or inserts rows into Silver and leaves Gold alone or fills it. -/
theorem Tracked.step_cases (t : Tracked) (st : Statement) :
    (∃ dirty, t.rebuilds hexMd5 st = some dirty ∧ (t.step hexMd5 st).pending = [] ∧
      (t.step hexMd5 st).lake.silver = t.lake.silver ∧
      Rebuilds dirty t.lake.silver t.lake.gold (t.step hexMd5 st).lake.gold) ∨
    (t.rebuilds hexMd5 st = none ∧ ∃ rows, (t.step hexMd5 st).pending = t.pending ++ rows ∧
      (t.step hexMd5 st).lake.silver.Perm (t.lake.silver ++ rows) ∧
      ((t.step hexMd5 st).lake.gold = t.lake.gold ∨ Fills t.lake.gold (t.step hexMd5 st).lake.gold)) := by
  cases hr : t.rebuilds hexMd5 st with
  | some dirty =>
    refine Or.inl ⟨dirty, rfl, by unfold Tracked.step; rw [hr]; rfl, ?_⟩
    unfold Tracked.rebuilds at hr
    split at hr
    · split at hr
      · rename_i hc
        cases hr
        exact Lake.step_mergeGoldBars1m hexMd5 hc
      · cases hr
    · cases hr
  | none =>
    refine Or.inr ⟨rfl, (t.lake.step hexMd5 st).silver.drop t.lake.silver.length, by unfold Tracked.step; rw [hr]; rfl,
      t.lake.step_silver_drop hexMd5 st, ?_⟩
    by_cases hst : ∃ now lookbackDays bronze, st = .mergeGoldBars1m now lookbackDays bronze
    · obtain ⟨now, lookbackDays, bronze, rfl⟩ := hst
      unfold Tracked.rebuilds at hr
      simp only [ite_eq_right_iff, reduceCtorEq, imp_false, Bool.not_eq_true] at hr
      exact Or.inl (by unfold Tracked.step; rw [Lake.step_of_not_commits hexMd5 hr])
    · exact t.lake.step_gold hexMd5 (fun now lookbackDays bronze h => hst ⟨now, lookbackDays, bronze, h⟩)

/-! ## What holds of every state

Three invariants: pending rows are Silver rows; a derived bar counts no pending row of its key (`Counted`); and a bar
without a pending row is current. -/

def Tracked.Counted (t : Tracked) : Prop :=
  ∀ g ∈ t.lake.gold, g.sourceTier = .derivedFromTrades → ∃ n : Nat, g.bar.tradeCount = some (n : Int) ∧
    n + (groupRows SilverRow.barKey g.key t.pending).length ≤ (groupRows SilverRow.barKey g.key t.lake.silver).length

def Tracked.Bookkept (t : Tracked) : Prop := t.Counted ∧ ∀ p ∈ t.pending, p ∈ t.lake.silver

theorem Tracked.step_bookkept {t : Tracked} (h : t.Bookkept) (st : Statement) : (t.step hexMd5 st).Bookkept := by
  obtain ⟨hcount, hsub⟩ := h
  rcases t.step_cases hexMd5 st with ⟨dirty, -, hpending, hsilver, hgold⟩ | ⟨-, rows, hpending, hsilver, hgold⟩
  · unfold Tracked.Bookkept Tracked.Counted
    rw [hpending, hsilver]
    refine ⟨fun g hg htier => ?_, fun p hp => by cases hp⟩
    by_cases hre : rebuilt dirty g.key = true ∧ ∃ s ∈ t.lake.silver, s.barKey = g.key
    · exact ⟨_, (hgold.fresh g hg hre.1 hre.2).2.tradeCount, Nat.le_refl _⟩
    · obtain ⟨n, hn, hle⟩ := hcount g ((hgold.keeps g hre).1 hg) htier
      exact ⟨n, hn, Nat.le_trans (Nat.le_add_right _ _) hle⟩
  · have hderived : ∀ g, g.sourceTier = .derivedFromTrades →
        (g ∈ (t.step hexMd5 st).lake.gold ↔ g ∈ t.lake.gold) := by
      rcases hgold with he | hfills
      · rw [he]
        exact fun _ _ => Iff.rfl
      · exact hfills.derived
    refine ⟨fun g hg htier => ?_, fun p hp => ?_⟩
    · obtain ⟨n, hn, hle⟩ := hcount g ((hderived g htier).1 hg) htier
      refine ⟨n, hn, ?_⟩
      rw [(groupRows_perm hsilver).length_eq, hpending, groupRows_append, groupRows_append, List.length_append,
        List.length_append]
      omega
    · rw [hpending] at hp
      rw [hsilver.mem_iff]
      rcases List.mem_append.1 hp with hp | hp
      · exact List.mem_append_left _ (hsub p hp)
      · exact List.mem_append_right _ hp

/-- **A derived bar with a pending row of its key is not the bar of its Silver rows.** -/
theorem Tracked.Counted.not_isBar {t : Tracked} (h : t.Counted) {g : GoldRow} (hg : g ∈ t.lake.gold)
    (htier : g.sourceTier = .derivedFromTrades) {p : SilverRow} (hp : p ∈ t.pending) (hpk : p.barKey = g.key) :
    ¬ IsBar t.lake.silver g.key g.bar := by
  intro hbar
  obtain ⟨n, hn, hle⟩ := h g hg htier
  have hcount := hbar.tradeCount
  rw [hn] at hcount
  have hpos : 0 < (groupRows SilverRow.barKey g.key t.pending).length :=
    List.length_pos_of_mem (mem_groupRows.2 ⟨hp, hpk⟩)
  have := Int.ofNat.inj (Option.some.inj hcount)
  omega

/-! ## Every bar current -/

/-- Gold has a row of the bar, and each of its rows is the derived bar of the Silver rows. -/
def Current (lake : Lake) (k : BarKey) : Prop :=
  (∃ g ∈ lake.gold, g.key = k) ∧
  ∀ g ∈ lake.gold, g.key = k → g.sourceTier = .derivedFromTrades ∧ IsBar lake.silver k g.bar

/-- After a committed `MergeGold`, every `(instrument_id, minute)` with Silver rows is current. -/
def BarsCurrent (t : Tracked) (st : Statement) : Prop :=
  (t.rebuilds hexMd5 st).isSome → ∀ s ∈ (t.step hexMd5 st).lake.silver, fullBarKey s.barKey = true →
    Current (t.step hexMd5 st).lake s.barKey

/-- **The dirty set names the partition of every pending row.** -/
def PendingNominated (t : Tracked) (st : Statement) : Prop :=
  ∀ dirty, t.rebuilds hexMd5 st = some dirty → ∀ p ∈ t.pending, fullBarKey p.barKey = true →
    rebuilt dirty p.barKey = true

def Tracked.Covered (t : Tracked) : Prop :=
  ∀ s ∈ t.lake.silver, fullBarKey s.barKey = true →
    Current t.lake s.barKey ∨ ∃ p ∈ t.pending, p.barKey = s.barKey

theorem barsCurrent_step_iff {t : Tracked} (hb : t.Bookkept) (hc : t.Covered) (st : Statement) :
    BarsCurrent hexMd5 t st ↔ PendingNominated hexMd5 t st := by
  rcases t.step_cases hexMd5 st with ⟨dirty, hr, -, hsilver, hgold⟩ | ⟨hr, -⟩
  · unfold BarsCurrent PendingNominated
    rw [hr, hsilver]
    constructor
    · intro h dirty' hd p hp hf
      cases hd
      by_cases hre : rebuilt dirty p.barKey = true
      · exact hre
      · obtain ⟨⟨g, hg, hgk⟩, hall⟩ := h rfl p (hb.2 p hp) hf
        obtain ⟨htier, hbar⟩ := hall g hg hgk
        rw [hsilver] at hbar
        have hold : g ∈ t.lake.gold := (hgold.keeps g (fun hn => hre (by rw [← hgk]; exact hn.1))).1 hg
        rw [← hgk] at hbar
        exact absurd hbar (hb.1.not_isBar hold htier hp hgk.symm)
    · intro h _ s hs hf
      unfold Current
      rw [hsilver]
      by_cases hre : rebuilt dirty s.barKey = true
      · obtain ⟨g, hg, hgk⟩ := hgold.covers s hs hre
        refine ⟨⟨g, hg, hgk⟩, fun g' hg' hgk' => ?_⟩
        rw [← hgk']
        exact hgold.fresh g' hg' (by rw [hgk']; exact hre) ⟨s, hs, hgk'.symm⟩
      · rcases hc s hs hf with ⟨⟨g, hg, hgk⟩, hall⟩ | ⟨p, hp, hpk⟩
        · have hkeep : ∀ g : GoldRow, g.key = s.barKey → (g ∈ (t.step hexMd5 st).lake.gold ↔ g ∈ t.lake.gold) :=
            fun g hgk => hgold.keeps g (fun hn => hre (by rw [← hgk]; exact hn.1))
          exact ⟨⟨g, (hkeep g hgk).2 hg, hgk⟩, fun g' hg' hgk' => hall g' ((hkeep g' hgk').1 hg') hgk'⟩
        · exact absurd (by rw [← hpk]; exact h dirty rfl p hp (by rw [hpk]; exact hf)) hre
  · unfold BarsCurrent PendingNominated
    rw [hr]
    exact iff_of_true (fun h => by cases h) (fun _ h => by cases h)

theorem groupRows_inserted {silver silver' rows : List SilverRow} {k : BarKey} (hp : silver'.Perm (silver ++ rows))
    (hnew : ∀ r ∈ rows, r.barKey ≠ k) :
    (groupRows SilverRow.barKey k silver).Perm (groupRows SilverRow.barKey k silver') := by
  have hnone : groupRows SilverRow.barKey k rows = [] :=
    List.filter_eq_nil_iff.2 (fun r hr => by simpa using hnew r hr)
  have hperm : (groupRows SilverRow.barKey k silver').Perm (groupRows SilverRow.barKey k (silver ++ rows)) :=
    groupRows_perm hp
  rw [groupRows_append, hnone, List.append_nil] at hperm
  exact hperm.symm

theorem Current.step {t : Tracked} {st : Statement} {rows : List SilverRow} {k : BarKey} (h : Current t.lake k)
    (hf : fullBarKey k = true) (hsilver : (t.step hexMd5 st).lake.silver.Perm (t.lake.silver ++ rows))
    (hnew : ∀ r ∈ rows, r.barKey ≠ k)
    (hgold : (t.step hexMd5 st).lake.gold = t.lake.gold ∨ Fills t.lake.gold (t.step hexMd5 st).lake.gold) :
    Current (t.step hexMd5 st).lake k := by
  obtain ⟨⟨g, hg, hgk⟩, hall⟩ := h
  have hgroup := groupRows_inserted hsilver hnew
  have hsame : ∀ g' : GoldRow, g'.key = k → (g' ∈ (t.step hexMd5 st).lake.gold ↔ g' ∈ t.lake.gold) := by
    intro g' hgk'
    rcases hgold with he | hfills
    · rw [he]
    · constructor
      · intro hg'
        rcases hfills.klines g' hg' with hold | ⟨r, hr, hrk, htier⟩ | hno
        · exact hold
        · rw [(hall r hr (hrk.trans hgk')).1] at htier
          cases htier
        · have := hno g hg (hgk.trans hgk'.symm)
          rw [hgk', hf] at this
          cases this
      · intro hg'
        exact (hfills.derived g' (hall g' hg' hgk').1).2 hg'
  exact ⟨⟨g, (hsame g hgk).2 hg, hgk⟩, fun g' hg' hgk' =>
    ⟨(hall g' ((hsame g' hgk').1 hg') hgk').1, (hall g' ((hsame g' hgk').1 hg') hgk').2.congr hgroup⟩⟩

theorem Tracked.step_covered {t : Tracked} {st : Statement} (hc : t.Covered) (hbars : BarsCurrent hexMd5 t st) :
    (t.step hexMd5 st).Covered := by
  intro s hs hf
  rcases t.step_cases hexMd5 st with ⟨dirty, hr, -⟩ | ⟨-, rows, hpending, hsilver, hgold⟩
  · exact Or.inl (hbars (by rw [hr]; rfl) s hs hf)
  · rw [hpending]
    by_cases hnew : ∃ r ∈ rows, r.barKey = s.barKey
    · obtain ⟨r, hr, hrk⟩ := hnew
      exact Or.inr ⟨r, List.mem_append_right _ hr, hrk⟩
    · have hnone : ∀ r ∈ rows, r.barKey ≠ s.barKey := fun r hr hrk => hnew ⟨r, hr, hrk⟩
      have hold : s ∈ t.lake.silver := by
        rcases List.mem_append.1 (hsilver.mem_iff.1 hs) with hs | hs
        · exact hs
        · exact absurd rfl (hnone s hs)
      rcases hc s hold hf with hcur | ⟨p, hp, hpk⟩
      · exact Or.inl (hcur.step hexMd5 hf hsilver hnone hgold)
      · exact Or.inr ⟨p, List.mem_append_left _ hp, hpk⟩

/-- **Over a run from the empty tables, every committed `MergeGold` leaves every bar current exactly when** each dirty
set names the partitions of all the Silver rows inserted since the `MergeGold` before. -/
theorem barsCurrent_iff (run : List Statement) :
    AllSteps (Tracked.step hexMd5) (BarsCurrent hexMd5) Tracked.empty run ↔
      AllSteps (Tracked.step hexMd5) (PendingNominated hexMd5) Tracked.empty run := by
  refine AllSteps.congr (I := fun t => t.Bookkept ∧ t.Covered) (fun t st hi => barsCurrent_step_iff hexMd5 hi.1 hi.2 st)
    (fun t st hi hp => ⟨t.step_bookkept hexMd5 hi.1 st, t.step_covered hexMd5 hi.2 hp⟩) ?_
  exact ⟨⟨fun g hg => (by cases hg), fun p hp => (by cases hp)⟩, fun s hs => (by cases hs)⟩

/-- A trade that reached Silver five minutes after its event, in an execution whose `MergeGold` failed. -/
def firstTrade : BronzeRow := { keylessTrade with tradeId := some "7" }

/-- The pipeline paused: two days later Bronze still has the trade, and the window no longer. -/
def pausedRun : List Execution :=
  [{ silver := some (1728000900000, [firstTrade]), quarantine := some (1728000900000, [firstTrade]), gold := none },
    { silver := some (1728172800000, [firstTrade]), quarantine := some (1728172800000, [firstTrade])
      gold := some (1728172860000, [firstTrade]) }]

theorem paused_run_loses_a_bar :
    ¬ ∀ (hexMd5 : String → String) (xs : List Execution), Scheduled (xs.flatMap Execution.statements) →
      AllSteps (Tracked.step hexMd5) (BarsCurrent hexMd5) Tracked.empty (xs.flatMap Execution.statements) := by
  intro h
  have hrun : Scheduled (pausedRun.flatMap Execution.statements) := ⟨by decide, by decide, by decide, by decide⟩
  have hlast := h id pausedRun hrun _ (.mergeGoldBars1m 1728172860000 1 [firstTrade]) []
    (show pausedRun.flatMap Execution.statements = (pausedRun.flatMap Execution.statements).dropLast ++ _ from rfl)
  obtain ⟨⟨g, hg, -⟩, -⟩ := hlast (by decide) _ (List.head_mem (by decide)) (by decide)
  exact absurd hg (List.eq_nil_iff_forall_not_mem.1 (by decide) g)

/-! ## Every derived bar right -/

/-- After a committed `MergeGold`, every derived bar is the bar of its Silver rows. -/
def DerivedBars (t : Tracked) (st : Statement) : Prop :=
  (t.rebuilds hexMd5 st).isSome → ∀ g ∈ (t.step hexMd5 st).lake.gold, g.sourceTier = .derivedFromTrades →
    IsBar (t.step hexMd5 st).lake.silver g.key g.bar

/-- **The dirty set names the partition of every pending row that has a derived bar.** -/
def PendingBarsNominated (t : Tracked) (st : Statement) : Prop :=
  ∀ dirty, t.rebuilds hexMd5 st = some dirty → ∀ p ∈ t.pending,
    (∃ g ∈ t.lake.gold, g.key = p.barKey ∧ g.sourceTier = .derivedFromTrades) → rebuilt dirty p.barKey = true

/-- A derived bar without a pending row is right. -/
def Tracked.Right (t : Tracked) : Prop :=
  ∀ g ∈ t.lake.gold, g.sourceTier = .derivedFromTrades →
    IsBar t.lake.silver g.key g.bar ∨ ∃ p ∈ t.pending, p.barKey = g.key

theorem derivedBars_step_iff {t : Tracked} (hb : t.Bookkept) (hright : t.Right) (st : Statement) :
    DerivedBars hexMd5 t st ↔ PendingBarsNominated hexMd5 t st := by
  rcases t.step_cases hexMd5 st with ⟨dirty, hr, -, hsilver, hgold⟩ | ⟨hr, -⟩
  · unfold DerivedBars PendingBarsNominated
    rw [hr, hsilver]
    constructor
    · rintro h dirty' hd p hp ⟨g, hg, hgk, htier⟩
      cases hd
      by_cases hre : rebuilt dirty p.barKey = true
      · exact hre
      · have hnew := (hgold.keeps g (fun hn => hre (by rw [← hgk]; exact hn.1))).2 hg
        exact absurd (h rfl g hnew htier) (hb.1.not_isBar hg htier hp hgk.symm)
    · intro h _ g hg htier
      by_cases hre : rebuilt dirty g.key = true ∧ ∃ s ∈ t.lake.silver, s.barKey = g.key
      · exact (hgold.fresh g hg hre.1 hre.2).2
      · have hold := (hgold.keeps g hre).1 hg
        rcases hright g hold htier with hbar | ⟨p, hp, hpk⟩
        · exact hbar
        · have hnamed := h dirty rfl p hp ⟨g, hold, hpk.symm, htier⟩
          rw [hpk] at hnamed
          exact absurd ⟨hnamed, p, hb.2 p hp, hpk⟩ hre
  · unfold DerivedBars PendingBarsNominated
    rw [hr]
    exact iff_of_true (fun h => by cases h) (fun _ h => by cases h)

theorem Tracked.step_right {t : Tracked} {st : Statement} (hright : t.Right) (hbars : DerivedBars hexMd5 t st) :
    (t.step hexMd5 st).Right := by
  intro g hg htier
  rcases t.step_cases hexMd5 st with ⟨dirty, hr, -⟩ | ⟨-, rows, hpending, hsilver, hgold⟩
  · exact Or.inl (hbars (by rw [hr]; rfl) g hg htier)
  · have hold : g ∈ t.lake.gold := by
      rcases hgold with he | hfills
      · rw [← he]
        exact hg
      · exact (hfills.derived g htier).1 hg
    rw [hpending]
    by_cases hnew : ∃ r ∈ rows, r.barKey = g.key
    · obtain ⟨r, hr, hrk⟩ := hnew
      exact Or.inr ⟨r, List.mem_append_right _ hr, hrk⟩
    · rcases hright g hold htier with hbar | ⟨p, hp, hpk⟩
      · exact Or.inl (hbar.congr (groupRows_inserted hsilver (fun r hr hrk => hnew ⟨r, hr, hrk⟩)))
      · exact Or.inr ⟨p, List.mem_append_left _ hp, hpk⟩

/-- **Over a run from the empty tables, every committed `MergeGold` leaves every derived bar right exactly when** each
dirty set names the partitions of the rows, from either writer, that joined a derived bar since the `MergeGold`
before. -/
theorem derivedBars_iff (run : List Statement) :
    AllSteps (Tracked.step hexMd5) (DerivedBars hexMd5) Tracked.empty run ↔
      AllSteps (Tracked.step hexMd5) (PendingBarsNominated hexMd5) Tracked.empty run := by
  refine AllSteps.congr (I := fun t => t.Bookkept ∧ t.Right)
    (fun t st hi => derivedBars_step_iff hexMd5 hi.1 hi.2 st)
    (fun t st hi hp => ⟨t.step_bookkept hexMd5 hi.1 st, t.step_right hexMd5 hi.2 hp⟩) ?_
  exact ⟨⟨fun g hg => (by cases hg), fun p hp => (by cases hp)⟩, fun g hg => (by cases hg)⟩

/-- An archive trade of the same minute, loaded two days later. -/
def archiveTrade : StagedTrade :=
  { instrumentId := some "BTC-USD", venue := some "binance", venueSymbol := some "BTCUSDT", aggTradeId := some "8"
    price := some "60001", quantity := some "0.5", eventTsUs := some "1728000601000000", side := some "SELL" }

def backfilledRun : List Statement :=
  [.mergeSilverTrades 1728000900000 1 [firstTrade], .mergeSilverQuarantine 1728000900000 1 [firstTrade],
    .mergeGoldBars1m 1728000960000 1 [firstTrade],
    .mergeSilverFromArchive 1728172500000 [archiveTrade], .mergeGoldFromArchive 1728172560000 [],
    .mergeSilverTrades 1728172800000 1 [firstTrade], .mergeSilverQuarantine 1728172800000 1 [firstTrade],
    .mergeGoldBars1m 1728172860000 1 [firstTrade]]

theorem backfill_misses_a_rebuilt_bar :
    ¬ ∀ (hexMd5 : String → String) (run : List Statement), Scheduled run →
      AllSteps (Tracked.step hexMd5) (DerivedBars hexMd5) Tracked.empty run := by
  intro h
  have hrun : Scheduled backfilledRun := ⟨by decide, by decide, by decide, by decide⟩
  have hlast := h id backfilledRun hrun _ (.mergeGoldBars1m 1728172860000 1 [firstTrade]) []
    (show backfilledRun = backfilledRun.dropLast ++ _ from rfl)
  have hbar := (hlast (by decide) _ (List.head_mem (by decide)) (by decide)).tradeCount
  exact absurd hbar (by decide)

end Awsnative
