import Mathlib.Data.List.Perm.Subperm
import RealtimeFinance.Runs
import RealtimeFinance.Awsnative.Quarantine
import RealtimeFinance.Awsnative.GoldBars
/-!
# Lake — the three tables, and the statements that write them

A statement carries what it reads besides the three tables: its own `current_timestamp`, and Bronze or staging as it
scans them.  One that fails commits nothing.  `OPTIMIZE` rewrites a table's files: the same rows, scanned in another
order, so a run with it in between reaches every scan order of Silver.
-/
namespace Awsnative

open Sql Runs

structure Lake where
  silver : List SilverRow
  quarantine : List QuarantineRow
  gold : List GoldRow
  deriving DecidableEq

def Lake.empty : Lake := ⟨[], [], []⟩

inductive Statement
  | mergeSilverTrades (now : Int) (lookbackDays : Nat) (bronze : List BronzeRow)
  | mergeSilverQuarantine (now : Int) (lookbackDays : Nat) (bronze : List BronzeRow)
  | mergeGoldBars1m (now : Int) (lookbackDays : Nat) (bronze : List BronzeRow)
  | mergeSilverFromArchive (now : Int) (staging : List StagedTrade)
  | mergeGoldFromArchive (now : Int) (staging : List StagedKline)
  | optimizeSilverTrades (rewritten : List SilverRow)

def Statement.bronzeRead : Statement → Option (Int × Nat × List BronzeRow)
  | .mergeSilverTrades now lookbackDays bronze     => some (now, lookbackDays, bronze)
  | .mergeSilverQuarantine now lookbackDays bronze => some (now, lookbackDays, bronze)
  | .mergeGoldBars1m now lookbackDays bronze       => some (now, lookbackDays, bronze)
  | _                                              => none

/-- Micro-batch statements as they are scheduled: lookback one day, clocks that do not go back, a Bronze that only
grows, and no row read before the day it arrived. -/
structure Scheduled (run : List Statement) : Prop where
  lookback : ∀ r ∈ run.filterMap Statement.bronzeRead, r.2.1 = 1
  clocks : (run.filterMap Statement.bronzeRead).Pairwise (fun r r' => r.1 ≤ r'.1)
  grows : (run.filterMap Statement.bronzeRead).Pairwise (fun r r' => r.2.2.Subperm r'.2.2)
  arrived : ∀ r ∈ run.filterMap Statement.bronzeRead, ∀ b ∈ r.2.2, b.ingestDate ≤ currentDate r.1

/-- One execution of the micro-batch, each statement's clock and Bronze where it was reached and did not fail: the two
Silver merges, and after both of them `MergeGold`. -/
structure Execution where
  silver : Option (Int × List BronzeRow)
  quarantine : Option (Int × List BronzeRow)
  gold : Option (Int × List BronzeRow)

def Execution.statements (x : Execution) : List Statement :=
  x.silver.toList.map (fun r => .mergeSilverTrades r.1 1 r.2) ++
  x.quarantine.toList.map (fun r => .mergeSilverQuarantine r.1 1 r.2) ++
  if x.silver.isSome && x.quarantine.isSome then x.gold.toList.map (fun r => .mergeGoldBars1m r.1 1 r.2) else []

variable (hexMd5 : String → String)

def Lake.exec (lake : Lake) : Statement → Except Error Lake
  | .mergeSilverTrades now lookbackDays bronze => do
    return { lake with silver := ← mergeSilverTrades now lookbackDays bronze lake.silver }
  | .mergeSilverQuarantine now lookbackDays bronze => do
    return { lake with quarantine := ← mergeSilverQuarantine hexMd5 now lookbackDays bronze lake.quarantine }
  | .mergeGoldBars1m now lookbackDays bronze => do
    return { lake with gold := ← mergeGoldBars1m now lookbackDays bronze lake.silver lake.gold }
  | .mergeSilverFromArchive now staging => do
    return { lake with silver := ← mergeSilverFromArchive now staging lake.silver }
  | .mergeGoldFromArchive now staging => do
    return { lake with gold := ← mergeGoldFromArchive now staging lake.gold }
  | .optimizeSilverTrades rewritten =>
    .ok (if rewritten.isPerm lake.silver then { lake with silver := rewritten } else lake)

def Lake.commits (lake : Lake) (st : Statement) : Bool := (lake.exec hexMd5 st).isOk

def Lake.step (lake : Lake) (st : Statement) : Lake :=
  match lake.exec hexMd5 st with
  | .ok lake' => lake'
  | .error _  => lake

def Lake.run (lake : Lake) (run : List Statement) : Lake := run.foldl (Lake.step hexMd5) lake

theorem Lake.run_append (lake : Lake) (pre post : List Statement) :
    lake.run hexMd5 (pre ++ post) = (lake.run hexMd5 pre).run hexMd5 post := List.foldl_append

theorem Lake.run_cons (lake : Lake) (st : Statement) (run : List Statement) :
    lake.run hexMd5 (st :: run) = (lake.step hexMd5 st).run hexMd5 run := rfl

theorem Lake.step_of_not_commits {lake : Lake} {st : Statement} (h : lake.commits hexMd5 st = false) :
    lake.step hexMd5 st = lake := by
  unfold Lake.commits at h
  unfold Lake.step
  cases he : lake.exec hexMd5 st with
  | ok lake' => rw [he] at h; cases h
  | error e => rfl

theorem Lake.exec_of_commits {lake : Lake} {st : Statement} (h : lake.commits hexMd5 st = true) :
    lake.exec hexMd5 st = .ok (lake.step hexMd5 st) := by
  unfold Lake.commits at h
  unfold Lake.step
  cases he : lake.exec hexMd5 st with
  | ok lake' => rfl
  | error e => rw [he] at h; cases h

/-! ## What one statement can do -/

def Statement.SilverSource (st : Statement) (source : List SilverRow) : Prop :=
  (∃ now lookbackDays bronze, st = .mergeSilverTrades now lookbackDays bronze ∧
    (silverSource now lookbackDays bronze).mapM silverOf = .ok source) ∨
  (∃ now staging rows, st = .mergeSilverFromArchive now staging ∧ staging.mapM (archiveRow now) = .ok rows ∧
    source = rowNumberOne SilverRow.key SilverRow.eventTsUs rows)

theorem Lake.step_mergeSilverTrades (lake : Lake) (now : Int) (lookbackDays : Nat) (bronze : List BronzeRow) :
    ∃ source, (silverSource now lookbackDays bronze).mapM silverOf = .ok source ∧ (source.map SilverRow.key).Nodup ∧
      lake.commits hexMd5 (.mergeSilverTrades now lookbackDays bronze) = true ∧
      (lake.step hexMd5 (.mergeSilverTrades now lookbackDays bronze)).silver =
        lake.silver ++ silverMerge.inserted source lake.silver := by
  obtain ⟨source, hsource, hnodup, hrun⟩ := mergeSilverTrades_ok now lookbackDays bronze lake.silver
  refine ⟨source, hsource, hnodup, ?_, ?_⟩
  · unfold Lake.commits Lake.exec
    simp only [hrun]
    rfl
  · unfold Lake.step Lake.exec
    simp only [hrun]
    rfl

theorem Lake.step_mergeSilverFromArchive {lake : Lake} {now : Int} {staging : List StagedTrade}
    (hc : lake.commits hexMd5 (.mergeSilverFromArchive now staging) = true) :
    ∃ rows, staging.mapM (archiveRow now) = .ok rows ∧
      (lake.step hexMd5 (.mergeSilverFromArchive now staging)).silver = lake.silver ++
        silverMerge.inserted (rowNumberOne SilverRow.key SilverRow.eventTsUs rows) lake.silver := by
  obtain ⟨silver, hsilver, he⟩ := bind_ok (Lake.exec_of_commits hexMd5 hc)
  obtain ⟨rows, hrows, rfl⟩ := mergeSilverFromArchive_ok hsilver
  exact ⟨rows, hrows, congrArg Lake.silver (Except.ok.inj he).symm⟩

theorem Lake.step_silver_perm (lake : Lake) {st : Statement}
    (hst : ∀ now lookbackDays bronze, st ≠ .mergeSilverTrades now lookbackDays bronze)
    (hsa : ∀ now staging, st ≠ .mergeSilverFromArchive now staging) :
    (lake.step hexMd5 st).silver.Perm lake.silver := by
  cases hc : lake.commits hexMd5 st with
  | false => rw [Lake.step_of_not_commits hexMd5 hc]
  | true =>
    have he := Lake.exec_of_commits hexMd5 hc
    cases st with
    | mergeSilverTrades now lookbackDays bronze => exact absurd rfl (hst now lookbackDays bronze)
    | mergeSilverFromArchive now staging => exact absurd rfl (hsa now staging)
    | mergeSilverQuarantine | mergeGoldBars1m | mergeGoldFromArchive =>
      obtain ⟨_, -, he⟩ := bind_ok he
      rw [← Except.ok.inj he]
    | optimizeSilverTrades rewritten =>
      rw [← Except.ok.inj he]
      split
      · rename_i hp
        exact List.isPerm_iff.1 hp
      · exact List.Perm.refl _

/-- **What a step does to Silver**: it inserts what it lacks of a source of distinct keys, or keeps the same rows. -/
theorem Lake.step_silver (lake : Lake) (st : Statement) :
    (∃ source, st.SilverSource source ∧ (source.map SilverRow.key).Nodup ∧ lake.commits hexMd5 st = true ∧
      (lake.step hexMd5 st).silver = lake.silver ++ silverMerge.inserted source lake.silver) ∨
    (lake.step hexMd5 st).silver.Perm lake.silver := by
  cases hc : lake.commits hexMd5 st with
  | false => exact Or.inr (by rw [Lake.step_of_not_commits hexMd5 hc])
  | true =>
    cases st with
    | mergeSilverTrades now lookbackDays bronze =>
      obtain ⟨source, hsource, hnodup, -, hsilver⟩ := lake.step_mergeSilverTrades hexMd5 now lookbackDays bronze
      exact Or.inl ⟨source, Or.inl ⟨now, lookbackDays, bronze, rfl, hsource⟩, hnodup, rfl, hsilver⟩
    | mergeSilverFromArchive now staging =>
      obtain ⟨rows, hrows, hsilver⟩ := Lake.step_mergeSilverFromArchive hexMd5 hc
      exact Or.inl ⟨_, Or.inr ⟨now, staging, rows, rfl, hrows, rfl⟩, rowNumberOne_nodup _ _ _, rfl, hsilver⟩
    | mergeSilverQuarantine | mergeGoldBars1m | mergeGoldFromArchive | optimizeSilverTrades =>
      exact Or.inr (lake.step_silver_perm hexMd5 (fun _ _ _ h => by cases h) (fun _ _ h => by cases h))

/-- **Silver only grows.** -/
theorem Lake.mem_step_silver {lake : Lake} {st : Statement} {s : SilverRow} (h : s ∈ lake.silver) :
    s ∈ (lake.step hexMd5 st).silver := by
  rcases lake.step_silver hexMd5 st with ⟨source, -, -, -, hs⟩ | hp
  · rw [hs]
    exact List.mem_append_left _ h
  · exact hp.mem_iff.2 h

theorem Lake.mem_run_silver {run : List Statement} {lake : Lake} {s : SilverRow} (h : s ∈ lake.silver) :
    s ∈ (lake.run hexMd5 run).silver :=
  run_invariant (I := fun lake : Lake => s ∈ lake.silver) (fun _ _ h => Lake.mem_step_silver hexMd5 h) run h

theorem Lake.step_of_source {lake : Lake} {st : Statement} {source : List SilverRow} (hs : st.SilverSource source)
    (hc : lake.commits hexMd5 st = true) :
    (lake.step hexMd5 st).silver = lake.silver ++ silverMerge.inserted source lake.silver := by
  rcases hs with ⟨now, lookbackDays, bronze, rfl, hsource⟩ | ⟨now, staging, rows, rfl, hrows, rfl⟩
  · obtain ⟨source', hsource', -, -, hsilver⟩ := lake.step_mergeSilverTrades hexMd5 now lookbackDays bronze
    rw [hsource] at hsource'
    cases hsource'
    exact hsilver
  · obtain ⟨rows', hrows', hsilver⟩ := Lake.step_mergeSilverFromArchive hexMd5 hc
    rw [hrows] at hrows'
    cases hrows'
    exact hsilver

/-- **A key of a committed source is a key of Silver.** -/
theorem Lake.step_covers {lake : Lake} {st : Statement} {source : List SilverRow} (hs : st.SilverSource source)
    (hc : lake.commits hexMd5 st = true) {s : SilverRow} (hmem : s ∈ source) :
    ∃ t ∈ (lake.step hexMd5 st).silver, t.key = s.key := by
  rw [Lake.step_of_source hexMd5 hs hc]
  exact silverMerge_keyed.covers_inserted hmem

end Awsnative
