import RealtimeFinance.Awsnative.MicrobatchRuns
/-!
# Accounted — query 3 of `verify_silver_gold.sql` after an execution

`unaccounted` counts the keys of Bronze that neither table has.  Its `=` finds no NULL, so a key with one is counted for
ever.  Of the others, an execution that has passed `SilverAndQuarantine` leaves those of rows that landed after it passed
the guard, of rows whose half changed between its two merges' clocks, and of rows for which the quarantine merge scanned
one first whose `row_key` a stored row of another key has (`unaccounted_run`); no failure, retry or other writer adds one.
-/
namespace Awsnative

open Runs Sql StepFunctions

abbrev TradeKey := Option String × Option String

/-! ## The query -/

def QuarantineRow.key (q : QuarantineRow) : TradeKey := (q.venue, q.tradeId)

/-- `SELECT DISTINCT venue, trade_id`, of the partitions from yesterday on. -/
def bronzeKeys (now : Int) (bronze : List BronzeRow) : List TradeKey :=
  ((bronze.filter (inWindow now 1)).map BronzeRow.key).dedup

def silverKeys (silver : List SilverRow) : List TradeKey := (silver.map SilverRow.key).dedup

def quarantineKeys (quarantine : List QuarantineRow) : List TradeKey := (quarantine.map QuarantineRow.key).dedup

/-- `EXISTS (… WHERE t.venue = b.venue AND t.trade_id = b.trade_id)`. -/
def keyExists (keys : List TradeKey) (b : TradeKey) : Bool :=
  keys.any (fun t => decide (and3 (equals t.1 b.1) (equals t.2 b.2) = some true))

def unaccountedKeys (now : Int) (bronze : List BronzeRow) (lake : Lake) : List TradeKey :=
  (bronzeKeys now bronze).filter
    (fun b => !keyExists (silverKeys lake.silver) b && !keyExists (quarantineKeys lake.quarantine) b)

structure DropCheck where
  bronzeDistinctKeys : Nat
  silverDistinctKeys : Nat
  quarantineDistinctKeys : Nat
  unaccounted : Nat
  deriving DecidableEq

/-- Query 3. -/
def verifyDrops (now : Int) (bronze : List BronzeRow) (lake : Lake) : DropCheck where
  bronzeDistinctKeys := (bronzeKeys now bronze).length
  silverDistinctKeys := (silverKeys lake.silver).length
  quarantineDistinctKeys := (quarantineKeys lake.quarantine).length
  unaccounted := (unaccountedKeys now bronze lake).length

theorem keyExists_iff {keys : List TradeKey} {k : TradeKey} : keyExists keys k = true ↔ k ∈ keys ∧ fullKey k = true := by
  unfold keyExists fullKey
  rw [List.any_eq_true]
  simp only [decide_eq_true_eq, and3_eq_true, equals_eq_true, Bool.and_eq_true]
  constructor
  · rintro ⟨t, ht, ⟨hv, hvs⟩, hi, his⟩
    have htk : t = k := Prod.ext hv hi
    rw [← htk]
    exact ⟨ht, hvs, his⟩
  · rintro ⟨hk, hv, hi⟩
    exact ⟨k, hk, ⟨rfl, hv⟩, rfl, hi⟩

theorem mem_unaccountedKeys {now : Int} {bronze : List BronzeRow} {lake : Lake} {k : TradeKey} :
    k ∈ unaccountedKeys now bronze lake ↔ k ∈ bronzeKeys now bronze ∧
      (fullKey k = true → (∀ s ∈ lake.silver, s.key ≠ k) ∧ ∀ q ∈ lake.quarantine, q.key ≠ k) := by
  have hsilver : k ∈ silverKeys lake.silver ↔ ∃ s ∈ lake.silver, s.key = k := List.mem_dedup.trans List.mem_map
  have hquarantine : k ∈ quarantineKeys lake.quarantine ↔ ∃ q ∈ lake.quarantine, q.key = k :=
    List.mem_dedup.trans List.mem_map
  unfold unaccountedKeys
  rw [List.mem_filter, Bool.and_eq_true, Bool.not_eq_true', Bool.not_eq_true', ← Bool.not_eq_true, ← Bool.not_eq_true,
    keyExists_iff, keyExists_iff, hsilver, hquarantine]
  refine and_congr_right (fun _ => ⟨fun h hfull => ⟨fun s hs hk => h.1 ⟨⟨s, hs, hk⟩, hfull⟩,
    fun q hq hk => h.2 ⟨⟨q, hq, hk⟩, hfull⟩⟩, fun h => ⟨?_, ?_⟩⟩)
  · rintro ⟨⟨s, hs, hk⟩, hfull⟩
    exact (h hfull).1 s hs hk
  · rintro ⟨⟨q, hq, hk⟩, hfull⟩
    exact (h hfull).2 q hq hk

/-! ## What an execution was told -/

section Told

variable (hexMd5 : String → String) (lookbackDays : Nat)

/-- A `MergeSilver` committed since `s₀`: Silver has the keys of the rows it accepted of those there then. -/
def SilverTold (s₀ s : Stage) (now : Int) : Prop :=
  (s₀.clock ≤ now ∧ now ≤ s.clock) ∧ ∀ b ∈ s₀.bronze, accepted now lookbackDays b = true → HeldInSilver s.lake b.key

/-- A `MergeQuarantine` that scanned `scan` committed since `s₀`: the `row_key`s of the rows it numbered 1 are stored. -/
def QuarantineTold (s₀ s : Stage) (now : Int) (scan : List BronzeRow) : Prop :=
  (s₀.clock ≤ now ∧ now ≤ s.clock) ∧ ((∀ b ∈ s₀.bronze, b ∈ scan) ∧ ∀ b ∈ scan, b ∈ s.bronze) ∧
    ∀ r ∈ quarantineSource now lookbackDays scan, StoredInQuarantine hexMd5 s.lake r

/-- What the branches that are done were told. -/
def Told (s₀ s : Stage) : Microbatch → Prop
  | .silverAndQuarantine mergeSilver mergeQuarantine =>
    (mergeSilver = false → ∃ now, SilverTold lookbackDays s₀ s now) ∧
      (mergeQuarantine = false → ∃ now scan, QuarantineTold hexMd5 lookbackDays s₀ s now scan)
  | _ => (∃ now, SilverTold lookbackDays s₀ s now) ∧ ∃ now scan, QuarantineTold hexMd5 lookbackDays s₀ s now scan

variable {hexMd5 lookbackDays} {s₀ s : Stage} {e : StageEvent} {i : Nat} {now : Int}

theorem Stage.mem_step_silver (e : StageEvent) {r : SilverRow} (h : r ∈ s.lake.silver) :
    r ∈ (s.step hexMd5 lookbackDays e).lake.silver := by
  rcases s.step_lake hexMd5 lookbackDays e with he | ⟨st, he⟩
  · rw [he]
    exact h
  · rw [he]
    exact Lake.mem_step_silver hexMd5 h

theorem Stage.mem_step_quarantine (e : StageEvent) {q : QuarantineRow} (h : q ∈ s.lake.quarantine) :
    q ∈ (s.step hexMd5 lookbackDays e).lake.quarantine := by
  rcases s.step_lake hexMd5 lookbackDays e with he | ⟨st, he⟩
  · rw [he]
    exact h
  · rw [he]
    exact Lake.mem_step_quarantine hexMd5 h

theorem SilverTold.step (h : SilverTold lookbackDays s₀ s now) (e : StageEvent) :
    SilverTold lookbackDays s₀ (s.step hexMd5 lookbackDays e) now := by
  refine ⟨⟨h.1.1, Int.le_trans h.1.2 (s.step_clock e)⟩, fun b hb hacc => ?_⟩
  obtain ⟨r, hr, hrk⟩ := h.2 b hb hacc
  exact ⟨r, Stage.mem_step_silver e hr, hrk⟩

theorem QuarantineTold.step {scan : List BronzeRow} (h : QuarantineTold hexMd5 lookbackDays s₀ s now scan)
    (e : StageEvent) : QuarantineTold hexMd5 lookbackDays s₀ (s.step hexMd5 lookbackDays e) now scan := by
  obtain ⟨⟨hlo, hhi⟩, ⟨hscanned, hlanded⟩, hstored⟩ := h
  refine ⟨⟨hlo, Int.le_trans hhi (s.step_clock e)⟩, ⟨hscanned, fun b hb => Stage.mem_step_bronze e (hlanded b hb)⟩, ?_⟩
  intro r hr
  obtain ⟨q, hq, hqr⟩ := hstored r hr
  exact ⟨q, Stage.mem_step_quarantine e hq, hqr⟩

theorem Told.step {state : Microbatch} (h : Told hexMd5 lookbackDays s₀ s state) (e : StageEvent) :
    Told hexMd5 lookbackDays s₀ (s.step hexMd5 lookbackDays e) state := by
  have hsilver : (∃ now, SilverTold lookbackDays s₀ s now) →
      ∃ now, SilverTold lookbackDays s₀ (s.step hexMd5 lookbackDays e) now :=
    fun ⟨now, h⟩ => ⟨now, h.step e⟩
  have hquarantine : (∃ now scan, QuarantineTold hexMd5 lookbackDays s₀ s now scan) →
      ∃ now scan, QuarantineTold hexMd5 lookbackDays s₀ (s.step hexMd5 lookbackDays e) now scan :=
    fun ⟨now, scan, h⟩ => ⟨now, scan, h.step e⟩
  cases state with
  | silverAndQuarantine mergeSilver mergeQuarantine => exact ⟨fun hm => hsilver (h.1 hm), fun hm => hquarantine (h.2 hm)⟩
  | _ => exact ⟨hsilver h.1, hquarantine h.2⟩

/-- Both merges told leave every state told. -/
theorem Told.of_both (hsilver : ∃ now, SilverTold lookbackDays s₀ s now)
    (hquarantine : ∃ now scan, QuarantineTold hexMd5 lookbackDays s₀ s now scan) (state : Microbatch) :
    Told hexMd5 lookbackDays s₀ s state := by
  cases state with
  | silverAndQuarantine => exact ⟨fun _ => hsilver, fun _ => hquarantine⟩
  | _ => exact ⟨hsilver, hquarantine⟩

/-- The silver merge of an execution tells. -/
theorem silverTold_step (hclock : s₀.clock ≤ s.clock) (hbronze : ∀ b ∈ s₀.bronze, b ∈ s.bronze)
    {before : List Statement} (hlake : s.lake = Lake.empty.run hexMd5 before) {scan : List BronzeRow}
    (hscan : scan.Perm s.bronze)
    (he : (s.step hexMd5 lookbackDays e).lake = s.lake.step hexMd5 (.mergeSilverTrades s.clock lookbackDays scan)) :
    ∃ now, SilverTold lookbackDays s₀ (s.step hexMd5 lookbackDays e) now := by
  refine ⟨s.clock, ⟨hclock, s.step_clock e⟩, fun b hb hacc => ?_⟩
  have hheld : HeldInSilver (Lake.empty.run hexMd5 (before ++ [.mergeSilverTrades s.clock lookbackDays scan])) b.key :=
    accepted_held hexMd5 (hscan.mem_iff.2 (hbronze b hb)) hacc
  rw [Lake.run_append, ← hlake] at hheld
  rw [he]
  exact hheld

theorem quarantineTold_step (hclock : s₀.clock ≤ s.clock) (hbronze : ∀ b ∈ s₀.bronze, b ∈ s.bronze)
    {before : List Statement} (hlake : s.lake = Lake.empty.run hexMd5 before) {scan : List BronzeRow}
    (hscan : scan.Perm s.bronze)
    (hc : s.lake.commits hexMd5 (.mergeSilverQuarantine s.clock lookbackDays scan) = true)
    (he : (s.step hexMd5 lookbackDays e).lake = s.lake.step hexMd5 (.mergeSilverQuarantine s.clock lookbackDays scan)) :
    ∃ now scan, QuarantineTold hexMd5 lookbackDays s₀ (s.step hexMd5 lookbackDays e) now scan := by
  refine ⟨s.clock, scan, ⟨hclock, s.step_clock e⟩, ⟨fun b hb => hscan.mem_iff.2 (hbronze b hb),
    fun b hb => Stage.mem_step_bronze e (hscan.mem_iff.1 hb)⟩, fun r hr => ?_⟩
  rw [hlake] at hc
  have hheld : StoredInQuarantine hexMd5
      (Lake.empty.run hexMd5 (before ++ [.mergeSilverQuarantine s.clock lookbackDays scan])) r :=
    rejected_held hexMd5 hc hr
  rw [Lake.run_append, ← hlake] at hheld
  rw [he]
  exact hheld

/-- **The merges that an execution has behind it are told.** -/
theorem told_step (hclock : s₀.clock ≤ s.clock) (hbronze : ∀ b ∈ s₀.bronze, b ∈ s.bronze) {before : List Statement}
    (hlake : s.lake = Lake.empty.run hexMd5 before)
    (h : ∀ state, guardedState s.executions i = some state → Told hexMd5 lookbackDays s₀ s state) (e : StageEvent) :
    ∀ state, guardedState (s.step hexMd5 lookbackDays e).executions i = some state →
      Told hexMd5 lookbackDays s₀ (s.step hexMd5 lookbackDays e) state := by
  intro state hstate
  rcases Stage.step_state hstate with hold | ⟨-, rfl⟩ | ⟨old, task, startTime, hold, hnext, hdone⟩
  · exact (h state hold).step e
  · exact ⟨fun hm => (by cases hm), fun hm => (by cases hm)⟩
  · have htold : Told hexMd5 lookbackDays s₀ (s.step hexMd5 lookbackDays e) old := (h old hold).step e
    cases old with
    | silverAndQuarantine mergeSilver mergeQuarantine =>
      rcases hdone with ⟨rfl, -⟩ | ⟨q, scan, rewritten, hq, hscan, hc, he⟩
      · cases hnext
      · cases task with
        | mergeSilver =>
          cases mergeSilver with
          | false => cases mergeQuarantine <;> cases hq
          | true =>
            have hquery : q = .mergeSilver := by cases mergeQuarantine <;> cases hq <;> rfl
            subst hquery
            have hsilver := silverTold_step hclock hbronze hlake hscan he
            cases mergeQuarantine with
            | false => exact Told.of_both hsilver (htold.2 rfl) state
            | true =>
              cases hnext
              exact ⟨fun _ => hsilver, fun hm => (by cases hm)⟩
        | mergeQuarantine =>
          cases mergeQuarantine with
          | false => cases mergeSilver <;> cases hq
          | true =>
            have hquery : q = .mergeQuarantine := by cases mergeSilver <;> cases hq <;> rfl
            subst hquery
            have hquarantine := quarantineTold_step hclock hbronze hlake hscan hc he
            cases mergeSilver with
            | false => exact Told.of_both (htold.1 rfl) hquarantine state
            | true =>
              cases hnext
              exact ⟨fun hm => (by cases hm), fun _ => hquarantine⟩
        | state => cases hnext
    | _ => exact Told.of_both htold.1 htold.2 state

/-! ## Over runs -/

theorem Stage.run_append (es fs : List StageEvent) : Stage.run hexMd5 lookbackDays (es ++ fs) =
    fs.foldl (Stage.step hexMd5 lookbackDays) (Stage.run hexMd5 lookbackDays es) := List.foldl_append

/-- What is told stays, and the clock goes on. -/
theorem told_run (pre mid : List StageEvent) (hbefore : guardedState (Stage.run hexMd5 lookbackDays pre).executions i = none)
    {state : Microbatch} (hafter : guardedState (Stage.run hexMd5 lookbackDays (pre ++ mid)).executions i = some state) :
    Told hexMd5 lookbackDays (Stage.run hexMd5 lookbackDays pre) (Stage.run hexMd5 lookbackDays (pre ++ mid)) state := by
  generalize hs₀ : Stage.run hexMd5 lookbackDays pre = s₀ at hbefore ⊢
  rw [Stage.run_append, hs₀] at hafter ⊢
  let I (s : Stage) : Prop := s₀.clock ≤ s.clock ∧ (∀ b ∈ s₀.bronze, b ∈ s.bronze) ∧
    (∃ before, s.lake = Lake.empty.run hexMd5 before) ∧
    ∀ state, guardedState s.executions i = some state → Told hexMd5 lookbackDays s₀ s state
  have hstep : ∀ s e, I s → I (s.step hexMd5 lookbackDays e) := by
    rintro s e ⟨hclock, hbronze, ⟨before, hlake⟩, htold⟩
    refine ⟨Int.le_trans hclock (s.step_clock e), fun b hb => Stage.mem_step_bronze e (hbronze b hb), ?_,
      told_step hclock hbronze hlake htold e⟩
    rcases s.step_lake hexMd5 lookbackDays e with he | ⟨st, he⟩
    · exact ⟨before, he.trans hlake⟩
    · refine ⟨before ++ [st], ?_⟩
      rw [he, hlake, Lake.run_append]
      rfl
  have hstart : I s₀ := by
    refine ⟨Int.le_refl _, fun b hb => hb, ?_, fun state hstate => ?_⟩
    · rw [← hs₀]
      exact Stage.lake_run hexMd5 lookbackDays pre
    · rw [hbefore] at hstate
      cases hstate
  exact (run_invariant hstep mid hstart).2.2.2 state hafter

/-- A stored row of another key has the row's `row_key`. -/
def SharesRowKey (hexMd5 : String → String) (quarantine : List QuarantineRow) (r : BronzeRow) : Prop :=
  ∃ q ∈ quarantine, q.key ≠ r.key ∧ q.rowKey = hexMd5 (rawText r.raw)

/-- A row in a later, narrower window is in an earlier, wider one. -/
theorem inWindow_earlier {now' : Int} (hnow : now ≤ now') (hlookback : 1 ≤ lookbackDays) {b : BronzeRow}
    (h : inWindow now' 1 b = true) : inWindow now lookbackDays b = true := by
  have hday : currentDate now ≤ currentDate now' := Int.ediv_le_ediv (by decide) hnow
  unfold inWindow at *
  rw [decide_eq_true_eq] at *
  omega

def Stage.dropCheck (s : Stage) : DropCheck := verifyDrops s.clock s.bronze s.lake

/-- Not valid at the silver merge's clock, and valid at the quarantine merge's or of a key whose first rejected row of its
scan has a taken `row_key`. -/
def Missed (hexMd5 : String → String) (lookbackDays : Nat) (s : Stage) (silverNow quarantineNow : Int) (scan : List BronzeRow)
    (b : BronzeRow) : Prop :=
  valid silverNow b = false ∧ (valid quarantineNow b = true ∨
    ∃ r ∈ quarantineSource quarantineNow lookbackDays scan, r.key = b.key ∧ SharesRowKey hexMd5 s.lake.quarantine r)

/-- **What query 3 counts in `s`**: every key with a NULL; of the rows that were there in `s₀`, only those missed; and
nothing where no row of its window is of these, or landed later. -/
structure CountsOnlyMissed (hexMd5 : String → String) (lookbackDays : Nat) (s₀ s : Stage) (silverNow quarantineNow : Int)
    (scan : List BronzeRow) : Prop where
  keyless : ∀ k ∈ bronzeKeys s.clock s.bronze, fullKey k = false → k ∈ unaccountedKeys s.clock s.bronze s.lake
  scanned : ∀ b ∈ s₀.bronze, b ∈ scan
  landed : ∀ b ∈ scan, b ∈ s.bronze
  missed : ∀ b ∈ s₀.bronze, inWindow s.clock 1 b = true → fullKey b.key = true →
    b.key ∈ unaccountedKeys s.clock s.bronze s.lake → Missed hexMd5 lookbackDays s silverNow quarantineNow scan b
  passes : (∀ b ∈ s.bronze, inWindow s.clock 1 b = true → b ∈ s₀.bronze ∧ fullKey b.key = true ∧
      ¬ Missed hexMd5 lookbackDays s silverNow quarantineNow scan b) → s.dropCheck.unaccounted = 0

theorem missed_of_told {silverNow quarantineNow : Int} (hsilver : SilverTold lookbackDays s₀ s silverNow)
    {scan : List BronzeRow} (hquarantine : QuarantineTold hexMd5 lookbackDays s₀ s quarantineNow scan)
    (hlookback : 1 ≤ lookbackDays) {b : BronzeRow} (hb : b ∈ s₀.bronze) (hwin : inWindow s.clock 1 b = true)
    (hfull : fullKey b.key = true) (hcounted : b.key ∈ unaccountedKeys s.clock s.bronze s.lake) :
    Missed hexMd5 lookbackDays s silverNow quarantineNow scan b := by
  obtain ⟨hquarantineClock, ⟨hscanned, hlanded⟩, hstored⟩ := hquarantine
  obtain ⟨hnoSilver, hnoQuarantine⟩ := (mem_unaccountedKeys.1 hcounted).2 hfull
  constructor
  · cases hv : valid silverNow b with
    | false => rfl
    | true =>
      have hacc := (accepted_iff silverNow lookbackDays b).2 ⟨inWindow_earlier hsilver.1.2 hlookback hwin, hv⟩
      obtain ⟨r, hr, hrk⟩ := hsilver.2 b hb hacc
      exact absurd hrk (hnoSilver r hr)
  · cases hv : valid quarantineNow b with
    | true => exact Or.inl rfl
    | false =>
      have hrej := (rejected_iff quarantineNow lookbackDays b).2 ⟨inWindow_earlier hquarantineClock.2 hlookback hwin, hv⟩
      obtain ⟨r, hr, hrk, -⟩ := rowNumberOne_covers BronzeRow.key BronzeRow.ingestTsUs _ b
        (List.mem_filter.2 ⟨hscanned b hb, hrej⟩)
      obtain ⟨q, hq, hrow⟩ := hstored r hr
      refine Or.inr ⟨r, hr, hrk, q, hq, ?_, hrow⟩
      rw [hrk]
      exact hnoQuarantine q hq

theorem countsOnlyMissed_of_told {silverNow quarantineNow : Int} (hsilver : SilverTold lookbackDays s₀ s silverNow)
    {scan : List BronzeRow} (hquarantine : QuarantineTold hexMd5 lookbackDays s₀ s quarantineNow scan)
    (hlookback : 1 ≤ lookbackDays) : CountsOnlyMissed hexMd5 lookbackDays s₀ s silverNow quarantineNow scan := by
  refine ⟨fun k hk hkeyless => mem_unaccountedKeys.2 ⟨hk, fun hfull => ?_⟩, hquarantine.2.1.1, hquarantine.2.1.2,
    fun b => missed_of_told hsilver hquarantine hlookback, fun hwindow => ?_⟩
  · rw [hkeyless] at hfull
    cases hfull
  · unfold Stage.dropCheck verifyDrops
    rw [List.length_eq_zero_iff, List.eq_nil_iff_forall_not_mem]
    intro k hk
    obtain ⟨b, hb, rfl⟩ := List.mem_map.1 (List.mem_dedup.1 (mem_unaccountedKeys.1 hk).1)
    obtain ⟨hb, hwin⟩ := List.mem_filter.1 hb
    obtain ⟨hthere, hfull, hnot⟩ := hwindow b hb hwin
    exact hnot (missed_of_told hsilver hquarantine hlookback hthere hwin hfull hk)

/-- **What query 3 counts after an execution has merged**: every key with a NULL; and of the rows that were there when it
passed the guard, only those missed by both its merges at their own clocks, and those for which its quarantine merge
scanned first a row whose `row_key` is taken. -/
theorem unaccounted_run (hlookback : 1 ≤ lookbackDays) (pre mid post : List StageEvent) {state : Microbatch}
    (hbefore : guardedState (Stage.run hexMd5 lookbackDays pre).executions i = none)
    (hafter : guardedState (Stage.run hexMd5 lookbackDays (pre ++ mid)).executions i = some state)
    (hmerged : ∀ mergeSilver mergeQuarantine, state ≠ .silverAndQuarantine mergeSilver mergeQuarantine) :
    ∃ silverNow quarantineNow scan, (∀ now ∈ [silverNow, quarantineNow],
        (Stage.run hexMd5 lookbackDays pre).clock ≤ now ∧ now ≤ (Stage.run hexMd5 lookbackDays (pre ++ mid)).clock) ∧
      CountsOnlyMissed hexMd5 lookbackDays (Stage.run hexMd5 lookbackDays pre)
        (Stage.run hexMd5 lookbackDays (pre ++ mid ++ post)) silverNow quarantineNow scan := by
  have htold := told_run pre mid hbefore hafter
  have hboth : (∃ now, SilverTold lookbackDays (Stage.run hexMd5 lookbackDays pre)
        (Stage.run hexMd5 lookbackDays (pre ++ mid)) now) ∧
      ∃ now scan, QuarantineTold hexMd5 lookbackDays (Stage.run hexMd5 lookbackDays pre)
        (Stage.run hexMd5 lookbackDays (pre ++ mid)) now scan := by
    cases state with
    | silverAndQuarantine mergeSilver mergeQuarantine => exact absurd rfl (hmerged mergeSilver mergeQuarantine)
    | _ => exact htold
  obtain ⟨⟨silverNow, hsilver⟩, quarantineNow, scan, hquarantine⟩ := hboth
  refine ⟨silverNow, quarantineNow, scan, ?_, ?_⟩
  · intro now hnow
    rcases List.mem_pair.1 hnow with rfl | rfl
    · exact hsilver.1
    · exact hquarantine.1
  · rw [Stage.run_append (pre ++ mid) post]
    refine countsOnlyMissed_of_told (run_invariant (I := fun s => SilverTold lookbackDays _ s silverNow) ?_ post hsilver)
      (run_invariant (I := fun s => QuarantineTold hexMd5 lookbackDays _ s quarantineNow scan) ?_ post hquarantine) hlookback
    · exact fun s e h => h.step e
    · exact fun s e h => h.step e

end Told

/-- Up to the guard: some rows have landed. -/
def beforeGuard (rows : List BronzeRow) : List StageEvent :=
  [.ticks 1728000900000, .lands rows, .starts ⟨"00", "15"⟩, .counts 0]

/-- The first `MergeSilver` commits and is reported as failed. -/
def bothMerged : List StageEvent :=
  [.chooses 0, .attempts 0 .mergeSilver .commitsAndFails [] [], .ticks 20000, .attempts 0 .mergeSilver .succeeds [] [],
    .attempts 0 .mergeQuarantine .succeeds [] []]

/-- A trade and a row without a `trade_id`; and where there is only the trade, the query counts nothing. -/
theorem unaccounted_run_bothMerged : (∃ silverNow quarantineNow scan,
    (∀ now ∈ [silverNow, quarantineNow], (Stage.run id 1 (beforeGuard [bitcoinTrade, keylessTrade])).clock ≤ now ∧
      now ≤ (Stage.run id 1 (beforeGuard [bitcoinTrade, keylessTrade] ++ bothMerged)).clock) ∧
    CountsOnlyMissed id 1 (Stage.run id 1 (beforeGuard [bitcoinTrade, keylessTrade]))
      (Stage.run id 1 (beforeGuard [bitcoinTrade, keylessTrade] ++ bothMerged ++ [.ticks 300000]))
      silverNow quarantineNow scan) ∧
    (Stage.run id 1 (beforeGuard [bitcoinTrade] ++ bothMerged ++ [.ticks 300000])).dropCheck.unaccounted = 0 := by
  refine ⟨@unaccounted_run id 1 0 (Nat.le_refl 1) (beforeGuard [bitcoinTrade, keylessTrade]) bothMerged [.ticks 300000]
    .mergeGold (by decide +kernel) (by decide +kernel) (fun _ _ h => by cases h), ?_⟩
  obtain ⟨silverNow, quarantineNow, scan, hclocks, hcounts⟩ :=
    @unaccounted_run id 1 0 (Nat.le_refl 1) (beforeGuard [bitcoinTrade]) bothMerged [.ticks 300000] .mergeGold
      (by decide +kernel) (by decide +kernel) (fun _ _ h => by cases h)
  have hthere : (Stage.run id 1 (beforeGuard [bitcoinTrade])).bronze = [bitcoinTrade] := by decide +kernel
  have hbronze : (Stage.run id 1 (beforeGuard [bitcoinTrade] ++ bothMerged ++ [.ticks 300000])).bronze = [bitcoinTrade] := by
    decide +kernel
  have hfirst : (Stage.run id 1 (beforeGuard [bitcoinTrade])).clock = 1728000900000 := by decide +kernel
  have hlast : (Stage.run id 1 (beforeGuard [bitcoinTrade] ++ bothMerged)).clock = 1728000920000 := by decide +kernel
  obtain ⟨hlo, hhi⟩ := hclocks silverNow (by simp)
  rw [hfirst] at hlo
  rw [hlast] at hhi
  have hvalid : valid silverNow bitcoinTrade = true := by
    obtain ⟨hamounts, -⟩ := (validAt_iff 1728000900000 bitcoinTrade).1 (by decide +kernel)
    have hage : maxAge bitcoinTrade.source = 86400000 := by decide +kernel
    refine (validAt_iff silverNow bitcoinTrade).2 ⟨hamounts, 1728000600000000, rfl, ?_, ?_⟩
    · omega
    · rw [hage]
      omega
  refine hcounts.passes (fun b hb _ => ?_)
  rw [hbronze, List.mem_singleton] at hb
  rw [hb, hthere]
  refine ⟨List.mem_singleton_self _, by decide +kernel, fun hmissed => ?_⟩
  rw [hmissed.1] at hvalid
  cases hvalid

end Awsnative
