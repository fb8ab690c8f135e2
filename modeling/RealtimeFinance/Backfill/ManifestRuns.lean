import RealtimeFinance.Backfill.Resume
/-!
# ManifestRuns — what the manifest says after a run

`clear_staging` empties the two staging prefixes and not the one the map's ResultWriter lands in, so `backfill_outcomes`
holds every outcome of every run, and each run's merge records the first of them by status.  The manifest says what the
latest run found where no earlier outcome comes first (`latestRun_iff`).
-/
namespace Backfill

open Sql Runs

/-- The location of `backfill_outcomes`. -/
def outcomesPrefix : String := "_backfill/outcomes"

/-- One invocation of the loader, as the archive answers it. -/
structure Invocation where
  item : WorkItem
  archive : Archive
  answer : String → Answer

/-- An order an external table is scanned in. -/
structure ScanOrder where
  order : List OutcomeRow → List OutcomeRow
  perm : ∀ rows, (order rows).Perm rows

/-- One run: its invocations, retries among them, the object its results land in, and the merge. -/
structure BackfillRun where
  invocations : List Invocation
  resultName : String
  now : Int
  scan : ScanOrder

/-- The lake's bucket, staging and results, and the manifest. -/
structure Store where
  objects : Objects
  results : List (String × List OutcomeRow)
  manifest : List ManifestRow

namespace Store

def empty : Store := ⟨[], [], []⟩

/-- `clear_staging`. -/
def clearStaging (w : Store) : Store :=
  { w with
    objects := w.objects.clearStaging
    results := w.results.filter (fun o => !under (stagingPrefixes .deep) o.1 && !under (stagingPrefixes .hot) o.1) }

/-- The rows of `backfill_outcomes`. -/
def outcomes (w : Store) : List OutcomeRow := (w.results.filter (fun o => under outcomesPrefix o.1)).flatMap Prod.snd

end Store

variable (lib : Stdlib)

/-- One invocation: what it puts, and the outcome it returns if it does not raise. -/
def invoke (done : Objects × List OutcomeRow) (i : Invocation) : Objects × List OutcomeRow :=
  match load lib i.archive i.answer i.item done.1 with
  | some (objects, outcome) => (objects, done.2 ++ [⟨i.item, outcome⟩])
  | none                    => done

/-- The map: the bucket after it, and the outcomes it collected. -/
def Store.mapped (w : Store) (run : BackfillRun) : Objects × List OutcomeRow :=
  run.invocations.foldl (invoke lib) (w.clearStaging.objects, [])

/-- The outcomes of the run. -/
def Store.emitted (w : Store) (run : BackfillRun) : List OutcomeRow := (w.mapped lib run).2

def Store.step (w : Store) (run : BackfillRun) : Store :=
  let loaded : Store :=
    { w.clearStaging with
      objects := (w.mapped lib run).1
      results := w.clearStaging.results ++ [(outcomesPrefix ++ "/" ++ run.resultName, w.emitted lib run)] }
  match mergeManifestOutcomes run.now (run.scan.order loaded.outcomes) loaded.manifest with
  | .ok manifest => { loaded with manifest }
  | .error _     => loaded

/-! ## What a run should leave in the manifest, and when it does -/

def rowsOf (manifest : List ManifestRow) (key : String) : List ManifestRow :=
  manifest.filter (fun r => decide (r.archiveKey = key))

def OutcomeRow.key (o : OutcomeRow) : String := o.outcome.archiveKey

/-- The row says what the outcome says. -/
structure Records (r : ManifestRow) (o : OutcomeRow) : Prop where
  status : r.status = o.outcome.status
  sha256Actual : r.sha256Actual = o.outcome.sha256Actual
  rowCount : r.rowCount = o.outcome.rowCount
  error : r.error = o.outcome.error

/-- **The manifest says what the run found**, of the files it loaded, and what it said before of the others. -/
structure ReflectsRun (emitted : List OutcomeRow) (before after : List ManifestRow) : Prop where
  loaded : ∀ o ∈ emitted, ∃ r, rowsOf after o.key = [r] ∧ (∃ o' ∈ emitted, o'.key = o.key ∧ Records r o') ∧
    (o.outcome.status = .done → r.status = .done)
  kept : ∀ key, (∀ o ∈ emitted, o.key ≠ key) → rowsOf after key = rowsOf before key

/-- The outcome of a key that stands first by status, and as the table is scanned. -/
def Store.First (w : Store) (run : BackfillRun) (first : OutcomeRow) : Prop :=
  IsFirst OutcomeRow.key (fun o => some o.outcome.status.rank) (run.scan.order (w.outcomes ++ w.emitted lib run)) first

/-- **An earlier run's outcome that comes first** says what one of this run's says, where the file is loaded again; and
where it is not, the manifest has its row already, with this run's clock. -/
structure Supersedes (w : Store) (run : BackfillRun) : Prop where
  loaded : ∀ first ∈ w.outcomes, w.First lib run first → ∀ o ∈ w.emitted lib run, o.key = first.key →
    ∃ o' ∈ w.emitted lib run, o'.key = first.key ∧ Records (manifestRow run.now first) o'
  leftOut : ∀ first ∈ w.outcomes, w.First lib run first → (∀ o ∈ w.emitted lib run, o.key ≠ first.key) →
    manifestRow run.now first ∈ w.manifest

/-! ## One run -/

theorem under_outcomesPrefix (name : String) : under outcomesPrefix (outcomesPrefix ++ "/" ++ name) = true := by
  unfold under
  simp only [List.isPrefixOf_iff_prefix, String.toList_append]
  exact List.prefix_append _ _

/-- **Staging is cleared and the outcomes stay.** -/
theorem under_staging_of_outcomes {key : String} (h : under outcomesPrefix key = true) (tier : Tier) :
    under (stagingPrefixes tier) key = false := by
  unfold under at h ⊢
  rw [← Bool.not_eq_true, List.isPrefixOf_iff_prefix]
  rw [List.isPrefixOf_iff_prefix] at h
  obtain ⟨rest, hrest⟩ := h
  rintro ⟨rest', hrest'⟩
  have hhead := congrArg List.head? (hrest'.trans hrest.symm)
  cases tier
  · exact absurd hhead (by simp [stagingPrefixes, outcomesPrefix])
  · exact absurd hhead (by simp [stagingPrefixes, outcomesPrefix])

/-- Results land under their prefix, and the manifest has a row a key. -/
structure Store.Sound (w : Store) : Prop where
  results : ∀ o ∈ w.results, under outcomesPrefix o.1 = true
  unique : UniqueKeys ManifestRow.archiveKey (fun _ => true) w.manifest

theorem Store.Sound.clearStaging_results {w : Store} (hw : w.Sound) : w.clearStaging.results = w.results := by
  refine List.filter_eq_self.2 (fun o ho => ?_)
  rw [under_staging_of_outcomes (hw.results o ho), under_staging_of_outcomes (hw.results o ho)]
  rfl

/-- **The outcomes of a run join those of all the runs before it**, and its merge reads them all. -/
theorem Store.Sound.step_eq {w : Store} (hw : w.Sound) (run : BackfillRun) :
    (w.step lib run).results = w.results ++ [(outcomesPrefix ++ "/" ++ run.resultName, w.emitted lib run)] ∧
      (w.step lib run).outcomes = w.outcomes ++ w.emitted lib run ∧
      (w.step lib run).manifest = manifestMerge.merged
        ((recorded (run.scan.order (w.outcomes ++ w.emitted lib run))).map (manifestRow run.now)) w.manifest := by
  have houtcomes : ((w.results ++ [(outcomesPrefix ++ "/" ++ run.resultName, w.emitted lib run)]).filter
      (fun o => under outcomesPrefix o.1)).flatMap Prod.snd = w.outcomes ++ w.emitted lib run := by
    rw [List.filter_append, List.flatMap_append]
    simp [Store.outcomes, under_outcomesPrefix]
  unfold Store.step
  simp only [mergeManifestOutcomes_ok, Store.outcomes, hw.clearStaging_results]
  refine ⟨trivial, houtcomes, ?_⟩
  rw [houtcomes]
  rfl

theorem Store.Sound.step {w : Store} (hw : w.Sound) (run : BackfillRun) : (w.step lib run).Sound := by
  obtain ⟨hresults, -, hmanifest⟩ := hw.step_eq lib run
  refine ⟨?_, ?_⟩
  · rw [hresults]
    intro o ho
    rcases List.mem_append.1 ho with ho | ho
    · exact hw.results o ho
    · rw [List.mem_singleton.1 ho]
      exact under_outcomesPrefix run.resultName
  · rw [hmanifest]
    exact manifestMerge_keyed.uniqueKeys_of_unique manifestMerge_keeps_key (recorded_unique run.now _) hw.unique

theorem rowsOf_eq_singleton : ∀ {manifest : List ManifestRow}, UniqueKeys ManifestRow.archiveKey (fun _ => true) manifest →
    ∀ {r : ManifestRow}, r ∈ manifest → rowsOf manifest r.archiveKey = [r]
  | [], _, r, hr => by cases hr
  | x :: rest, hu, r, hr => by
    obtain ⟨hx, hrest⟩ := List.pairwise_cons.1 hu
    have hne : ∀ y ∈ rest, x.archiveKey ≠ y.archiveKey := fun y hy hkey => by cases hx y hy hkey
    unfold rowsOf
    rcases List.mem_cons.1 hr with rfl | hr
    · have hnone : rest.filter (fun y => decide (y.archiveKey = r.archiveKey)) = [] := by
        refine List.filter_eq_nil_iff.2 (fun y hy => ?_)
        simpa using (hne y hy).symm
      rw [List.filter_cons_of_pos (by simp), hnone]
    · rw [List.filter_cons_of_neg (by simpa using hne r hr)]
      exact rowsOf_eq_singleton hrest hr

theorem mem_rowsOf {manifest : List ManifestRow} {key : String} {r : ManifestRow} :
    r ∈ rowsOf manifest key ↔ r ∈ manifest ∧ r.archiveKey = key := by
  unfold rowsOf
  rw [List.mem_filter, decide_eq_true_eq]

/-- **The file's row is that of the outcome that comes first**, of this run's and of all runs before. -/
theorem rowsOf_first {w : Store} (hw : w.Sound) {run : BackfillRun} {first : OutcomeRow} (h : w.First lib run first) :
    rowsOf (w.step lib run).manifest first.key = [manifestRow run.now first] := by
  have hmem : manifestRow run.now first ∈ (w.step lib run).manifest := by
    rw [(hw.step_eq lib run).2.2, mem_mergeManifestOutcomes]
    exact Or.inl ⟨first, (mem_rowNumberOne_iff _ _ _ _).2 h, rfl⟩
  exact rowsOf_eq_singleton (hw.step lib run).unique hmem

theorem rowsOf_unrecorded {w : Store} (hw : w.Sound) {run : BackfillRun} {key : String}
    (h : ∀ o ∈ w.outcomes ++ w.emitted lib run, o.key ≠ key) :
    rowsOf (w.step lib run).manifest key = rowsOf w.manifest key := by
  have hsame : ∀ r : ManifestRow, r.archiveKey = key → (r ∈ (w.step lib run).manifest ↔ r ∈ w.manifest) := by
    intro r hkey
    rw [(hw.step_eq lib run).2.2, mem_mergeManifestOutcomes]
    have hnone : ∀ o ∈ recorded (run.scan.order (w.outcomes ++ w.emitted lib run)), o.key ≠ key := fun o ho =>
      h o ((run.scan.perm _).mem_iff.1 (mem_of_mem_rowNumberOne _ _ ho))
    constructor
    · rintro (⟨o, ho, rfl⟩ | ⟨hr, -⟩)
      · exact absurd hkey (hnone o ho)
      · exact hr
    · intro hr
      refine Or.inr ⟨hr, fun s hs => ?_⟩
      obtain ⟨o, ho, rfl⟩ := List.mem_map.1 hs
      rw [hkey]
      exact hnone o ho
  by_cases hrow : ∃ r ∈ w.manifest, r.archiveKey = key
  · obtain ⟨r, hr, rfl⟩ := hrow
    rw [rowsOf_eq_singleton hw.unique hr, rowsOf_eq_singleton (hw.step lib run).unique ((hsame r rfl).2 hr)]
  · have hno : ∀ r : ManifestRow, r ∈ w.manifest → r.archiveKey ≠ key := fun r hr hkey => hrow ⟨r, hr, hkey⟩
    have hbefore : rowsOf w.manifest key = [] := List.filter_eq_nil_iff.2 (fun r hr => by simpa using hno r hr)
    have hafter : rowsOf (w.step lib run).manifest key = [] :=
      List.filter_eq_nil_iff.2 (fun r hr => by
        rw [decide_eq_true_eq]
        exact fun hkey => hno r ((hsame r hkey).1 hr) hkey)
    rw [hbefore, hafter]

/-- Each outcome's file has an outcome that comes first, of no later status. -/
theorem exists_first {w : Store} (run : BackfillRun) {o : OutcomeRow} (ho : o ∈ w.outcomes ++ w.emitted lib run) :
    ∃ first, w.First lib run first ∧ first.key = o.key ∧ first.outcome.status.rank ≤ o.outcome.status.rank ∧
      (first ∈ w.outcomes ∨ first ∈ w.emitted lib run) := by
  obtain ⟨first, hfirst, hkey, hle⟩ := rowNumberOne_covers OutcomeRow.key (fun o => some o.outcome.status.rank)
    (run.scan.order (w.outcomes ++ w.emitted lib run)) o ((run.scan.perm _).mem_iff.2 ho)
  refine ⟨first, (mem_rowNumberOne_iff _ _ _ _).1 hfirst, hkey, by simpa [ltNullsLast] using hle, ?_⟩
  exact List.mem_append.1 ((run.scan.perm _).mem_iff.1 (mem_of_mem_rowNumberOne _ _ hfirst))

/-- **A run is reflected exactly when it supersedes what came before.** -/
theorem reflectsRun_iff {w : Store} (hw : w.Sound) (run : BackfillRun) :
    ReflectsRun (w.emitted lib run) w.manifest (w.step lib run).manifest ↔ Supersedes lib w run := by
  constructor
  · intro h
    refine ⟨?_, ?_⟩
    · intro first hearlier hfirst o ho hkey
      obtain ⟨r, hrows, ⟨o', ho', hkey', hrecords⟩, -⟩ := h.loaded o ho
      rw [hkey, rowsOf_first lib hw hfirst] at hrows
      cases hrows
      exact ⟨o', ho', hkey'.trans hkey, hrecords⟩
    · intro first hearlier hfirst hleft
      have hrows := h.kept first.key hleft
      rw [rowsOf_first lib hw hfirst] at hrows
      have hmem : manifestRow run.now first ∈ rowsOf w.manifest first.key := by
        rw [← hrows]
        exact List.mem_singleton.2 rfl
      exact (mem_rowsOf.1 hmem).1
  · intro h
    refine ⟨?_, ?_⟩
    · intro o ho
      obtain ⟨first, hfirst, hkey, hle, hfrom⟩ := exists_first lib run (List.mem_append_right w.outcomes ho)
      refine ⟨manifestRow run.now first, by rw [← hkey]; exact rowsOf_first lib hw hfirst, ?_, ?_⟩
      · rcases hfrom with hearlier | hemitted
        · obtain ⟨o', ho', hkey', hrecords⟩ := h.loaded first hearlier hfirst o ho hkey.symm
          exact ⟨o', ho', hkey'.trans hkey, hrecords⟩
        · exact ⟨first, hemitted, hkey, rfl, rfl, rfl, rfl⟩
      · intro hdone
        rw [hdone] at hle
        show first.outcome.status = .done
        cases hstatus : first.outcome.status <;> rw [hstatus] at hle <;> first | rfl | exact absurd hle (by decide)
    · intro key hleft
      by_cases hany : ∃ o ∈ w.outcomes, o.key = key
      · obtain ⟨o, ho, rfl⟩ := hany
        obtain ⟨first, hfirst, hkey, -, hfrom⟩ := exists_first lib run (List.mem_append_left (w.emitted lib run) ho)
        have hleft' : ∀ o' ∈ w.emitted lib run, o'.key ≠ first.key := fun o' ho' => by
          rw [hkey]
          exact hleft o' ho'
        have hearlier : first ∈ w.outcomes := hfrom.resolve_right (fun hemitted => hleft' first hemitted rfl)
        have hrow := rowsOf_eq_singleton hw.unique (h.leftOut first hearlier hfirst hleft')
        rw [← hkey, rowsOf_first lib hw hfirst]
        exact hrow.symm
      · refine rowsOf_unrecorded lib hw (fun o ho hkey => ?_)
        rcases List.mem_append.1 ho with ho | ho
        · exact hany ⟨o, ho, hkey⟩
        · exact hleft o ho hkey

/-- **Once the clock has moved on**, no file may be left out that a run before has loaded. -/
theorem supersedes_iff_of_later {w : Store} {run : BackfillRun} (hlater : ∀ r ∈ w.manifest, r.completedTs < run.now) :
    Supersedes lib w run ↔
      (∀ first ∈ w.outcomes, w.First lib run first → ∃ o ∈ w.emitted lib run, o.key = first.key ∧
        Records (manifestRow run.now first) o) ∧
      ∀ o ∈ w.outcomes, ∃ o' ∈ w.emitted lib run, o'.key = o.key := by
  constructor
  · intro h
    have hagain : ∀ o ∈ w.outcomes, ∃ o' ∈ w.emitted lib run, o'.key = o.key := by
      intro o ho
      apply Decidable.byContradiction
      intro hnone
      obtain ⟨first, hfirst, hkey, -, hfrom⟩ := exists_first lib run (List.mem_append_left (w.emitted lib run) ho)
      have hleft : ∀ o' ∈ w.emitted lib run, o'.key ≠ first.key := fun o' ho' he => hnone ⟨o', ho', he.trans hkey⟩
      have hearlier : first ∈ w.outcomes := hfrom.resolve_right (fun hemitted => hleft first hemitted rfl)
      exact absurd (hlater _ (h.leftOut first hearlier hfirst hleft)) (Int.lt_irrefl run.now)
    refine ⟨fun first hearlier hfirst => ?_, hagain⟩
    obtain ⟨o, ho, hkey⟩ := hagain first hearlier
    exact h.loaded first hearlier hfirst o ho hkey
  · rintro ⟨hloaded, hagain⟩
    refine ⟨fun first hearlier hfirst _ _ _ => hloaded first hearlier hfirst, fun first hearlier hfirst hleft => ?_⟩
    obtain ⟨o, ho, hkey⟩ := hagain first hearlier
    exact absurd hkey (hleft o ho)

/-- **The manifest reflects every run exactly when** each run supersedes the outcomes that the runs before it left. -/
theorem latestRun_iff (runs : List BackfillRun) :
    AllSteps (Store.step lib) (fun w run => ReflectsRun (w.emitted lib run) w.manifest (w.step lib run).manifest)
        Store.empty runs ↔
      AllSteps (Store.step lib) (Supersedes lib) Store.empty runs := by
  refine AllSteps.congr (I := Store.Sound) (fun w run hw => reflectsRun_iff lib hw run)
    (fun w run hw _ => hw.step lib run) ?_
  exact ⟨fun o ho => (by cases ho), List.Pairwise.nil⟩

/-! ## A file that fails after it was done -/

def asWritten : ScanOrder where
  order rows := rows
  perm rows := .refl rows

/-- October the fourth is loaded. -/
def firstFetch : BackfillRun := ⟨[⟨workItem octoberFourth, oneTradeArchive, fun _ => .served⟩], "1", 1728086400000, asWritten⟩

/-- And then with `--fresh`, from an archive that has lost it. -/
def secondFetch : BackfillRun := ⟨[⟨workItem octoberFourth, fun _ => none, fun _ => .served⟩], "2", 1728172800000, asWritten⟩

theorem later_failure_is_not_recorded :
    ¬ AllSteps (Store.step plainZip)
      (fun w run => ReflectsRun (w.emitted plainZip run) w.manifest (w.step plainZip run).manifest) Store.empty
      [firstFetch, secondFetch] := by
  intro h
  have hreflects := h [firstFetch] secondFetch [] rfl
  have hemitted : (((Store.empty.step plainZip firstFetch).emitted plainZip secondFetch).map
      (fun o => (o.key, o.outcome.status))) = [(octoberFourth.key, .skippedNoData)] := by
    decide +kernel
  have hrows : (rowsOf ((Store.empty.step plainZip firstFetch).step plainZip secondFetch).manifest octoberFourth.key).map
      ManifestRow.status = [.done] := by
    decide +kernel
  obtain ⟨o, ho, hkey⟩ := List.mem_map.1 (show (octoberFourth.key, Status.skippedNoData) ∈ _ from
    hemitted ▸ List.mem_singleton.2 rfl)
  obtain ⟨r, hr, ⟨o', ho', -, hrecords⟩, -⟩ := hreflects.loaded o ho
  have hskipped : (o'.key, o'.outcome.status) = (octoberFourth.key, Status.skippedNoData) :=
    List.mem_singleton.1 (hemitted ▸ List.mem_map_of_mem ho')
  have hdone : rowsOf ((Store.empty.step plainZip firstFetch).step plainZip secondFetch).manifest octoberFourth.key =
      [r] := (Prod.mk.inj hkey).1 ▸ hr
  rw [hdone] at hrows
  have hstatus : r.status = .done := (List.cons.inj hrows).1
  rw [hrecords.status, (Prod.mk.inj hskipped).2] at hstatus
  cases hstatus

end Backfill
