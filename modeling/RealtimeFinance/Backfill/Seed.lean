import RealtimeFinance.Backfill.Windows
/-!
# Seed — `awsnative.backfill.seed`, and the one page it reads the manifest through

A run is planned without the files recorded DONE.  `fetch_rows` returns the first page of that query and no other, and
the first row of the page is the header, so what is past the page is planned and fetched again (`resumeExact_iff`).
-/
namespace Backfill

open Python

/-! ## The query and its page -/

/-- The cells of a result row; a NULL has no text. -/
abbrev ResultRow := List (Option String)

/-- `GetQueryResults` of a query that has succeeded: the order the rows come in, and the first page. -/
structure QueryResults where
  order : List ResultRow → List ResultRow
  perm : ∀ rows, (order rows).Perm rows
  firstPage : Nat → List ResultRow → List ResultRow
  isPrefix : ∀ maxResults rows, firstPage maxResults rows <+: rows
  atMost : ∀ maxResults rows, (firstPage maxResults rows).length ≤ maxResults
  /-- A page that may hold a row has the header. -/
  headed : ∀ maxResults header rows, 0 < maxResults → firstPage maxResults (header :: rows) ≠ []

/-- A dict of the row, as `dict(zip(header, cells))` makes it: of two values of a key it has the later. -/
def dictOf (header cells : List String) (key : String) : Option String := (header.zip cells).reverse.lookup key

/-- `fetch_rows`. -/
def fetchRows (athena : QueryResults) (result : List ResultRow) (maxRows : Nat) : List (String → Option String) :=
  match athena.firstPage (min (maxRows + 1) 1000) result with
  | []             => []
  | header :: rows => rows.map (fun row => dictOf (header.map (fun c => c.getD "")) (row.map (fun c => c.getD "")))

/-- What `done_keys_sql` returns, under its header. -/
def doneResult (athena : QueryResults) (tier : Tier) (manifest : List ManifestRow) : List ResultRow :=
  [some "archive_key"] :: athena.order
    ((manifest.filter (fun r => decide (r.tier = tier ∧ r.status = .done))).map (fun r => [some r.archiveKey]))

/-- `done_keys`. -/
def doneKeysOf (rows : List (String → Option String)) : List String :=
  (rows.filterMap (fun row => row "archive_key")).filter (fun key => !key.isEmpty)

/-! ## `main` -/

structure SeedArgs where
  entries : Universe
  tier : Tier
  start : Date
  stop : Date
  fresh : Bool
  dryRun : Bool

inductive SeedOutput
  | startAfterEnd
  | dryRun (items : List WorkItem)
  /-- The items, written where there are any. -/
  | planned (items : List WorkItem)

/-- What the run plans. -/
def SeedOutput.items : SeedOutput → List WorkItem
  | .planned items => items
  | _              => []

def seedMain (athena : QueryResults) (args : SeedArgs) (today : Date) (manifest : List ManifestRow) : Option SeedOutput :=
  if ¬ args.start ≤ args.stop then some .startAfterEnd
  else do
    let pairs ← instrumentPairs args.entries
    let files ← filesForWindow pairs args.tier args.start args.stop today
    if args.dryRun then return .dryRun (plan files [])
    else
      let already := if args.fresh then [] else doneKeysOf (fetchRows athena (doneResult athena args.tier manifest) 1000)
      return .planned (plan files already)

/-! ## What a page holds -/

/-- The manifest records the file of the key as DONE. -/
def RecordedDone (tier : Tier) (manifest : List ManifestRow) (key : String) : Prop :=
  ∃ r ∈ manifest, r.archiveKey = key ∧ r.tier = tier ∧ r.status = .done

instance (tier : Tier) (manifest : List ManifestRow) (key : String) : Decidable (RecordedDone tier manifest key) :=
  inferInstanceAs (Decidable (∃ r ∈ manifest, r.archiveKey = key ∧ r.tier = tier ∧ r.status = .done))

/-- The rows of the page that `main` reads, its header left out. -/
def doneRowsRead (athena : QueryResults) (tier : Tier) (manifest : List ManifestRow) : List ResultRow :=
  (athena.firstPage 1000 (doneResult athena tier manifest)).tail

/-- The page begins with the header, and what follows begins the query's rows. -/
theorem doneRowsRead_prefix (athena : QueryResults) (tier : Tier) (manifest : List ManifestRow) :
    ∃ rest, athena.firstPage 1000 (doneResult athena tier manifest) =
        [some "archive_key"] :: doneRowsRead athena tier manifest ∧
      (doneResult athena tier manifest).tail = doneRowsRead athena tier manifest ++ rest := by
  obtain ⟨rest, hrest⟩ := athena.isPrefix 1000 (doneResult athena tier manifest)
  have hheaded : athena.firstPage 1000 (doneResult athena tier manifest) ≠ [] :=
    athena.headed 1000 _ _ (by decide)
  unfold doneRowsRead
  cases hpage : athena.firstPage 1000 (doneResult athena tier manifest) with
  | nil => exact absurd hpage hheaded
  | cons header rows =>
    rw [hpage] at hrest
    have hheader : header = [some "archive_key"] := (List.cons.inj hrest).1
    refine ⟨rest, by rw [hheader]; rfl, ?_⟩
    rw [← hrest]
    rfl

/-- **A row that is read is a file recorded DONE.** -/
theorem recordedDone_of_read {athena : QueryResults} {tier : Tier} {manifest : List ManifestRow} {row : ResultRow}
    (h : row ∈ doneRowsRead athena tier manifest) : ∃ key, row = [some key] ∧ RecordedDone tier manifest key := by
  obtain ⟨rest, -, hrows⟩ := doneRowsRead_prefix athena tier manifest
  have hmem : row ∈ (doneResult athena tier manifest).tail := by
    rw [hrows]
    exact List.mem_append_left rest h
  obtain ⟨r, hr, rfl⟩ := List.mem_map.1 ((athena.perm _).mem_iff.1 hmem)
  obtain ⟨hmanifest, hdone⟩ := List.mem_filter.1 hr
  obtain ⟨htier, hstatus⟩ := of_decide_eq_true hdone
  exact ⟨r.archiveKey, rfl, r, hmanifest, rfl, htier, hstatus⟩

theorem dictOf_archive_key (key : String) : dictOf ["archive_key"] [key] "archive_key" = some key := rfl

/-- **The keys that `main` skips** are those of the rows it read. -/
theorem mem_doneKeysOf {athena : QueryResults} {tier : Tier} {manifest : List ManifestRow} {key : String} :
    key ∈ doneKeysOf (fetchRows athena (doneResult athena tier manifest) 1000) ↔
      [some key] ∈ doneRowsRead athena tier manifest ∧ key ≠ "" := by
  obtain ⟨rest, hpage, -⟩ := doneRowsRead_prefix athena tier manifest
  have hrows : fetchRows athena (doneResult athena tier manifest) 1000 = (doneRowsRead athena tier manifest).map
      (fun row => dictOf ["archive_key"] (row.map (fun c => c.getD ""))) := by
    unfold fetchRows
    rw [show min (1000 + 1) 1000 = 1000 by decide, hpage]
    rfl
  unfold doneKeysOf
  rw [hrows, List.mem_filter, List.mem_filterMap]
  constructor
  · rintro ⟨⟨row, hrow, hkey⟩, hne⟩
    obtain ⟨read, hread, rfl⟩ := List.mem_map.1 hrow
    obtain ⟨key', rfl, -⟩ := recordedDone_of_read hread
    rw [List.map_cons, List.map_nil, Option.getD_some, dictOf_archive_key] at hkey
    cases hkey
    exact ⟨hread, by simpa using hne⟩
  · rintro ⟨hread, hne⟩
    exact ⟨⟨_, List.mem_map_of_mem hread, dictOf_archive_key key⟩, by simpa using hne⟩

theorem ArchiveFile.key_ne_empty (f : ArchiveFile) : f.key ≠ "" := by
  intro h
  have hfilename : f.filename = "" := (String.append_eq_empty_iff.1 h).2
  exact absurd (String.append_eq_empty_iff.1 hfilename).2 (by decide)

theorem workItem_injective {f g : ArchiveFile} (h : workItem f = workItem g) : f = g := by
  cases f
  cases g
  simp only [workItem, WorkItem.mk.injEq] at h
  obtain ⟨rfl, -, rfl, rfl, rfl, rfl, rfl, -⟩ := h
  rfl

/-- Two filters keep the same files exactly when they agree on each. -/
theorem filter_eq_iff {α : Type} {p q : α → Bool} {xs : List α} : xs.filter p = xs.filter q ↔ ∀ x ∈ xs, p x = q x := by
  constructor
  · intro h x hx
    have hiff : x ∈ xs.filter p ↔ x ∈ xs.filter q := by rw [h]
    simp only [List.mem_filter, hx, true_and] at hiff
    exact Bool.eq_iff_iff.2 hiff
  · exact List.filter_congr

/-- The files that are left to fetch. -/
def unfinished (tier : Tier) (manifest : List ManifestRow) (files : List ArchiveFile) : List ArchiveFile :=
  files.filter (fun f => !decide (RecordedDone tier manifest f.key))

/-- **A plan is exact exactly when** every file of it that is recorded DONE was read. -/
theorem plan_exact_iff (athena : QueryResults) (tier : Tier) (manifest : List ManifestRow) (files : List ArchiveFile) :
    plan files (doneKeysOf (fetchRows athena (doneResult athena tier manifest) 1000)) =
        (unfinished tier manifest files).map workItem ↔
      ∀ f ∈ files, RecordedDone tier manifest f.key → [some f.key] ∈ doneRowsRead athena tier manifest := by
  unfold plan unfinished
  rw [List.map_inj_right (fun _ _ => workItem_injective), filter_eq_iff]
  refine forall₂_congr (fun f _ => ?_)
  rw [Bool.eq_iff_iff]
  simp only [Bool.not_eq_true', List.contains_eq_mem, decide_eq_false_iff_not, mem_doneKeysOf, f.key_ne_empty, ne_eq,
    not_false_eq_true, and_true]
  constructor
  · intro h hdone
    exact Decidable.byContradiction (fun hread => h.1 hread hdone)
  · intro h
    constructor
    · intro hread hdone
      exact hread (h hdone)
    · intro hdone hread
      obtain ⟨key, hkey, hrecorded⟩ := recordedDone_of_read hread
      cases hkey
      exact hdone hrecorded

theorem seedMain_plans (athena : QueryResults) {args : SeedArgs} (hfresh : args.fresh = false)
    (hdryRun : args.dryRun = false) (hwindow : args.start ≤ args.stop) {today : Date} (manifest : List ManifestRow)
    {pairs : List (String × String)} {files : List ArchiveFile} (hpairs : instrumentPairs args.entries = some pairs)
    (hfiles : filesForWindow pairs args.tier args.start args.stop today = some files) :
    (seedMain athena args today manifest).map SeedOutput.items =
      some (plan files (doneKeysOf (fetchRows athena (doneResult athena args.tier manifest) 1000))) := by
  unfold seedMain
  rw [if_neg (not_not_intro hwindow), hpairs]
  simp only [Option.bind_eq_bind, Option.bind_some, hfiles, hdryRun, hfresh]
  rfl

/-- **Resume is exact exactly when** the first page of the query has every file of the window that is recorded DONE. -/
theorem resumeExact_iff (athena : QueryResults) (args : SeedArgs) (hfresh : args.fresh = false)
    (hdryRun : args.dryRun = false) (today : Date) (manifest : List ManifestRow) :
    (∀ pairs files, instrumentPairs args.entries = some pairs →
        filesForWindow pairs args.tier args.start args.stop today = some files →
        (seedMain athena args today manifest).map SeedOutput.items =
          some ((unfinished args.tier manifest files).map workItem)) ↔
      ∀ pairs files, instrumentPairs args.entries = some pairs →
        filesForWindow pairs args.tier args.start args.stop today = some files →
        ∀ f ∈ files, RecordedDone args.tier manifest f.key → [some f.key] ∈ doneRowsRead athena args.tier manifest := by
  refine forall₄_congr (fun pairs files hpairs hfiles => ?_)
  by_cases hwindow : args.start ≤ args.stop
  · rw [seedMain_plans athena hfresh hdryRun hwindow manifest hpairs hfiles, Option.some.injEq]
    exact plan_exact_iff athena args.tier manifest files
  · have hempty : files = [] := by
      unfold filesForWindow at hfiles
      rw [if_neg hwindow] at hfiles
      exact (Option.some.inj hfiles).symm
    have hmain : seedMain athena args today manifest = some .startAfterEnd := if_pos hwindow
    rw [hmain, hempty]
    exact iff_of_true rfl (fun f hf => by cases hf)

/-- **A page has the header and 999 rows at most**, so no window with more DONE files is resumed. -/
theorem doneRowsRead_length (athena : QueryResults) (tier : Tier) (manifest : List ManifestRow) :
    (doneRowsRead athena tier manifest).length ≤ 999 := by
  have hpage := athena.atMost 1000 (doneResult athena tier manifest)
  unfold doneRowsRead
  rw [List.length_tail]
  omega

theorem unread_of_many {athena : QueryResults} {tier : Tier} {manifest : List ManifestRow} {files : List ArchiveFile}
    (hkeys : (files.map ArchiveFile.key).Nodup)
    (hmany : 999 < (files.filter (fun f => decide (RecordedDone tier manifest f.key))).length) :
    ∃ f ∈ files, RecordedDone tier manifest f.key ∧ [some f.key] ∉ doneRowsRead athena tier manifest := by
  apply Decidable.byContradiction
  intro hnone
  have hsub : (files.filter (fun f => decide (RecordedDone tier manifest f.key))).map (fun f => [some f.key]) ⊆
      doneRowsRead athena tier manifest := by
    intro row hrow
    obtain ⟨f, hf, rfl⟩ := List.mem_map.1 hrow
    obtain ⟨hfile, hdone⟩ := List.mem_filter.1 hf
    exact Decidable.byContradiction (fun hread => hnone ⟨f, hfile, of_decide_eq_true hdone, hread⟩)
  have hnodup : ((files.filter (fun f => decide (RecordedDone tier manifest f.key))).map
      (fun f => ([some f.key] : ResultRow))).Nodup := by
    have hfiltered : ((files.filter (fun f => decide (RecordedDone tier manifest f.key))).map ArchiveFile.key).Nodup :=
      hkeys.sublist (List.filter_sublist.map ArchiveFile.key)
    exact List.pairwise_map.2 ((List.pairwise_map.1 hfiltered).imp (fun hne h => hne (by simpa using h)))
  have hle := (hnodup.subperm hsub).length_le
  rw [List.length_map] at hle
  have hpage := doneRowsRead_length athena tier manifest
  omega

/-- Athena with the rows in the manifest's order, and full pages. -/
def fullPages : QueryResults where
  order rows := rows
  perm rows := .refl rows
  firstPage maxResults rows := rows.take maxResults
  isPrefix maxResults rows := rows.take_prefix maxResults
  atMost maxResults rows := by
    rw [List.length_take]
    exact Nat.min_le_left _ _
  headed maxResults header rows h := by
    cases maxResults with
    | zero => exact absurd h (by decide)
    | succ n => exact List.cons_ne_nil _ _

theorem doneRowsRead_fullPages (tier : Tier) (manifest : List ManifestRow) :
    doneRowsRead fullPages tier manifest =
      ((manifest.filter (fun r => decide (r.tier = tier ∧ r.status = .done))).map (fun r => [some r.archiveKey])).take 999 := by
  unfold doneRowsRead doneResult fullPages
  simp only [List.take_succ_cons, List.tail_cons]

/-- **The keys a run is planned without** are those of such a page. -/
theorem mem_doneKeys {tier : Tier} {manifest : List ManifestRow} {key : String} :
    key ∈ doneKeys tier manifest ↔ key ∈ doneKeysOf (fetchRows fullPages (doneResult fullPages tier manifest) 1000) := by
  rw [mem_doneKeysOf, doneRowsRead_fullPages, ← List.map_take]
  unfold doneKeys
  rw [List.mem_filter, List.mem_map, List.mem_map]
  simp

/-! ## A thousand files -/

def octoberDay : Date := ⟨2024, 10, 4, by decide, by decide, by decide, by decide, by decide, by decide⟩

/-- 999 days from the first of 2022. -/
def etherDays : Option (List Date) :=
  (Date.ofParts 2022 1 1).bind (fun start => (Date.ofParts 2024 9 25).bind (daysBetween start))

def etherFile (day : Date) : ArchiveFile := fileOf .hot ("ETH-USD", "ETHUSDT") .daily day.dayText day

def bitcoinFile : ArchiveFile := fileOf .hot ("BTC-USD", "BTCUSDT") .daily octoberDay.dayText octoberDay

def doneRow (f : ArchiveFile) : ManifestRow := manifestRow 0 ⟨workItem f, .ofDone f.key "" 1⟩

/-- The ether files of those days are done, and then the bitcoin file of October the fourth. -/
def thousandDone : List ManifestRow := ((etherDays.getD []).map etherFile ++ [bitcoinFile]).map doneRow

def octoberArgs : SeedArgs :=
  { entries := [⟨"BTC-USD", [("binance", "BTCUSDT"), ("coinbase", "BTC-USD")]⟩], tier := .hot, start := octoberDay
    stop := octoberDay, fresh := false, dryRun := false }

theorem resumeExact_iff_octoberDay :
    (∀ pairs files, instrumentPairs octoberArgs.entries = some pairs →
        filesForWindow pairs octoberArgs.tier octoberArgs.start octoberArgs.stop octoberDay = some files →
        (seedMain fullPages octoberArgs octoberDay thousandDone).map SeedOutput.items =
          some ((unfinished octoberArgs.tier thousandDone files).map workItem)) ↔
      ∀ pairs files, instrumentPairs octoberArgs.entries = some pairs →
        filesForWindow pairs octoberArgs.tier octoberArgs.start octoberArgs.stop octoberDay = some files →
        ∀ f ∈ files, RecordedDone octoberArgs.tier thousandDone f.key →
          [some f.key] ∈ doneRowsRead fullPages octoberArgs.tier thousandDone :=
  resumeExact_iff fullPages octoberArgs rfl rfl octoberDay thousandDone

/-- Two files of one directory level tell their symbols apart. -/
theorem venueSymbol_of_key {f g : ArchiveFile} (htier : f.tier = g.tier) (hgranularity : f.granularity = g.granularity)
    (hlength : f.venueSymbol.toList.length = g.venueSymbol.toList.length) (h : f.key = g.key) :
    f.venueSymbol = g.venueSymbol := by
  have hchars := congrArg String.toList h
  unfold ArchiveFile.key at hchars
  rw [htier, hgranularity] at hchars
  simp only [String.toList_append, List.append_assoc] at hchars
  -- the directory down to the symbol is the same
  replace hchars := List.append_cancel_left (List.append_cancel_left (List.append_cancel_left hchars))
  replace hchars := List.append_cancel_left (List.append_cancel_left hchars)
  exact String.toList_inj.1 (List.append_inj hchars hlength).1

theorem etherFile_key_ne (day : Date) : (etherFile day).key ≠ bitcoinFile.key := by
  intro h
  have hlength : "ETHUSDT".toList.length = "BTCUSDT".toList.length := by decide
  have hsymbol : "ETHUSDT" = "BTCUSDT" := venueSymbol_of_key (f := etherFile day) (g := bitcoinFile) rfl rfl hlength h
  exact absurd hsymbol (by decide)

theorem octoberFiles : filesForWindow [("BTC-USD", "BTCUSDT")] .hot octoberDay octoberDay octoberDay = some [bitcoinFile] := by
  have hmonth : (monthsBetween octoberDay octoberDay).bind (fun months =>
      (months.mapM (filesForMonth .hot octoberDay octoberDay octoberDay ("BTC-USD", "BTCUSDT"))).map List.flatten) =
      some [bitcoinFile] := by
    decide +kernel
  obtain ⟨months, hmonths, hfiles⟩ := Option.bind_eq_some_iff.1 hmonth
  obtain ⟨monthFiles, hmapM, hflat⟩ := Option.map_eq_some_iff.1 hfiles
  unfold filesForWindow
  rw [if_pos (by decide)]
  simp only [List.mapM_cons, List.mapM_nil, hmonths, hmapM, hflat, Option.bind_eq_bind, Option.bind_some, Option.pure_def,
    List.flatten_cons, List.flatten_nil, List.append_nil, List.mergeSort_singleton]

theorem octoberPairs : instrumentPairs octoberArgs.entries = some [("BTC-USD", "BTCUSDT")] := by decide +kernel

/-- The thousandth DONE file is not on the page, and is fetched again. -/
theorem thousandth_file_is_fetched_again :
    ¬ ∀ pairs files, instrumentPairs octoberArgs.entries = some pairs →
        filesForWindow pairs octoberArgs.tier octoberArgs.start octoberArgs.stop octoberDay = some files →
        (seedMain fullPages octoberArgs octoberDay thousandDone).map SeedOutput.items =
          some ((unfinished octoberArgs.tier thousandDone files).map workItem) := by
  intro h
  have hexact := h _ _ octoberPairs octoberFiles
  have hwindow : octoberArgs.start ≤ octoberArgs.stop := by decide
  rw [seedMain_plans fullPages rfl rfl hwindow thousandDone octoberPairs octoberFiles, Option.some.injEq] at hexact
  have hread := (plan_exact_iff fullPages .hot thousandDone [bitcoinFile]).1 hexact bitcoinFile List.mem_cons_self
    ⟨doneRow bitcoinFile, List.mem_map_of_mem (List.mem_append_right _ (List.mem_singleton.2 rfl)), rfl, rfl, rfl⟩
  have hdays : (etherDays.getD []).length = 999 := by decide +kernel
  have hall : thousandDone.filter (fun r => decide (r.tier = .hot ∧ r.status = .done)) = thousandDone := by
    refine List.filter_eq_self.2 (fun r hr => ?_)
    obtain ⟨f, hf, rfl⟩ := List.mem_map.1 hr
    rcases List.mem_append.1 hf with hf | hf
    · obtain ⟨day, -, rfl⟩ := List.mem_map.1 hf
      rfl
    · rw [List.mem_singleton.1 hf]
      rfl
  rw [doneRowsRead_fullPages, hall] at hread
  unfold thousandDone at hread
  rw [List.map_append, List.map_append, List.take_left' (by rw [List.length_map, List.length_map, List.length_map, hdays])]
    at hread
  obtain ⟨r, hr, hkey⟩ := List.mem_map.1 hread
  obtain ⟨f, hf, rfl⟩ := List.mem_map.1 hr
  obtain ⟨day, -, rfl⟩ := List.mem_map.1 hf
  exact etherFile_key_ne day (Option.some.inj (List.cons.inj hkey).1)

end Backfill
