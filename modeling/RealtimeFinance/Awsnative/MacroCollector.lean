import Mathlib.Data.List.TakeWhile
import RealtimeFinance.Python.Csv
import RealtimeFinance.Python.Text
import RealtimeFinance.Runs
/-!
# MacroCollector — `awsnative.enrichment.macro`, and a vintage that is pulled again

A pull asks ALFRED for every series as of one vintage and writes what it read as the vintage's one object.  A series that
does not answer is left out, and the object is overwritten whole; so a pull repeated with a series missing takes from
Bronze what the pull before it had put there, unless it reads all of that again (`macroKnowledge_iff`).
-/
namespace Awsnative.Enrichment

open Python Runs

/-- The ids of `SERIES`. -/
def SERIES : List String := ["DTWEXBGS", "DGS2", "DGS10", "VIXCLS", "SP500", "CPIAUCSL"]

structure MacroObservation where
  seriesId : String
  observationDate : String
  vintageDate : String
  value : String
  deriving DecidableEq

def alfredCsvUrl (seriesId vintageDate : String) : String :=
  "https://alfred.stlouisfed.org/graph/alfredgraph.csv?id=" ++ seriesId ++ "&vintage_date=" ++ vintageDate

/-- What `collect` raises. -/
inductive CollectError
  | undecodable
  | emptyResponse
  | notTwoColumns (header : List (List Char))
  | anotherSeries (seriesId : String) (valueColumn : List Char)
  | csv (e : Csv.Error)
  deriving DecidableEq

/-- `observation_date < since`. -/
def isBefore (since : Option String) (o : MacroObservation) : Bool :=
  since.any (fun s => decide (o.observationDate.toList < s.toList))

def observationOf (seriesId vintageDate : String) (since : Option String) :
    List (List Char) → Option MacroObservation
  | [date, text] =>
    let o : MacroObservation :=
      { seriesId, observationDate := String.ofList (strip date), vintageDate, value := String.ofList (strip text) }
    if (strip text).isEmpty then none
    else if isBefore since o then none
    else some o
  | _ => none

def parseAlfredCsv (text : List Char) (seriesId vintageDate : String) (since : Option String) :
    Except CollectError (List MacroObservation) :=
  match Csv.reader text with
  | ⟨[], none⟩              => .error .emptyResponse
  | ⟨[], some e⟩            => .error (.csv e)
  | ⟨header :: rows, error⟩ =>
    match header with
    | [_, valueColumn] =>
      if seriesId.toList.isPrefixOf valueColumn then
        match error with
        | some e => .error (.csv e)
        | none   => .ok (rows.filterMap (observationOf seriesId vintageDate since))
      else .error (.anotherSeries seriesId valueColumn)
    | _ => .error (.notTwoColumns header)

/-! ## A pull -/

/-- What the URLs answer, whenever they do: characters, or bytes that do not decode. -/
abbrev Alfred := String → Option (List Char)

structure MacroPullCall where
  vintageDate : String
  since : Option String
  /-- The series that are not `UpstreamUnavailable`. -/
  answers : String → Bool

variable (alfred : Alfred)

/-- One turn of the loop over `SERIES`. -/
def MacroPullCall.reading (call : MacroPullCall) (seriesId : String) : Except CollectError (List MacroObservation) :=
  if call.answers seriesId then
    match alfred (alfredCsvUrl seriesId call.vintageDate) with
    | none      => .error .undecodable
    | some text => parseAlfredCsv text seriesId call.vintageDate call.since
  else .ok []

/-- The loop: the observations it has when it ends, or when it raises. -/
def MacroPullCall.collectFrom (call : MacroPullCall) :
    List String → List MacroObservation → List MacroObservation × Option CollectError
  | [], observations                  => (observations, none)
  | seriesId :: series, observations =>
    match call.reading alfred seriesId with
    | .error e => (observations, some e)
    | .ok more => call.collectFrom series (observations ++ more)

def macroKey (vintageDate : String) : String :=
  "bronze_macro_observations/ingest_date=" ++ vintageDate ++ "/macro-" ++ vintageDate ++ ".jsonl.gz"

/-- The objects of `bronze_macro_observations`, under their keys. -/
abbrev MacroBronze := List (String × List MacroObservation)

def MacroBronze.put (bronze : MacroBronze) (key : String) (observations : List MacroObservation) : MacroBronze :=
  bronze.filter (fun object => decide (object.1 ≠ key)) ++ [(key, observations)]

/-- What every merge scans: it has no window. -/
def MacroBronze.rows (bronze : MacroBronze) : List MacroObservation := bronze.flatMap Prod.snd

/-- Bronze, and all that the pulls so far have read. -/
structure MacroKnowledge where
  bronze : MacroBronze
  read : List MacroObservation

def MacroKnowledge.start : MacroKnowledge := ⟨[], []⟩

/-- `MacroCollector.collect`: a pull that raises puts nothing. -/
def MacroKnowledge.step (t : MacroKnowledge) (call : MacroPullCall) : MacroKnowledge :=
  match call.collectFrom alfred SERIES [] with
  | (observations, none)   => ⟨t.bronze.put (macroKey call.vintageDate) observations, t.read ++ observations⟩
  | (observations, some _) => ⟨t.bronze, t.read ++ observations⟩

/-- **All that was read from ALFRED is in Bronze.** -/
def MacroKnowledge.Kept (t : MacroKnowledge) : Prop := ∀ o ∈ t.read, o ∈ t.bronze.rows

/-! ## The condition -/

/-- The call gets an answer for the observation's series, and does not cut the observation off. -/
def MacroPullCall.Rereads (call : MacroPullCall) (o : MacroObservation) : Prop :=
  call.answers o.seriesId = true ∧ isBefore call.since o = false

def MacroPullCall.parses (call : MacroPullCall) (seriesId : String) : Bool := (call.reading alfred seriesId).isOk

/-- The call reads again all that Bronze has of its vintage; where an answer to it does not parse, it has read before
that only what Bronze has. -/
structure KeepsKnowledge (t : MacroKnowledge) (call : MacroPullCall) : Prop where
  completes : (∀ s ∈ SERIES, call.parses alfred s = true) → ∀ o ∈ t.bronze.rows, o.vintageDate = call.vintageDate →
    call.Rereads o
  raises : ¬ (∀ s ∈ SERIES, call.parses alfred s = true) → ∀ s ∈ SERIES.takeWhile (call.parses alfred),
    ∀ o ∈ (call.reading alfred s).toOption.getD [], o ∈ t.bronze.rows

/-! ## What a pull reads -/

/-- ALFRED has the observation. -/
def Reported (o : MacroObservation) : Prop :=
  ∃ text observations, alfred (alfredCsvUrl o.seriesId o.vintageDate) = some text ∧
    parseAlfredCsv text o.seriesId o.vintageDate none = .ok observations ∧ o ∈ observations

theorem isBefore_none (o : MacroObservation) : isBefore none o = false := rfl

theorem observationOf_since (seriesId vintageDate : String) (since : Option String) (row : List (List Char)) :
    observationOf seriesId vintageDate since row =
      (observationOf seriesId vintageDate none row).filter (fun o => !isBefore since o) := by
  unfold observationOf
  split
  · rename_i date text
    by_cases hempty : (strip text).isEmpty = true
    · simp [hempty]
    · generalize (⟨seriesId, String.ofList (strip date), vintageDate, String.ofList (strip text)⟩ : MacroObservation) = o
      cases hbefore : isBefore since o <;> simp [hempty, hbefore, isBefore_none, Option.filter]
  · rfl

theorem mem_observationOf {seriesId vintageDate : String} {since : Option String} {row : List (List Char)}
    {o : MacroObservation} (h : observationOf seriesId vintageDate since row = some o) :
    o.seriesId = seriesId ∧ o.vintageDate = vintageDate := by
  unfold observationOf at h
  split at h
  · simp only at h
    split at h
    · cases h
    · split at h
      · cases h
      · cases h
        exact ⟨rfl, rfl⟩
  · cases h

/-- `since` cuts observations off, and changes nothing else. -/
theorem parseAlfredCsv_since (text : List Char) (seriesId vintageDate : String) (since : Option String) :
    parseAlfredCsv text seriesId vintageDate since =
      (parseAlfredCsv text seriesId vintageDate none).map (fun os => os.filter (fun o => !isBefore since o)) := by
  have hrows : ∀ rows : List (List (List Char)), rows.filterMap (observationOf seriesId vintageDate since) =
      (rows.filterMap (observationOf seriesId vintageDate none)).filter (fun o => !isBefore since o) := by
    intro rows
    rw [List.filter_filterMap]
    congr 1
    funext row
    exact observationOf_since seriesId vintageDate since row
  unfold parseAlfredCsv
  split
  · rfl
  · rfl
  · split
    · split
      · split
        · rfl
        · exact congrArg Except.ok (hrows _)
      · rfl
    · rfl

theorem parseAlfredCsv_ids {text : List Char} {seriesId vintageDate : String} {since : Option String}
    {observations : List MacroObservation}
    (h : parseAlfredCsv text seriesId vintageDate since = .ok observations) {o : MacroObservation}
    (ho : o ∈ observations) : o.seriesId = seriesId ∧ o.vintageDate = vintageDate := by
  unfold parseAlfredCsv at h
  split at h
  · cases h
  · cases h
  · split at h
    · split at h
      · split at h
        · cases h
        · cases h
          obtain ⟨row, -, hrow⟩ := List.mem_filterMap.1 ho
          exact mem_observationOf hrow
      · cases h
    · cases h

/-- **An export of plain columns is parsed**, each row with a value an observation. -/
theorem parseAlfredCsv_export {date valueColumn : List Char} {rows : List (List (List Char))} {seriesId : String}
    (vintageDate : String) (since : Option String) (hseries : seriesId.toList <+: valueColumn)
    (hplain : ∀ record ∈ [date, valueColumn] :: rows, Csv.Plain record) :
    parseAlfredCsv (Csv.writeRecords ([date, valueColumn] :: rows)) seriesId vintageDate since =
      .ok (rows.filterMap (observationOf seriesId vintageDate since)) := by
  unfold parseAlfredCsv
  rw [Csv.reader_writeRecords _ hplain]
  exact if_pos (List.isPrefixOf_iff_prefix.2 hseries)

/-- **What a call reads of a series** is what ALFRED has of it, from its `since` on. -/
theorem mem_reading_iff {call : MacroPullCall} {seriesId : String} {observations : List MacroObservation}
    (h : call.reading alfred seriesId = .ok observations) {o : MacroObservation} : o ∈ observations ↔
      call.Rereads o ∧ Reported alfred o ∧ o.seriesId = seriesId ∧ o.vintageDate = call.vintageDate := by
  unfold MacroPullCall.reading at h
  by_cases hanswers : call.answers seriesId = true
  · rw [if_pos hanswers] at h
    cases htext : alfred (alfredCsvUrl seriesId call.vintageDate) with
    | none =>
      rw [htext] at h
      cases h
    | some text =>
      rw [htext] at h
      simp only [parseAlfredCsv_since text seriesId call.vintageDate call.since] at h
      cases hparse : parseAlfredCsv text seriesId call.vintageDate none with
      | error e =>
        rw [hparse] at h
        cases h
      | ok all =>
        rw [hparse] at h
        cases h
        rw [List.mem_filter, Bool.not_eq_true']
        constructor
        · rintro ⟨ho, hsince⟩
          obtain ⟨rfl, hvintage⟩ := parseAlfredCsv_ids hparse ho
          rw [← hvintage] at htext hparse
          exact ⟨⟨hanswers, hsince⟩, ⟨text, all, htext, hparse, ho⟩, rfl, hvintage⟩
        · rintro ⟨⟨-, hsince⟩, ⟨text', all', htext', hparse', ho⟩, rfl, hvintage⟩
          rw [hvintage, htext] at htext'
          cases htext'
          rw [hvintage, hparse] at hparse'
          cases hparse'
          exact ⟨ho, hsince⟩
  · rw [if_neg hanswers] at h
    cases h
    constructor
    · intro ho
      cases ho
    · rintro ⟨⟨hyes, -⟩, -, rfl, -⟩
      exact absurd hyes hanswers

/-- What the call reads before an answer that does not parse. -/
theorem collectFrom_fst (call : MacroPullCall) (series : List String) (observations : List MacroObservation) :
    (call.collectFrom alfred series observations).1 = observations ++
      (series.takeWhile (call.parses alfred)).flatMap (fun s => (call.reading alfred s).toOption.getD []) := by
  induction series generalizing observations with
  | nil => exact (List.append_nil _).symm
  | cons s series ih =>
    rw [MacroPullCall.collectFrom, List.takeWhile_cons]
    unfold MacroPullCall.parses at ih ⊢
    cases hreading : call.reading alfred s with
    | error e => exact (List.append_nil _).symm
    | ok more =>
      simp only [ih, Except.isOk, Except.toBool, if_true, List.flatMap_cons, List.append_assoc, hreading]
      rfl

theorem collectFrom_snd (call : MacroPullCall) (series : List String) (observations : List MacroObservation) :
    (call.collectFrom alfred series observations).2 = none ↔ ∀ s ∈ series, call.parses alfred s = true := by
  induction series generalizing observations with
  | nil => simp [MacroPullCall.collectFrom]
  | cons s series ih =>
    rw [MacroPullCall.collectFrom, List.forall_mem_cons]
    unfold MacroPullCall.parses at ih ⊢
    cases call.reading alfred s with
    | error e => simp [Except.isOk, Except.toBool]
    | ok more => simp [ih, Except.isOk, Except.toBool]

theorem mem_collected_iff {call : MacroPullCall} {o : MacroObservation} :
    o ∈ (call.collectFrom alfred SERIES []).1 ↔ ∃ s ∈ SERIES.takeWhile (call.parses alfred),
      o ∈ (call.reading alfred s).toOption.getD [] := by
  rw [collectFrom_fst, List.nil_append, List.mem_flatMap]

/-- **A call that parses every answer reads all it asks for.** -/
theorem mem_collected_of_parses {call : MacroPullCall} (h : ∀ s ∈ SERIES, call.parses alfred s = true)
    {o : MacroObservation} : o ∈ (call.collectFrom alfred SERIES []).1 ↔
      call.Rereads o ∧ Reported alfred o ∧ o.seriesId ∈ SERIES ∧ o.vintageDate = call.vintageDate := by
  have hall : SERIES.takeWhile (call.parses alfred) = SERIES := List.takeWhile_eq_self_iff.2 h
  rw [mem_collected_iff, hall]
  constructor
  · rintro ⟨s, hs, ho⟩
    have hparses := h s hs
    unfold MacroPullCall.parses at hparses
    cases hreading : call.reading alfred s with
    | error e =>
      rw [hreading] at hparses
      cases hparses
    | ok observations =>
      rw [hreading] at ho
      obtain ⟨hrereads, hreported, rfl, hvintage⟩ := (mem_reading_iff alfred hreading).1 ho
      exact ⟨hrereads, hreported, hs, hvintage⟩
  · rintro ⟨hrereads, hreported, hs, hvintage⟩
    refine ⟨o.seriesId, hs, ?_⟩
    have hparses := h _ hs
    unfold MacroPullCall.parses at hparses
    cases hreading : call.reading alfred o.seriesId with
    | error e =>
      rw [hreading] at hparses
      cases hparses
    | ok observations => exact (mem_reading_iff alfred hreading).2 ⟨hrereads, hreported, rfl, hvintage⟩

/-! ## Over a run of pulls -/

theorem eq_of_twice {a b c v w : List Char} (h : a ++ (v ++ (b ++ (v ++ c))) = a ++ (w ++ (b ++ (w ++ c)))) : v = w := by
  have hrest := List.append_cancel_left h
  have hlength := congrArg List.length hrest
  simp only [List.length_append] at hlength
  exact (List.append_inj hrest (by omega)).1

theorem toList_macroKey (v : String) : (macroKey v).toList = "bronze_macro_observations/ingest_date=".toList ++
    (v.toList ++ ("/macro-".toList ++ (v.toList ++ ".jsonl.gz".toList))) := by
  unfold macroKey
  rw [String.toList_append, String.toList_append, String.toList_append, String.toList_append, List.append_assoc,
    List.append_assoc, List.append_assoc]

theorem macroKey_injective {v w : String} (h : macroKey v = macroKey w) : v = w := by
  have hchars : (macroKey v).toList = (macroKey w).toList := by rw [h]
  rw [toList_macroKey, toList_macroKey] at hchars
  exact String.toList_injective (eq_of_twice hchars)

/-- Bronze holds what was read, each observation under its vintage. -/
structure MacroKnowledge.Sound (t : MacroKnowledge) : Prop where
  keyed : ∀ object ∈ t.bronze, ∀ o ∈ object.2,
    object.1 = macroKey o.vintageDate ∧ Reported alfred o ∧ o.seriesId ∈ SERIES
  read : ∀ o ∈ t.bronze.rows, o ∈ t.read

theorem sound_start : MacroKnowledge.start.Sound alfred where
  keyed object h := by cases h
  read o h := by cases h

theorem step_of_parses {t : MacroKnowledge} {call : MacroPullCall} (h : ∀ s ∈ SERIES, call.parses alfred s = true) :
    t.step alfred call = ⟨t.bronze.put (macroKey call.vintageDate) (call.collectFrom alfred SERIES []).1,
      t.read ++ (call.collectFrom alfred SERIES []).1⟩ := by
  have herror := (collectFrom_snd alfred call SERIES []).2 h
  unfold MacroKnowledge.step
  split
  · rename_i observations hcollect
    rw [hcollect]
  · rename_i hcollect
    rw [hcollect] at herror
    cases herror

theorem step_of_raises {t : MacroKnowledge} {call : MacroPullCall} (h : ¬ ∀ s ∈ SERIES, call.parses alfred s = true) :
    t.step alfred call = ⟨t.bronze, t.read ++ (call.collectFrom alfred SERIES []).1⟩ := by
  have herror := mt (collectFrom_snd alfred call SERIES []).1 h
  unfold MacroKnowledge.step
  split
  · rename_i hcollect
    rw [hcollect] at herror
    exact absurd rfl herror
  · rename_i observations e hcollect
    rw [hcollect]

theorem mem_put {bronze : MacroBronze} {key : String} {observations : List MacroObservation} {o : MacroObservation} :
    o ∈ (bronze.put key observations).rows ↔ o ∈ observations ∨ ∃ object ∈ bronze, object.1 ≠ key ∧ o ∈ object.2 := by
  unfold MacroBronze.rows MacroBronze.put
  simp only [List.flatMap_append, List.mem_append, List.mem_flatMap, List.mem_filter, decide_eq_true_eq,
    List.mem_singleton, exists_eq_left, and_assoc]
  exact or_comm

theorem MacroKnowledge.Sound.step {t : MacroKnowledge} (h : t.Sound alfred) (call : MacroPullCall) :
    (t.step alfred call).Sound alfred := by
  by_cases hparses : ∀ s ∈ SERIES, call.parses alfred s = true
  · rw [step_of_parses alfred hparses]
    refine ⟨fun object hobject o ho => ?_, fun o ho => ?_⟩
    · rcases List.mem_append.1 hobject with hobject | hobject
      · exact h.keyed object (List.mem_filter.1 hobject).1 o ho
      · rw [List.mem_singleton.1 hobject] at ho ⊢
        obtain ⟨-, hreported, hs, hvintage⟩ := (mem_collected_of_parses alfred hparses).1 ho
        exact ⟨by rw [hvintage], hreported, hs⟩
    · rcases mem_put.1 ho with ho | ⟨object, hobject, -, ho⟩
      · exact List.mem_append_right _ ho
      · exact List.mem_append_left _ (h.read o (List.mem_flatMap.2 ⟨object, hobject, ho⟩))
  · rw [step_of_raises alfred hparses]
    exact ⟨h.keyed, fun o ho => List.mem_append_left _ (h.read o ho)⟩

/-- **A pull keeps what is known exactly when** it reads again what Bronze has of its vintage, or raises before it has
read anything else. -/
theorem kept_step_iff {t : MacroKnowledge} (h : t.Sound alfred) (hkept : t.Kept) (call : MacroPullCall) :
    (t.step alfred call).Kept ↔ KeepsKnowledge alfred t call := by
  by_cases hparses : ∀ s ∈ SERIES, call.parses alfred s = true
  · rw [step_of_parses alfred hparses]
    have hmem : ∀ o ∈ t.bronze.rows, (o ∈ (t.bronze.put (macroKey call.vintageDate)
        (call.collectFrom alfred SERIES []).1).rows ↔ (o.vintageDate = call.vintageDate → call.Rereads o)) := by
      intro o ho
      obtain ⟨object, hobject, hoo⟩ := List.mem_flatMap.1 ho
      obtain ⟨hkey, hreported, hs⟩ := h.keyed object hobject o hoo
      rw [mem_put, mem_collected_of_parses alfred hparses]
      constructor
      · rintro (⟨hrereads, -⟩ | ⟨other, hother, hne, hoother⟩) hvintage
        · exact hrereads
        · rw [(h.keyed other hother o hoother).1, hvintage] at hne
          exact absurd rfl hne
      · intro hrereads
        by_cases hvintage : o.vintageDate = call.vintageDate
        · exact Or.inl ⟨hrereads hvintage, hreported, hs, hvintage⟩
        · refine Or.inr ⟨object, hobject, fun hsame => hvintage ?_, hoo⟩
          exact macroKey_injective (hkey.symm.trans hsame)
    constructor
    · intro hafter
      refine ⟨fun _ o ho => (hmem o ho).1 (hafter o (List.mem_append_left _ (h.read o ho))), fun hraises => ?_⟩
      exact absurd hparses hraises
    · intro hcondition o ho
      rcases List.mem_append.1 ho with ho | ho
      · exact (hmem o (hkept o ho)).2 (hcondition.completes hparses o (hkept o ho))
      · exact mem_put.2 (Or.inl ho)
  · rw [step_of_raises alfred hparses]
    constructor
    · intro hafter
      refine ⟨fun hall => absurd hall hparses, fun _ s hs o ho => ?_⟩
      exact hafter o (List.mem_append_right _ ((mem_collected_iff alfred).2 ⟨s, hs, ho⟩))
    · intro hcondition o ho
      rcases List.mem_append.1 ho with ho | ho
      · exact hkept o ho
      · obtain ⟨s, hs, ho⟩ := (mem_collected_iff alfred).1 ho
        exact hcondition.raises hparses s hs o ho

/-- **A run of pulls keeps all that it reads exactly when** every pull reads again what Bronze has of its vintage. -/
theorem macroKnowledge_iff (calls : List MacroPullCall) :
    AllReached (MacroKnowledge.step alfred) MacroKnowledge.Kept MacroKnowledge.start calls ↔
      AllSteps (MacroKnowledge.step alfred) (KeepsKnowledge alfred) MacroKnowledge.start calls :=
  AllSteps.congr (I := fun t => t.Sound alfred ∧ t.Kept) (fun _ call h => kept_step_iff alfred h.1 h.2 call)
    (fun _ call h hnext => ⟨h.1.step alfred call, hnext⟩) ⟨sound_start alfred, fun o ho => by cases ho⟩

/-! ## A retried pull -/

/-- One observation of CPIAUCSL, and one of DGS10. -/
def januaryExport : Alfred := fun url =>
  if url = alfredCsvUrl "CPIAUCSL" "2026-01-15" then
    some "observation_date,CPIAUCSL_20260115\n2025-08-01,323.364\n".toList
  else some "observation_date,DGS10_20260115\n2026-01-14,4.15\n".toList

def january (available : List String) : MacroPullCall :=
  { vintageDate := "2026-01-15", since := none, answers := fun s => available.contains s }

def augustCpi : MacroObservation :=
  { seriesId := "CPIAUCSL", observationDate := "2025-08-01", vintageDate := "2026-01-15", value := "323.364" }

def firstPull : MacroKnowledge := [january ["CPIAUCSL", "DGS10"]].foldl (MacroKnowledge.step januaryExport) MacroKnowledge.start

/-- The vintage is pulled again, and this time CPIAUCSL does not answer. -/
theorem repeated_pull_loses_cpi : ¬ ∀ (alfred : Alfred) (calls : List MacroPullCall),
    AllReached (MacroKnowledge.step alfred) MacroKnowledge.Kept MacroKnowledge.start calls := by
  intro h
  have hlast : (firstPull.step januaryExport (january ["DGS10"])).Kept :=
    h januaryExport [january ["CPIAUCSL", "DGS10"], january ["DGS10"]] [january ["CPIAUCSL", "DGS10"]]
      (january ["DGS10"]) [] rfl
  have hlost : augustCpi ∈ (firstPull.step januaryExport (january ["DGS10"])).read ∧
      augustCpi ∉ (firstPull.step januaryExport (january ["DGS10"])).bronze.rows := by
    decide +kernel
  exact hlost.2 (hlast augustCpi hlost.1)

end Awsnative.Enrichment
