import RealtimeFinance.Python.Calendar
import RealtimeFinance.StepFunctions.Executions
/-!
# Clock — `DeriveMaintenanceClock`, and the start time it splits

The hour and the minute of an execution are cut out of the text of its start time (`deriveMaintenanceClock_isoInstant`).
An execution that is past its guard visits the states its completions lead it through (`visits_iff`).
-/
namespace StepFunctions

open Python.Date (padded isDigit_of_mem_padded)

/-! ## The intrinsics -/

/-- `States.StringSplit`, of one delimiter. -/
def stringSplit (text : String) (delimiter : Char) : List String :=
  (text.toList.splitOn delimiter).map String.ofList

/-- `States.ArrayGetItem`; `none` where it fails. -/
def arrayGetItem (items : List String) (index : Nat) : Option String := items[index]?

def deriveMaintenanceClock (startTime : String) : Option StartTime :=
  (arrayGetItem (stringSplit startTime 'T') 1).bind fun time =>
    (arrayGetItem (stringSplit time ':') 0).bind fun hour =>
      (arrayGetItem (stringSplit time ':') 1).map fun minute => { hour, minute }

/-! ## The text of an instant -/

/-- Year, month and day of a day counted from 1970-01-01, in eras of 400 years that begin on a first of March. -/
def civilDate (days : Nat) : Nat × Nat × Nat :=
  let z := days + 719468
  let dayOfEra := z % 146097
  let yearOfEra := (dayOfEra - dayOfEra / 1460 + dayOfEra / 36524 - dayOfEra / 146096) / 365
  let dayOfYear := dayOfEra - (365 * yearOfEra + yearOfEra / 4 - yearOfEra / 100)
  let march := (5 * dayOfYear + 2) / 153
  let year := yearOfEra + z / 146097 * 400
  if march < 10 then (year, march + 3, dayOfYear - (153 * march + 2) / 5 + 1)
  else (year + 1, march - 9, dayOfYear - (153 * march + 2) / 5 + 1)

def hourOf (ms : Nat) : Nat := ms / 3600000 % 24

def minuteOf (ms : Nat) : Nat := ms / 60000 % 60

/-- `YYYY-MM-DD`. -/
def isoDate (ms : Nat) : String :=
  let date := civilDate (ms / 86400000)
  padded 4 date.1 ++ "-" ++ padded 2 date.2.1 ++ "-" ++ padded 2 date.2.2

/-- `HH:MM:SS.mmmZ`. -/
def isoTime (ms : Nat) : String :=
  padded 2 (hourOf ms) ++ ":" ++ (padded 2 (minuteOf ms) ++ ":" ++
    (padded 2 (ms / 1000 % 60) ++ "." ++ padded 3 (ms % 1000) ++ "Z"))

/-- An instant in milliseconds since 1970, as ISO 8601 text in UTC. -/
def isoInstant (ms : Nat) : String := isoDate ms ++ "T" ++ isoTime ms

example : isoInstant 1709208307042 = "2024-02-29T12:05:07.042Z" := by decide +kernel

theorem not_mem_padded {width n : Nat} {c : Char} (hc : c.isDigit = false) : c ∉ (padded width n).toList := by
  intro h
  rw [isDigit_of_mem_padded h] at hc
  cases hc

/-- What stands before the first delimiter, and what after it. -/
theorem stringSplit_append {before : String} {delimiter : Char} (h : delimiter ∉ before.toList) (rest : String) :
    stringSplit (before ++ String.ofList [delimiter] ++ rest) delimiter = before :: stringSplit rest delimiter := by
  unfold stringSplit
  rw [String.toList_append, String.toList_append, String.toList_ofList, List.append_assoc, List.singleton_append,
    List.splitOn_append_cons_self, List.splitOn_eq_singleton h, List.singleton_append, List.map_cons, String.ofList_toList]

theorem stringSplit_eq_singleton {text : String} {delimiter : Char} (h : delimiter ∉ text.toList) :
    stringSplit text delimiter = [text] := by
  unfold stringSplit
  rw [List.splitOn_eq_singleton h, List.map_singleton, String.ofList_toList]

/-- **The clock of an execution** is the hour and the minute of its start, of two digits each. -/
theorem deriveMaintenanceClock_isoInstant (ms : Nat) : deriveMaintenanceClock (isoInstant ms) =
    some { hour := padded 2 (hourOf ms), minute := padded 2 (minuteOf ms) } := by
  have hdate : 'T' ∉ (isoDate ms).toList := by
    simp only [isoDate, String.toList_append, List.mem_append, not_or]
    exact ⟨⟨⟨⟨not_mem_padded rfl, by decide⟩, not_mem_padded rfl⟩, by decide⟩, not_mem_padded rfl⟩
  have htime : 'T' ∉ (isoTime ms).toList := by
    simp only [isoTime, String.toList_append, List.mem_append, not_or]
    refine ⟨⟨not_mem_padded rfl, by decide⟩, ⟨not_mem_padded rfl, by decide⟩, ⟨⟨?_, by decide⟩, ?_⟩, by decide⟩
    · exact not_mem_padded rfl
    · exact not_mem_padded rfl
  have hinstant : stringSplit (isoInstant ms) 'T' = [isoDate ms, isoTime ms] := by
    have hsplit := stringSplit_append hdate (isoTime ms)
    rw [stringSplit_eq_singleton htime] at hsplit
    exact hsplit
  obtain ⟨seconds, hseconds⟩ : ∃ seconds, stringSplit (isoTime ms) ':' =
      padded 2 (hourOf ms) :: padded 2 (minuteOf ms) :: stringSplit seconds ':' := by
    have hhour : ':' ∉ (padded 2 (hourOf ms)).toList := not_mem_padded rfl
    have hminute : ':' ∉ (padded 2 (minuteOf ms)).toList := not_mem_padded rfl
    exact ⟨_, (stringSplit_append hhour _).trans (congrArg _ (stringSplit_append hminute _))⟩
  simp [deriveMaintenanceClock, arrayGetItem, hinstant, hseconds]

/-- **A two-digit number reads `00`** only of zero. -/
theorem padded_eq_zeros {n : Nat} (h : n < 60) : padded 2 n = "00" ↔ n = 0 := by
  have hall : ∀ n < 60, padded 2 n = "00" ↔ n = 0 := by decide +kernel
  exact hall n h

/-! ## What an execution visits -/

variable {β τ : Type} (definition : Definition β τ)

/-- An execution past its guard. -/
def admitted (startTime : StartTime) : MachineExecution β := ⟨startTime, .guarded definition.default⟩

def MachineExecution.after (x : MachineExecution β) (tasks : List τ) : MachineExecution β :=
  tasks.foldl (fun x task => x.completed definition task) x

def MachineExecution.Visits (x : MachineExecution β) (tasks : List τ) (state : β) : Prop :=
  ∃ pre, pre <+: tasks ∧ (x.after definition pre).phase = .guarded state

/-- Nothing is left that a completion would change. -/
def MachineExecution.Exhausted (x : MachineExecution β) (tasks : List τ) : Prop :=
  ∀ task, (x.after definition tasks).completed definition task = x.after definition tasks

variable {definition}

theorem MachineExecution.visits_nil {x : MachineExecution β} {state : β} :
    x.Visits definition [] state ↔ x.phase = .guarded state := by
  constructor
  · rintro ⟨pre, hpre, hphase⟩
    rw [List.prefix_nil.1 hpre] at hphase
    exact hphase
  · exact fun h => ⟨[], List.prefix_rfl, h⟩

theorem MachineExecution.visits_cons {x : MachineExecution β} {task : τ} {tasks : List τ} {state : β} :
    x.Visits definition (task :: tasks) state ↔
      x.phase = .guarded state ∨ (x.completed definition task).Visits definition tasks state := by
  constructor
  · rintro ⟨pre, hpre, hphase⟩
    cases pre with
    | nil => exact Or.inl hphase
    | cons t pre =>
      obtain ⟨heq, hrest⟩ := List.cons_prefix_cons.1 hpre
      subst heq
      exact Or.inr ⟨pre, hrest, hphase⟩
  · rintro (h | ⟨pre, hpre, hphase⟩)
    · exact ⟨[], List.nil_prefix, h⟩
    · exact ⟨task :: pre, List.cons_prefix_cons.2 ⟨rfl, hpre⟩, hphase⟩

theorem MachineExecution.not_visits_ended {startTime : StartTime} {tasks : List τ} {state : β} :
    ¬ (⟨startTime, .ended⟩ : MachineExecution β).Visits definition tasks state := by
  induction tasks with
  | nil =>
    rw [MachineExecution.visits_nil]
    exact fun h => by cases h
  | cons task tasks ih =>
    rw [MachineExecution.visits_cons]
    rintro (h | h)
    · cases h
    · exact ih h

/-- **An execution that ends visits the target exactly from the states whose completions lead to it.** -/
theorem MachineExecution.visits_iff {startTime : StartTime} (target : β) (Leads : β → Prop)
    (htarget : Leads target)
    (hnext : ∀ state task state', definition.completes startTime state task = .next state' →
      (Leads state ↔ state = target ∨ Leads state'))
    (hfinishes : ∀ state task, definition.completes startTime state task = .finishes → (Leads state ↔ state = target)) :
    ∀ (tasks : List τ) (state : β), ((⟨startTime, .guarded state⟩ : MachineExecution β).after definition tasks).phase = .ended →
      ((⟨startTime, .guarded state⟩ : MachineExecution β).Visits definition tasks target ↔ Leads state)
  | [], state, h => by cases h
  | task :: tasks, state, h => by
    have hphase : (⟨startTime, .guarded state⟩ : MachineExecution β).phase = .guarded target ↔ state = target :=
      ⟨fun h => Phase.guarded.inj h, fun h => congrArg Phase.guarded h⟩
    have hafter : (((⟨startTime, .guarded state⟩ : MachineExecution β).completed definition task).after definition
      tasks).phase = .ended := h
    rw [MachineExecution.visits_cons, hphase]
    cases hc : definition.completes startTime state task with
    | stays =>
      simp only [MachineExecution.completed, hc] at hafter ⊢
      rw [visits_iff target Leads htarget hnext hfinishes tasks state hafter]
      exact or_iff_right_of_imp (fun h => h ▸ htarget)
    | next state' =>
      simp only [MachineExecution.completed, hc] at hafter ⊢
      rw [visits_iff target Leads htarget hnext hfinishes tasks state' hafter, hnext state task state' hc]
    | finishes =>
      simp only [MachineExecution.completed, hc] at hafter ⊢
      rw [hfinishes state task hc]
      exact or_iff_left MachineExecution.not_visits_ended

end StepFunctions
