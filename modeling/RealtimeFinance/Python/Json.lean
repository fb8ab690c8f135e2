import RealtimeFinance.Python.Text
/-!
# Json — dicts, and what `json.loads` puts into them

A dict is its items in the order they were set, so the last item of a key is its value.  Of the values of an object only
the scalars are here, and of the numbers only the integers.
-/
namespace Python

/-- What a step raises. -/
inductive Exception
  | keyError (key : String)
  | typeError
  | valueError (message : String)
  /-- The `ValueError` of `int(text)`. -/
  | invalidLiteral (text : String)
  /-- The `ValueError` of `datetime.fromtimestamp`. -/
  | yearOutOfRange
  | jsonDecodeError
  | timeoutError
  deriving DecidableEq

/-! ## Dicts -/

abbrev Dict (α : Type) := List (String × α)

variable {α : Type}

/-- `d.get(key)`. -/
def Dict.get? : Dict α → String → Option α
  | [], _          => none
  | item :: d, key => (Dict.get? d key).or (if item.1 = key then some item.2 else none)

/-- `d[key]`. -/
def Dict.item (d : Dict α) (key : String) : Except Exception α :=
  match Dict.get? d key with
  | some value => .ok value
  | none       => .error (.keyError key)

theorem Dict.item_eq_ok_iff {d : Dict α} {key : String} {value : α} :
    Dict.item d key = .ok value ↔ Dict.get? d key = some value := by
  unfold Dict.item
  cases Dict.get? d key <;> simp

theorem Dict.get?_eq_none {d : Dict α} {key : String} (h : ∀ item ∈ d, item.1 ≠ key) : Dict.get? d key = none := by
  induction d with
  | nil => rfl
  | cons item d ih =>
    rw [Dict.get?, ih (fun i hi => h i (List.mem_cons_of_mem _ hi)), if_neg (h item List.mem_cons_self)]
    rfl

/-- **A key that was set has a value**, and it is one that was set. -/
theorem Dict.get?_of_mem {d : Dict α} {key : String} (h : ∃ item ∈ d, item.1 = key) :
    ∃ value, Dict.get? d key = some value ∧ (key, value) ∈ d := by
  induction d with
  | nil => simp at h
  | cons item d ih =>
    rw [Dict.get?]
    by_cases hin : ∃ i ∈ d, i.1 = key
    · obtain ⟨value, hvalue, hmem⟩ := ih hin
      rw [hvalue]
      exact ⟨value, rfl, List.mem_cons_of_mem _ hmem⟩
    · have hitem : item.1 = key := by
        obtain ⟨i, hi, hkey⟩ := h
        rcases List.mem_cons.1 hi with rfl | hi
        · exact hkey
        · exact absurd ⟨i, hi, hkey⟩ hin
      rw [Dict.get?_eq_none (fun i hi hkey => hin ⟨i, hi, hkey⟩), if_pos hitem]
      exact ⟨item.2, rfl, by rw [← hitem]; exact List.mem_cons_self⟩

/-- **A dict filled by a loop** has of a key what the last round with that key set. -/
theorem Dict.get?_filterMap {β : Type} (name : β → String) (value : β → Option α) (key : String) : ∀ rounds : List β,
    Dict.get? (rounds.filterMap (fun r => (value r).map (fun v => (name r, v)))) key =
      ((rounds.filter (fun r => decide (name r = key))).filterMap value).getLast?
  | []          => rfl
  | r :: rounds => by
    have ih := Dict.get?_filterMap name value key rounds
    by_cases hname : name r = key
    · rw [List.filter_cons, if_pos (decide_eq_true hname)]
      cases hvalue : value r with
      | none => rw [List.filterMap_cons_none (by rw [hvalue]; rfl), List.filterMap_cons_none hvalue, ih]
      | some v =>
        rw [List.filterMap_cons_some (by rw [hvalue]; rfl), List.filterMap_cons_some hvalue, Dict.get?, ih, if_pos hname,
          List.getLast?_cons]
        cases ((rounds.filter _).filterMap value).getLast? <;> rfl
    · rw [List.filter_cons, if_neg (by simpa using hname)]
      cases hvalue : value r with
      | none => rw [List.filterMap_cons_none (by rw [hvalue]; rfl), ih]
      | some v => rw [List.filterMap_cons_some (by rw [hvalue]; rfl), Dict.get?, ih, if_neg hname, Option.or_none]

/-! ## Values -/

inductive Json
  | null
  | bool (value : Bool)
  | int (value : Int)
  | str (value : String)
  deriving DecidableEq

abbrev JsonObject := Dict Json

/-- `str(value)`. -/
def Json.text : Json → String
  | .null    => "None"
  | .bool b  => if b then "True" else "False"
  | .int n   => toString n
  | .str s   => s

/-- `int(value)`. -/
def Json.toInt : Json → Except Exception Int
  | .null   => .error .typeError
  | .bool b => .ok (if b then 1 else 0)
  | .int n  => .ok n
  | .str s  => match Python.int s.toList with
    | some n => .ok n
    | none   => .error (.invalidLiteral s)

end Python
