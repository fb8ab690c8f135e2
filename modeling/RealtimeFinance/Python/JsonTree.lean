import RealtimeFinance.Python.Json
/-!
# JsonTree — a whole value of `json.loads`, and what reading it raises

A float stands here with the text that it is printed as.  What a step raises is told apart by its type, as far as an
`except (KeyError, ValueError)` tells it; `Escapes` says that it is none of the two.  The lemmas say of each step what
it gives and what escapes it, and `escapes_bind` puts steps together.
-/
namespace Python

inductive Raised
  | keyError (key : String)
  | valueError
  | typeError
  | attributeError
  | overflowError
  deriving DecidableEq

/-- `except (KeyError, ValueError)`. -/
def Raised.isCaught : Raised → Bool
  | .keyError _ => true
  | .valueError => true
  | _           => false

inductive FloatValue
  | finite (value : Rat)
  | infinite
  | nan

inductive JsonTree
  | null
  | bool (value : Bool)
  | int (value : Int)
  | float (printed : String) (value : FloatValue)
  | str (value : String)
  | list (items : List JsonTree)
  | object (items : List (String × JsonTree))

/-! ## `str` -/

def hexadecimal (width n : Nat) : String :=
  let digits := Nat.toDigits 16 n
  String.ofList (List.replicate (width - digits.length) '0' ++ digits)

/-- A character in the `repr` of a text between `quote`s; which characters are printable is told by Unicode. -/
def reprChar (isPrintable : Char → Bool) (quote c : Char) : String :=
  if c = quote ∨ c = '\\' then String.ofList ['\\', c]
  else if c = '\t' then "\\t"
  else if c = '\n' then "\\n"
  else if c = '\r' then "\\r"
  else if 32 ≤ c.toNat ∧ c.toNat < 127 then String.singleton c
  else if 127 < c.toNat ∧ isPrintable c then String.singleton c
  else if c.toNat < 0x100 then "\\x" ++ hexadecimal 2 c.toNat
  else if c.toNat < 0x10000 then "\\u" ++ hexadecimal 4 c.toNat
  else "\\U" ++ hexadecimal 8 c.toNat

def reprText (isPrintable : Char → Bool) (s : String) : String :=
  let quote := if '\'' ∈ s.toList ∧ '"' ∉ s.toList then '"' else '\''
  String.singleton quote ++ String.join (s.toList.map (reprChar isPrintable quote)) ++ String.singleton quote

/-- The items of a dict, each key where it was first set and with its last value. -/
def Dict.entries {α : Type} (d : Dict α) : Dict α :=
  (d.map Prod.fst).eraseDups.filterMap (fun key => (Dict.get? d key).map (fun value => (key, value)))

mutual

def JsonTree.repr (isPrintable : Char → Bool) : JsonTree → String
  | .null         => "None"
  | .bool b       => if b then "True" else "False"
  | .int n        => toString n
  | .float text _ => text
  | .str s        => reprText isPrintable s
  | .list items   => "[" ++ ", ".intercalate (reprItems isPrintable items) ++ "]"
  | .object items => "\x7b" ++ ", ".intercalate ((Dict.entries (reprFields isPrintable items)).map
      (fun field => reprText isPrintable field.1 ++ ": " ++ field.2)) ++ "\x7d"

def reprItems (isPrintable : Char → Bool) : List JsonTree → List String
  | []            => []
  | item :: items => JsonTree.repr isPrintable item :: reprItems isPrintable items

def reprFields (isPrintable : Char → Bool) : List (String × JsonTree) → Dict String
  | []                  => []
  | (key, item) :: rest => (key, JsonTree.repr isPrintable item) :: reprFields isPrintable rest

end

/-- `str(value)`. -/
def JsonTree.text (isPrintable : Char → Bool) : JsonTree → String
  | .str s => s
  | value  => value.repr isPrintable

example : (JsonTree.list [.object [("a", .str "it's"), ("b", .null), ("a", .bool true)], .int 3]).text (fun _ => true) =
    "[\x7b'a': True, 'b': None\x7d, 3]" := by decide +kernel

/-! ## What reads it -/

/-- `int(value)`. -/
def JsonTree.toInt : JsonTree → Except Raised Int
  | .null                    => .error .typeError
  | .bool b                  => .ok (if b then 1 else 0)
  | .int n                   => .ok n
  | .float _ (.finite value) => .ok (value.num.tdiv value.den)
  | .float _ .infinite       => .error .overflowError
  | .float _ .nan            => .error .valueError
  | .str s                   => match Python.int s.toList with
    | some n => .ok n
    | none   => .error .valueError
  | .list _                  => .error .typeError
  | .object _                => .error .typeError

/-- Whether `if value:` takes the branch. -/
def JsonTree.isTrue : JsonTree → Bool
  | .null                    => false
  | .bool b                  => b
  | .int n                   => n != 0
  | .float _ (.finite value) => value.num != 0
  | .float _ _               => true
  | .str s                   => !s.isEmpty
  | .list items              => !items.isEmpty
  | .object items            => !items.isEmpty

/-- `value[key]`. -/
def JsonTree.item (value : JsonTree) (key : String) : Except Raised JsonTree :=
  match value with
  | .object items => match Dict.get? items key with
    | some item => .ok item
    | none      => .error (.keyError key)
  | _             => .error .typeError

/-- `value.get(key)`. -/
def JsonTree.get (value : JsonTree) (key : String) : Except Raised (Option JsonTree) :=
  match value with
  | .object items => .ok (Dict.get? items key)
  | _             => .error .attributeError

/-- `value.setdefault(key, default)`, and the value after it. -/
def JsonTree.setdefault (value : JsonTree) (key : String) (default : JsonTree) : Except Raised JsonTree :=
  match value with
  | .object items => .ok (.object (if (Dict.get? items key).isSome then items else items ++ [(key, default)]))
  | _             => .error .attributeError

/-- What `for item in value` runs over. -/
def JsonTree.iterate : JsonTree → Except Raised (List JsonTree)
  | .list items   => .ok items
  | .object items => .ok ((Dict.entries items).map (fun item => .str item.1))
  | .str s        => .ok (s.toList.map (fun c => .str (String.singleton c)))
  | _             => .error .typeError

/-! ## Fields -/

def JsonTree.IsObject : JsonTree → Prop
  | .object _ => True
  | _         => False

/-- A list or an object, which is no key of a dict. -/
def JsonTree.IsContainer : JsonTree → Prop
  | .list _   => True
  | .object _ => True
  | _         => False

/-- A text or a number. -/
def JsonTree.IsPlain : JsonTree → Prop
  | .int _     => True
  | .float _ _ => True
  | .str _     => True
  | _          => False

def JsonTree.asText : JsonTree → Option String
  | .str s => some s
  | _      => none

def JsonTree.asBool : JsonTree → Option Bool
  | .bool b => some b
  | _       => none

/-- Null, a list, an object or an infinity: what `int` raises neither a `KeyError` nor a `ValueError` on. -/
def JsonTree.BreaksInt : JsonTree → Prop
  | .null              => True
  | .float _ .infinite => True
  | .list _            => True
  | .object _          => True
  | _                  => False

/-- A field of an object. -/
def JsonTree.field (value : JsonTree) (key : String) : Option JsonTree :=
  match value with
  | .object items => Dict.get? items key
  | _             => none

/-! ## What escapes -/

variable {α β : Type}

/-- A step raises what `except (KeyError, ValueError)` does not catch. -/
def Escapes (x : Except Raised α) : Prop := ∃ raised, x = .error raised ∧ raised.isCaught = false

@[simp] theorem escapes_ok (a : α) : ¬ Escapes (.ok a : Except Raised α) := by
  rintro ⟨raised, h, -⟩
  cases h

@[simp] theorem escapes_pure (a : α) : ¬ Escapes (pure a : Except Raised α) := escapes_ok a

@[simp] theorem escapes_error (raised : Raised) : Escapes (.error raised : Except Raised α) ↔ raised.isCaught = false := by
  constructor
  · rintro ⟨e, h, he⟩
    cases h
    exact he
  · intro h
    exact ⟨raised, rfl, h⟩

@[simp] theorem pure_eq_ok {a b : α} : (pure a : Except Raised α) = .ok b ↔ a = b := by
  show Except.ok a = Except.ok b ↔ a = b
  rw [Except.ok.injEq]

/-- **What escapes two steps escapes the first, or the second on what the first gives.** -/
theorem escapes_bind {x : Except Raised α} {f : α → Except Raised β} :
    Escapes (x >>= f) ↔ Escapes x ∨ ∃ a, x = .ok a ∧ Escapes (f a) := by
  cases x with
  | error raised =>
    show Escapes (.error raised) ↔ _
    simp
  | ok a =>
    show Escapes (f a) ↔ _
    simp

theorem bind_eq_ok {x : Except Raised α} {f : α → Except Raised β} {b : β} :
    (x >>= f) = .ok b ↔ ∃ a, x = .ok a ∧ f a = .ok b := by
  cases x with
  | error raised =>
    show (.error raised : Except Raised β) = .ok b ↔ _
    simp
  | ok a =>
    show f a = .ok b ↔ _
    simp

theorem escapes_map {f : α → β} {x : Except Raised α} : Escapes (x.map f) ↔ Escapes x := by
  cases x with
  | error raised => simp [Except.map]
  | ok a => simp [Except.map]

theorem toOption_eq_some {x : Except Raised α} {a : α} : x.toOption = some a ↔ x = .ok a := by
  cases x with
  | error raised => simp [Except.toOption]
  | ok b => simp [Except.toOption]

namespace JsonTree

theorem isObject_iff {value : JsonTree} : value.IsObject ↔ ∃ items, value = .object items := by
  cases value <;> simp [IsObject]

/-- What is no object has no fields, and raises one error where it is indexed and another where it is asked. -/
theorem of_not_object {value : JsonTree} (h : ¬ value.IsObject) (key : String) :
    value.item key = .error .typeError ∧ value.get key = .error .attributeError ∧ value.field key = none := by
  cases value with
  | object items => exact absurd trivial h
  | null => exact ⟨rfl, rfl, rfl⟩
  | bool b => exact ⟨rfl, rfl, rfl⟩
  | int n => exact ⟨rfl, rfl, rfl⟩
  | float text v => exact ⟨rfl, rfl, rfl⟩
  | str s => exact ⟨rfl, rfl, rfl⟩
  | list items => exact ⟨rfl, rfl, rfl⟩

theorem isObject_of_field {value item : JsonTree} {key : String} (h : value.field key = some item) : value.IsObject := by
  refine Classical.byContradiction (fun hobject => ?_)
  rw [(of_not_object hobject key).2.2] at h
  cases h

theorem item_of_none {value : JsonTree} {key : String} (hobject : value.IsObject) (h : value.field key = none) :
    value.item key = .error (.keyError key) := by
  obtain ⟨items, rfl⟩ := isObject_iff.1 hobject
  have hitem : Dict.get? items key = none := h
  simp [item, hitem]

theorem item_of_some {value found : JsonTree} {key : String} (h : value.field key = some found) :
    value.item key = .ok found := by
  obtain ⟨items, rfl⟩ := isObject_iff.1 (isObject_of_field h)
  have hitem : Dict.get? items key = some found := h
  simp [item, hitem]

theorem item_eq_ok {value item : JsonTree} {key : String} : value.item key = .ok item ↔ value.field key = some item := by
  constructor
  · intro h
    cases hfield : value.field key with
    | some found =>
      rw [item_of_some hfield] at h
      rw [Except.ok.inj h]
    | none =>
      by_cases hobject : value.IsObject
      · rw [item_of_none hobject hfield] at h
        cases h
      · rw [(of_not_object hobject key).1] at h
        cases h
  · exact item_of_some

theorem escapes_item {value : JsonTree} {key : String} : Escapes (value.item key) ↔ ¬ value.IsObject := by
  by_cases hobject : value.IsObject
  · refine iff_of_false ?_ (not_not_intro hobject)
    cases hfield : value.field key with
    | some found =>
      rw [item_of_some hfield]
      exact escapes_ok found
    | none =>
      rw [item_of_none hobject hfield, escapes_error]
      exact Bool.noConfusion
  · rw [(of_not_object hobject key).1, escapes_error]
    exact iff_of_true rfl hobject

theorem get_eq_ok {value : JsonTree} {key : String} {item : Option JsonTree} :
    value.get key = .ok item ↔ value.IsObject ∧ value.field key = item := by
  by_cases hobject : value.IsObject
  · obtain ⟨items, rfl⟩ := isObject_iff.1 hobject
    rw [and_iff_right hobject]
    exact ⟨fun h => Except.ok.inj h, fun h => congrArg Except.ok h⟩
  · rw [(of_not_object hobject key).2.1]
    exact iff_of_false (by simp) (fun hand => hobject hand.1)

theorem escapes_get {value : JsonTree} {key : String} : Escapes (value.get key) ↔ ¬ value.IsObject := by
  by_cases hobject : value.IsObject
  · rw [get_eq_ok.2 ⟨hobject, rfl⟩]
    exact iff_of_false (escapes_ok _) (not_not_intro hobject)
  · rw [(of_not_object hobject key).2.1, escapes_error]
    exact iff_of_true rfl hobject

theorem escapes_toInt {value : JsonTree} : Escapes value.toInt ↔ value.BreaksInt := by
  unfold JsonTree.toInt JsonTree.BreaksInt
  cases value with
  | float text v => cases v <;> simp [Raised.isCaught]
  | str s => cases hread : Python.int s.toList <;> simp [hread, Raised.isCaught]
  | null => simp [Raised.isCaught]
  | bool b => simp
  | int n => simp
  | list items => simp [Raised.isCaught]
  | object items => simp [Raised.isCaught]

theorem setdefault_of_not_object {value : JsonTree} (h : ¬ value.IsObject) (key : String) (default : JsonTree) :
    value.setdefault key default = .error .attributeError := by
  cases value with
  | object items => exact absurd trivial h
  | null => rfl
  | bool b => rfl
  | int n => rfl
  | float text v => rfl
  | str s => rfl
  | list items => rfl

theorem asText_eq_some {value : JsonTree} {text : String} : value.asText = some text ↔ value = .str text := by
  cases value <;> simp [JsonTree.asText]

end JsonTree

end Python
