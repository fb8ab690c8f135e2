import RealtimeFinance.Awsnative.Quarantine
import RealtimeFinance.Sql.Joined
/-!
# QuarantineReason — the second copy of the contract

`quarantine_reason` tests the conjuncts of `fragments/valid_trade.sql` once more, each in its own form.  The two copies
agree: a reason is a list of names (`reasonsOf`), cut at its commas it is that list again (`reasonNames_eq`), a name is
there exactly when its conjunct failed, and a rejected row has failed one (`quarantineReason_agrees`).
-/
namespace Awsnative

open Sql

section Conjuncts

variable (now : Int) (r : BronzeRow)

def priceConjunct : Option Bool := positive (tryCastDecimal 38 18 r.price)

def sizeConjunct : Option Bool := positive (tryCastDecimal 38 18 r.size)

def lowerBoundConjunct : Option Bool :=
  compare (fun e (lo : Int) => decide (lo ≤ e)) r.eventTsUs (some (oldestEvent now r.source))

def upperBoundConjunct : Option Bool :=
  compare (fun e (hi : Int) => decide (e ≤ hi)) r.eventTsUs (some (newestEvent now))

/-- The contract is its four conjuncts. -/
theorem validExpr_eq_conjuncts : validExpr now r =
    and3 (priceConjunct r) (and3 (sizeConjunct r) (and3 (lowerBoundConjunct now r) (upperBoundConjunct now r))) := rfl

/-- The names of `quarantine_reason`, each with its test. -/
def reasonTests : List (String × Bool) :=
  [("null_key", r.venue.isNone || r.tradeId.isNone),
    ("price", !coalesce (positive (tryCastDecimal 38 18 r.price)) false),
    ("size", !coalesce (positive (tryCastDecimal 38 18 r.size)) false),
    ("event_ts_null", r.eventTsUs.isNone),
    ("event_ts_too_old", coalesce (compare (fun e (lo : Int) => decide (e < lo)) r.eventTsUs
      (some (oldestEvent now r.source))) false),
    ("event_ts_too_new", coalesce (compare (fun e (hi : Int) => decide (hi < e)) r.eventTsUs
      (some (newestEvent now))) false)]

def reasonsOf : List String := ((reasonTests now r).filter Prod.snd).map Prod.fst

/-- The names that a reason lists. -/
def reasonNames (reason : String) : List String := (reason.toList.splitOn ',').map String.ofList

end Conjuncts

/-! ## The list of names -/

theorem filterMap_tests (tests : List (String × Bool)) :
    (tests.map (fun test => if test.2 then some test.1 else none)).filterMap id = (tests.filter Prod.snd).map Prod.fst := by
  induction tests with
  | nil => rfl
  | cons test rest ih => cases h : test.2 <;> simpa [h] using ih

theorem quarantineReason_eq (now : Int) (r : BronzeRow) : quarantineReason now r =
    if ",".intercalate (reasonsOf now r) = "" then "unknown" else ",".intercalate (reasonsOf now r) := by
  have hnames : [if r.venue.isNone || r.tradeId.isNone then some "null_key" else none,
      if coalesce (positive (tryCastDecimal 38 18 r.price)) false then none else some "price",
      if coalesce (positive (tryCastDecimal 38 18 r.size)) false then none else some "size",
      if r.eventTsUs.isNone then some "event_ts_null" else none,
      reasonIf (compare (fun e (lo : Int) => decide (e < lo)) r.eventTsUs (some (oldestEvent now r.source)))
        "event_ts_too_old",
      reasonIf (compare (fun e (hi : Int) => decide (hi < e)) r.eventTsUs (some (newestEvent now))) "event_ts_too_new"] =
      (reasonTests now r).map (fun test => if test.2 then some test.1 else none) := by
    simp only [reasonTests, reasonIf, List.map_cons, List.map_nil, Bool.not_eq_true', ← Bool.not_eq_true, ite_not]
  unfold quarantineReason concatWs
  rw [hnames, filterMap_tests]
  rfl

theorem mem_reasonsOf {now : Int} {r : BronzeRow} {name : String} :
    name ∈ reasonsOf now r ↔ (name, true) ∈ reasonTests now r := by
  unfold reasonsOf
  simp only [List.mem_map, List.mem_filter, Prod.exists]
  constructor
  · rintro ⟨n, test, ⟨hmem, htest⟩, rfl⟩
    rwa [show test = true from htest] at hmem
  · intro hmem
    exact ⟨name, true, ⟨hmem, rfl⟩, rfl⟩

/-- The six names, none of them empty, with a comma, or `unknown`. -/
theorem name_of_mem {now : Int} {r : BronzeRow} {name : String} (h : name ∈ reasonsOf now r) :
    name ≠ "" ∧ name ≠ "unknown" ∧ ',' ∉ name.toList := by
  have hmem := mem_reasonsOf.1 h
  simp only [reasonTests, List.mem_cons, List.not_mem_nil, or_false, Prod.mk.injEq] at hmem
  rcases hmem with ⟨rfl, -⟩ | ⟨rfl, -⟩ | ⟨rfl, -⟩ | ⟨rfl, -⟩ | ⟨rfl, -⟩ | ⟨rfl, -⟩ <;> decide

/-- **A reason, cut at its commas, is the list of its names.** -/
theorem reasonNames_eq {now : Int} {r : BronzeRow} (hne : reasonsOf now r ≠ []) :
    reasonNames (quarantineReason now r) = reasonsOf now r := by
  have hplain : ∀ part ∈ (reasonsOf now r).map String.toList, ',' ∉ part := by
    intro part hpart
    obtain ⟨name, hname, rfl⟩ := List.mem_map.1 hpart
    exact (name_of_mem hname).2.2
  have hcut : (",".intercalate (reasonsOf now r)).toList.splitOn ',' = (reasonsOf now r).map String.toList := by
    rw [String.toList_intercalate]
    exact List.splitOn_intercalate ',' hplain (mt List.map_eq_nil_iff.1 hne)
  have hsome : ",".intercalate (reasonsOf now r) ≠ "" := by
    intro hempty
    rw [hempty] at hcut
    -- the cut of the empty text is one empty name
    obtain ⟨name, rest, hnames⟩ := List.exists_cons_of_ne_nil hne
    have hmem : name ∈ reasonsOf now r := by rw [hnames]; exact List.mem_cons_self
    have hname := (name_of_mem hmem).1
    rw [hnames] at hcut
    exact hname (String.toList_inj.1 (List.cons.inj hcut).1.symm)
  rw [quarantineReason_eq, if_neg hsome, reasonNames, hcut, List.map_map]
  simp

/-! ## Agreement with the contract -/

/-- What a reason says of a row, and what the contract found. -/
structure Agrees (now : Int) (r : BronzeRow) (reason : String) : Prop where
  known : reason ≠ "unknown"
  names : (reasonNames reason).Sublist ["null_key", "price", "size", "event_ts_null", "event_ts_too_old", "event_ts_too_new"]
  nullKey : "null_key" ∈ reasonNames reason ↔ r.venue = none ∨ r.tradeId = none
  price : "price" ∈ reasonNames reason ↔ priceConjunct r ≠ some true
  size : "size" ∈ reasonNames reason ↔ sizeConjunct r ≠ some true
  eventTsNull : "event_ts_null" ∈ reasonNames reason ↔ r.eventTsUs = none
  eventTsTooOld : "event_ts_too_old" ∈ reasonNames reason ↔ lowerBoundConjunct now r = some false
  eventTsTooNew : "event_ts_too_new" ∈ reasonNames reason ↔ upperBoundConjunct now r = some false

/-- A bound that is broken is FALSE, and not NULL. -/
theorem compare_not {α β : Type} {p q : α → β → Bool} (h : ∀ x y, q x y = !p x y) (a : Option α) (b : Option β) :
    coalesce (compare q a b) false = true ↔ compare p a b = some false := by
  rw [coalesce_false]
  cases a with
  | none => simp [Sql.compare]
  | some x => cases b with
    | none => simp [Sql.compare]
    | some y => simp [Sql.compare, h]

theorem decide_lt_eq_not (a b : Int) : decide (a < b) = !decide (b ≤ a) := by
  by_cases h : a < b
  · simp [h, Int.not_le.2 h]
  · simp [h, Int.not_lt.1 h]

section Names

variable (now : Int) (r : BronzeRow)

theorem mem_nullKey : "null_key" ∈ reasonsOf now r ↔ r.venue = none ∨ r.tradeId = none := by
  simp [mem_reasonsOf, reasonTests]

theorem mem_price : "price" ∈ reasonsOf now r ↔ priceConjunct r ≠ some true := by
  rw [← not_iff_not, not_ne_iff, ← coalesce_false]
  simp [mem_reasonsOf, reasonTests, priceConjunct]

theorem mem_size : "size" ∈ reasonsOf now r ↔ sizeConjunct r ≠ some true := by
  rw [← not_iff_not, not_ne_iff, ← coalesce_false]
  simp [mem_reasonsOf, reasonTests, sizeConjunct]

theorem mem_eventTsNull : "event_ts_null" ∈ reasonsOf now r ↔ r.eventTsUs = none := by
  simp [mem_reasonsOf, reasonTests]

theorem mem_tooOld : "event_ts_too_old" ∈ reasonsOf now r ↔ lowerBoundConjunct now r = some false := by
  rw [lowerBoundConjunct, ← compare_not (fun e lo => decide_lt_eq_not e lo)]
  simp [mem_reasonsOf, reasonTests]

theorem mem_tooNew : "event_ts_too_new" ∈ reasonsOf now r ↔ upperBoundConjunct now r = some false := by
  rw [upperBoundConjunct, ← compare_not (fun e hi => decide_lt_eq_not hi e)]
  simp [mem_reasonsOf, reasonTests]

end Names

/-- A bound on an event time that is there is TRUE unless it is FALSE. -/
theorem compare_some {p : Int → Int → Bool} {a : Option Int} {b : Int} (ha : a ≠ none)
    (h : compare p a (some b) ≠ some false) : compare p a (some b) = some true := by
  cases a with
  | none => exact absurd rfl ha
  | some x => cases hp : p x b <;> simp_all [Sql.compare]

/-- **A rejected row failed a conjunct**, so its reason has a name. -/
theorem reasonsOf_ne_nil {now : Int} {r : BronzeRow} (h : valid now r = false) : reasonsOf now r ≠ [] := by
  intro hnil
  have hno : ∀ name, name ∉ reasonsOf now r := by simp [hnil]
  have hprice := not_ne_iff.1 (mt (mem_price now r).2 (hno _))
  have hsize := not_ne_iff.1 (mt (mem_size now r).2 (hno _))
  have hevent := mt (mem_eventTsNull now r).2 (hno _)
  have hlower := compare_some hevent (mt (mem_tooOld now r).2 (hno _))
  have hupper := compare_some hevent (mt (mem_tooNew now r).2 (hno _))
  have hvalid : validExpr now r = some true := by
    rw [validExpr_eq_conjuncts, and3_eq_true, and3_eq_true, and3_eq_true]
    exact ⟨hprice, hsize, hlower, hupper⟩
  rw [valid, (coalesce_false _).2 hvalid] at h
  cases h

theorem reasonsOf_sublist (now : Int) (r : BronzeRow) : (reasonsOf now r).Sublist
    ["null_key", "price", "size", "event_ts_null", "event_ts_too_old", "event_ts_too_new"] :=
  (List.filter_sublist (p := Prod.snd) (l := reasonTests now r)).map Prod.fst

/-- **The reason of a rejected row agrees with the contract.** -/
theorem agrees_of_rejected {now : Int} {r : BronzeRow} (h : valid now r = false) :
    Agrees now r (quarantineReason now r) := by
  have hnames := reasonNames_eq (reasonsOf_ne_nil h)
  refine ⟨?_, hnames ▸ reasonsOf_sublist now r, ?_, ?_, ?_, ?_, ?_, ?_⟩
  · intro hunknown
    -- `unknown` is cut into itself, and no test has that name
    have hmem : "unknown" ∈ reasonNames (quarantineReason now r) := by
      rw [hunknown]
      decide +kernel
    rw [hnames] at hmem
    exact (name_of_mem hmem).2.1 rfl
  · rw [hnames]; exact mem_nullKey now r
  · rw [hnames]; exact mem_price now r
  · rw [hnames]; exact mem_size now r
  · rw [hnames]; exact mem_eventTsNull now r
  · rw [hnames]; exact mem_tooOld now r
  · rw [hnames]; exact mem_tooNew now r

variable {hexMd5 : String → String}

/-- **Every row that a merge inserts has a reason that agrees with the contract.** -/
theorem quarantineReason_agrees {now : Int} {lookbackDays : Nat} {bronze : List BronzeRow}
    {quarantine quarantine' : List QuarantineRow}
    (h : mergeSilverQuarantine hexMd5 now lookbackDays bronze quarantine = .ok quarantine') :
    ∀ q ∈ quarantine', q ∈ quarantine ∨
      ∃ r ∈ bronze, q = quarantineOf hexMd5 now r ∧ Agrees now r q.quarantineReason := by
  intro q hq
  rcases (mergeSilverQuarantine_mem hexMd5 h q).1 hq with hold | ⟨r, hr, rfl, -⟩
  · exact Or.inl hold
  · have hsource := List.mem_filter.1 (mem_of_mem_rowNumberOne _ _ hr)
    have hvalid := ((rejected_iff now lookbackDays r).1 hsource.2).2
    exact Or.inr ⟨r, hsource.1, rfl, agrees_of_rejected hvalid⟩

/-- A price of nothing, inserted into an empty table. -/
theorem quarantineReason_agrees_unpriced : ∃ q ∈ [quarantineOf id 1728000900000 (unpriced "0")],
    q ∈ ([] : List QuarantineRow) ∨ ∃ r ∈ [unpriced "0"], q = quarantineOf id 1728000900000 r ∧
      Agrees 1728000900000 r q.quarantineReason := by
  have hmerge : mergeSilverQuarantine id 1728000900000 1 [unpriced "0"] [] =
      .ok [quarantineOf id 1728000900000 (unpriced "0")] := by rfl
  exact ⟨_, List.mem_cons_self, quarantineReason_agrees hmerge _ List.mem_cons_self⟩

end Awsnative
