/-!
# Nullable — three-valued logic, and the two equalities of SQL

A nullable column is an `Option`.  Lean's `=` on it is the equality of grouping (`PARTITION BY`, `GROUP BY`,
`DISTINCT`), under which NULL equals NULL; `compare` is the one of a predicate, NULL as soon as one side is.
-/
namespace Sql

variable {α β : Type}

def compare (r : α → β → Bool) : Option α → Option β → Option Bool
  | some x, some y => some (r x y)
  | _, _           => none

def equals [DecidableEq α] : Option α → Option α → Option Bool := compare (fun x y => decide (x = y))

/-- `AND`: FALSE wins over NULL, NULL over TRUE. -/
def and3 : Option Bool → Option Bool → Option Bool
  | some false, _         => some false
  | _, some false         => some false
  | some true, some true  => some true
  | _, _                  => none

/-- `OR`: TRUE wins over NULL, NULL over FALSE. -/
def or3 : Option Bool → Option Bool → Option Bool
  | some true, _          => some true
  | _, some true          => some true
  | some false, some false => some false
  | _, _                  => none

/-- `NOT`. -/
def not3 (p : Option Bool) : Option Bool := p.map not

/-- `IS NOT NULL`, which is never NULL. -/
def isNotNull (a : Option α) : Option Bool := some a.isSome

/-- `NULLIF`. -/
def nullif [DecidableEq α] (a : Option α) (x : α) : Option α := if a = some x then none else a

def coalesce (a : Option α) (default : α) : α := a.getD default

theorem compare_eq_true (r : α → β → Bool) (a : Option α) (b : Option β) :
    compare r a b = some true ↔ ∃ x y, a = some x ∧ b = some y ∧ r x y = true := by
  cases a <;> cases b <;> simp [compare]

theorem equals_eq_true [DecidableEq α] (a b : Option α) :
    equals a b = some true ↔ a = b ∧ a.isSome = true := by
  unfold equals
  rw [compare_eq_true]
  cases a <;> cases b <;> simp

theorem and3_eq_true (p q : Option Bool) : and3 p q = some true ↔ p = some true ∧ q = some true := by
  cases p with
  | none => cases q with
    | none => simp [and3]
    | some q => cases q <;> simp [and3]
  | some p => cases p <;> cases q with
    | none => simp [and3]
    | some q => cases q <;> simp [and3]

theorem coalesce_false (p : Option Bool) : coalesce p false = true ↔ p = some true := by
  cases p with
  | none => simp [coalesce]
  | some p => simp [coalesce]

/-! ## What is never NULL -/

theorem isNotNull_isSome (a : Option α) : (isNotNull a).isSome = true := rfl

theorem and3_isSome {p q : Option Bool} (hp : p.isSome = true) (hq : q.isSome = true) : (and3 p q).isSome = true := by
  obtain ⟨b, rfl⟩ := Option.isSome_iff_exists.1 hp
  obtain ⟨c, rfl⟩ := Option.isSome_iff_exists.1 hq
  cases b <;> cases c <;> rfl

theorem or3_isSome {p q : Option Bool} (hp : p.isSome = true) (hq : q.isSome = true) : (or3 p q).isSome = true := by
  obtain ⟨b, rfl⟩ := Option.isSome_iff_exists.1 hp
  obtain ⟨c, rfl⟩ := Option.isSome_iff_exists.1 hq
  cases b <;> cases c <;> rfl

theorem compare_isSome (r : α → β → Bool) {a : Option α} (ha : a.isSome = true) (y : β) :
    (compare r a (some y)).isSome = true := by
  obtain ⟨x, rfl⟩ := Option.isSome_iff_exists.1 ha
  rfl

/-- **`IS NOT NULL` guards what it stands before**: a predicate that is NULL of a NULL only. -/
theorem guarded_isSome {a : Option α} {q : Option Bool} (h : a.isSome = true → q.isSome = true) :
    (and3 (isNotNull a) q).isSome = true := by
  cases a with
  | none => rfl
  | some x => exact and3_isSome rfl (h rfl)

end Sql
