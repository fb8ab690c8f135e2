import Mathlib.Data.List.Nodup
/-!
# RowNumber — `row_number() OVER (PARTITION BY key ORDER BY ord ASC) = 1`

One row of each partition: the least in `ord` (NULLs last), and among equals the one scanned first.  A list of rows is
a table in the order the engine scans it, so the choice among ties is a choice of that order.
-/
namespace Sql

variable {α κ : Type} [DecidableEq κ]

/-- `ASC` order on a nullable column, NULLs last. -/
def ltNullsLast : Option Int → Option Int → Bool
  | some x, some y => decide (x < y)
  | some _, none   => true
  | none, _        => false

def rowNumberOne (key : α → κ) (ord : α → Option Int) : List α → List α
  | []        => []
  | r :: rest =>
    let kept := rowNumberOne key ord rest
    if kept.any (fun k => decide (key k = key r) && ltNullsLast (ord k) (ord r)) then kept
    else r :: kept.filter (fun k => decide (key k ≠ key r))

theorem ltNullsLast_irrefl (a : Option Int) : ltNullsLast a a = false := by
  cases a <;> simp [ltNullsLast]

/-- Not being before is transitive too: `ord` is a weak order. -/
theorem ltNullsLast_false_trans {a b c : Option Int} (h1 : ltNullsLast a b = false) (h2 : ltNullsLast b c = false) :
    ltNullsLast a c = false := by
  cases a <;> cases b <;> cases c <;> simp [ltNullsLast] at *
  omega

theorem ltNullsLast_asymm {a b : Option Int} (h : ltNullsLast a b = true) : ltNullsLast b a = false := by
  cases a <;> cases b <;> simp [ltNullsLast] at *
  omega

/-- **The row a partition is numbered from**: nothing of its key scanned before it is at or before it in `ord`, and
nothing scanned after it is strictly before it. -/
def IsFirst (key : α → κ) (ord : α → Option Int) (rows : List α) (r : α) : Prop :=
  ∃ pre post, rows = pre ++ r :: post ∧
    (∀ x ∈ pre, key x = key r → ltNullsLast (ord r) (ord x) = true) ∧
    (∀ x ∈ post, key x = key r → ltNullsLast (ord x) (ord r) = false)

variable (key : α → κ) (ord : α → Option Int)

theorem rowNumberOne_sublist : ∀ rows : List α, (rowNumberOne key ord rows).Sublist rows
  | [] => List.Sublist.slnil
  | r :: rest => by
    simp only [rowNumberOne]
    split
    · exact (rowNumberOne_sublist rest).cons r
    · exact (List.filter_sublist.trans (rowNumberOne_sublist rest)).cons_cons r

theorem mem_of_mem_rowNumberOne {rows : List α} {r : α} (h : r ∈ rowNumberOne key ord rows) : r ∈ rows :=
  (rowNumberOne_sublist key ord rows).subset h

/-- **One row a partition.** -/
theorem rowNumberOne_nodup : ∀ rows : List α, ((rowNumberOne key ord rows).map key).Nodup
  | [] => List.nodup_nil
  | r :: rest => by
    have ih := rowNumberOne_nodup rest
    simp only [rowNumberOne]
    split
    · exact ih
    · rw [List.map_cons, List.nodup_cons]
      refine ⟨?_, (List.filter_sublist.map key).nodup ih⟩
      intro hmem
      obtain ⟨k, hk, hkr⟩ := List.mem_map.1 hmem
      exact absurd hkr (by simpa using (List.mem_filter.1 hk).2)

theorem eq_of_mem_rowNumberOne {rows : List α} {a b : α} (ha : a ∈ rowNumberOne key ord rows)
    (hb : b ∈ rowNumberOne key ord rows) (hk : key a = key b) : a = b :=
  List.inj_on_of_nodup_map (rowNumberOne_nodup key ord rows) ha hb hk

/-- **Every partition keeps a row**, none of the partition before it. -/
theorem rowNumberOne_covers : ∀ (rows : List α) (r : α), r ∈ rows →
    ∃ k ∈ rowNumberOne key ord rows, key k = key r ∧ ltNullsLast (ord r) (ord k) = false
  | [], _, h => by cases h
  | x :: rest, r, h => by
    simp only [rowNumberOne]
    split
    · rename_i hany
      obtain ⟨k, hk, hkx⟩ := List.any_eq_true.1 hany
      simp only [Bool.and_eq_true, decide_eq_true_eq] at hkx
      rcases List.mem_cons.1 h with rfl | h
      · exact ⟨k, hk, hkx.1, ltNullsLast_asymm hkx.2⟩
      · exact rowNumberOne_covers rest r h
    · rename_i hany
      by_cases hkey : key r = key x
      · refine ⟨x, List.mem_cons_self, hkey.symm, ?_⟩
        rcases List.mem_cons.1 h with rfl | h
        · exact ltNullsLast_irrefl _
        · obtain ⟨k, hk, hkr, hle⟩ := rowNumberOne_covers rest r h
          have hkx : ltNullsLast (ord k) (ord x) = false := by
            cases hc : ltNullsLast (ord k) (ord x) with
            | false => rfl
            | true => exact absurd (List.any_eq_true.2 ⟨k, hk, by simp [hkr.trans hkey, hc]⟩) hany
          exact ltNullsLast_false_trans hle hkx
      · rcases List.mem_cons.1 h with rfl | h
        · exact absurd rfl hkey
        · obtain ⟨k, hk, hkr, hle⟩ := rowNumberOne_covers rest r h
          exact ⟨k, List.mem_cons_of_mem _ (List.mem_filter.2 ⟨hk, by simp [hkr, hkey]⟩), hkr, hle⟩

theorem rowNumberOne_map {β : Type} {f : β → α} : ∀ rows : List β,
    rowNumberOne key ord (rows.map f) = (rowNumberOne (key ∘ f) (ord ∘ f) rows).map f
  | []        => rfl
  | r :: rest => by
    simp only [List.map_cons, rowNumberOne, rowNumberOne_map rest, List.any_map, List.filter_map, Function.comp_apply]
    rw [apply_ite (List.map f)]
    rfl

omit [DecidableEq κ] in
/-- A row more in front is the first of its partition, or comes before the first of it. -/
theorem isFirst_cons {x : α} {rest : List α} {r : α} : IsFirst key ord (x :: rest) r ↔
    (x = r ∧ ∀ y ∈ rest, key y = key r → ltNullsLast (ord y) (ord r) = false) ∨
      IsFirst key ord rest r ∧ (key x = key r → ltNullsLast (ord r) (ord x) = true) := by
  constructor
  · rintro ⟨pre, post, hs, hpre, hpost⟩
    cases pre with
    | nil =>
      simp only [List.nil_append, List.cons.injEq] at hs
      obtain ⟨rfl, rfl⟩ := hs
      exact Or.inl ⟨rfl, hpost⟩
    | cons y pre =>
      simp only [List.cons_append, List.cons.injEq] at hs
      obtain ⟨rfl, rfl⟩ := hs
      exact Or.inr ⟨⟨pre, post, rfl, fun y hy => hpre y (List.mem_cons_of_mem _ hy), hpost⟩, hpre x List.mem_cons_self⟩
  · rintro (⟨rfl, hrest⟩ | ⟨⟨pre, post, rfl, hpre, hpost⟩, hx⟩)
    · exact ⟨[], rest, rfl, fun y hy => by (cases hy), hrest⟩
    · refine ⟨x :: pre, post, rfl, fun y hy => ?_, hpost⟩
      rcases List.mem_cons.1 hy with rfl | hy
      · exact hx
      · exact hpre y hy

/-- **The rows numbered 1 are the first rows of the partitions.** -/
theorem mem_rowNumberOne_iff : ∀ (rows : List α) (r : α), r ∈ rowNumberOne key ord rows ↔ IsFirst key ord rows r
  | [], r => by simp [rowNumberOne, IsFirst]
  | x :: rest, r => by
    have ih := mem_rowNumberOne_iff rest r
    simp only [rowNumberOne]
    rw [isFirst_cons]
    split
    · -- a later row of the partition comes before `x`, so `x` is not numbered 1
      rename_i hany
      obtain ⟨k, hk, hkx⟩ := List.any_eq_true.1 hany
      simp only [Bool.and_eq_true, decide_eq_true_eq] at hkx
      constructor
      · intro hr
        refine Or.inr ⟨ih.1 hr, fun hxr => ?_⟩
        rw [eq_of_mem_rowNumberOne key ord hr hk (hxr.symm.trans hkx.1.symm)]
        exact hkx.2
      · rintro (⟨rfl, hrest⟩ | ⟨hfirst, -⟩)
        · have hlt := hrest k (mem_of_mem_rowNumberOne key ord hk) hkx.1
          rw [hlt] at hkx
          exact absurd hkx.2 Bool.false_ne_true
        · exact ih.2 hfirst
    · rename_i hany
      rw [List.mem_cons, List.mem_filter, ih, decide_eq_true_eq]
      constructor
      · rintro (rfl | ⟨hfirst, hrx⟩)
        · refine Or.inl ⟨rfl, fun y hy hyr => ?_⟩
          obtain ⟨k, hk, hky, hle⟩ := rowNumberOne_covers key ord rest y hy
          have hkr : ltNullsLast (ord k) (ord r) = false := by
            cases hc : ltNullsLast (ord k) (ord r) with
            | false => rfl
            | true => exact absurd (List.any_eq_true.2 ⟨k, hk, by simp [hky.trans hyr, hc]⟩) hany
          exact ltNullsLast_false_trans hle hkr
        · exact Or.inr ⟨hfirst, fun hxr => absurd hxr.symm hrx⟩
      · rintro (⟨rfl, -⟩ | ⟨hfirst, hx⟩)
        · exact Or.inl rfl
        · refine Or.inr ⟨hfirst, fun hrx => ?_⟩
          exact hany (List.any_eq_true.2 ⟨r, ih.2 hfirst, by simp [hrx, hx hrx.symm]⟩)

/-! ## A narrower set of rows -/

omit [DecidableEq κ] in
/-- **A first row stays first among fewer rows**, when it is one of them. -/
theorem IsFirst.filter {rows : List α} {r : α} (h : IsFirst key ord rows r) {p : α → Bool} (hp : p r = true) :
    IsFirst key ord (rows.filter p) r := by
  obtain ⟨pre, post, rfl, hpre, hpost⟩ := h
  refine ⟨pre.filter p, post.filter p, ?_, fun x hx => hpre x (List.mem_filter.1 hx).1,
    fun x hx => hpost x (List.mem_filter.1 hx).1⟩
  rw [List.filter_append, List.filter_cons_of_pos hp]

/-- **The first row of a partition among fewer rows** is its first of all, unless that one is left out. -/
theorem IsFirst.of_filter {rows : List α} {r : α} {p : α → Bool} (h : IsFirst key ord (rows.filter p) r) :
    ∃ w, IsFirst key ord rows w ∧ key w = key r ∧ (w = r ∨ p w = false) := by
  have hr := (mem_rowNumberOne_iff key ord _ r).2 h
  have hrows : r ∈ rows := (List.mem_filter.1 (mem_of_mem_rowNumberOne key ord hr)).1
  obtain ⟨w, hw, hkey, -⟩ := rowNumberOne_covers key ord rows r hrows
  have hfirst := (mem_rowNumberOne_iff key ord rows w).1 hw
  refine ⟨w, hfirst, hkey, ?_⟩
  cases hp : p w with
  | false => exact Or.inr rfl
  | true =>
    have hw' := (mem_rowNumberOne_iff key ord _ w).2 (hfirst.filter key ord hp)
    exact Or.inl (eq_of_mem_rowNumberOne key ord hw' hr hkey)

end Sql
