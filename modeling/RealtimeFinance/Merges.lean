import Mathlib.Data.List.Basic
/-!
# Merges — lists merged in their own order

`Merge parts merged` says that `merged` holds the elements of the lists of `parts`, those of each list in its order.  Two
merges of the same lists hold the same elements (`Merge.perm`); and elements that stand in one of the lists only stand
in every merge in the order they have there (`Merge.filter_eq`).
-/
namespace Merges

variable {α κ : Type}

inductive Merge : List (List α) → List α → Prop
  | nil {parts} (h : ∀ part ∈ parts, part = []) : Merge parts []
  | next {before x part after merged} :
      Merge (before ++ part :: after) merged → Merge (before ++ (x :: part) :: after) (x :: merged)

/-- At most one of the lists holds elements that satisfy `P`. -/
def OneHolds (P : α → Bool) (parts : List (List α)) : Prop :=
  parts.Pairwise (fun a b => (∀ x ∈ a, P x = false) ∨ ∀ x ∈ b, P x = false)

variable {parts : List (List α)} {merged merged' : List α}

theorem Merge.perm (h : Merge parts merged) : merged.Perm parts.flatten := by
  induction h with
  | nil h => rw [List.flatten_eq_nil_iff.2 h]
  | @next before x part after merged _ ih =>
    rw [List.flatten_append, List.flatten_cons] at ih ⊢
    rw [List.cons_append]
    exact (ih.cons x).trans List.perm_middle.symm

theorem OneHolds.of_next {P : α → Bool} {before after : List (List α)} {x : α} {part : List α}
    (h : OneHolds P (before ++ (x :: part) :: after)) : OneHolds P (before ++ part :: after) := by
  unfold OneHolds at h ⊢
  rw [List.pairwise_append, List.pairwise_cons] at h ⊢
  obtain ⟨hbefore, ⟨hpart, hafter⟩, hacross⟩ := h
  refine ⟨hbefore, ⟨fun b hb => ?_, hafter⟩, fun a ha b hb => ?_⟩
  · exact (hpart b hb).imp_left (fun h y hy => h y (List.mem_cons_of_mem x hy))
  · rcases List.mem_cons.1 hb with rfl | hb
    · exact (hacross a ha (x :: b) List.mem_cons_self).imp_right (fun h y hy => h y (List.mem_cons_of_mem x hy))
    · exact hacross a ha b (List.mem_cons_of_mem _ hb)

/-- The lists before one that holds such an element hold none. -/
theorem OneHolds.filter_before {P : α → Bool} {before after : List (List α)} {x : α} {part : List α}
    (h : OneHolds P (before ++ (x :: part) :: after)) (hx : P x = true) : before.flatten.filter P = [] := by
  rw [List.filter_eq_nil_iff]
  intro y hy
  obtain ⟨a, ha, hya⟩ := List.mem_flatten.1 hy
  rcases (List.pairwise_append.1 h).2.2 a ha (x :: part) List.mem_cons_self with hnone | hnone
  · simp [hnone y hya]
  · exact absurd (hnone x List.mem_cons_self) (by simp [hx])

/-- **Elements of one list keep its order in every merge.** -/
theorem Merge.filter_eq {P : α → Bool} (h : Merge parts merged) (hone : OneHolds P parts) :
    merged.filter P = parts.flatten.filter P := by
  induction h with
  | nil h => rw [List.flatten_eq_nil_iff.2 h]
  | @next before x part after merged _ ih =>
    have ih := ih hone.of_next
    rw [List.flatten_append, List.flatten_cons, List.filter_append] at ih ⊢
    cases hx : P x with
    | false => rw [List.cons_append, List.filter_cons_of_neg (by simp [hx]), List.filter_cons_of_neg (by simp [hx]), ih]
    | true =>
      rw [hone.filter_before hx, List.nil_append] at ih ⊢
      rw [List.cons_append, List.filter_cons_of_pos hx, List.filter_cons_of_pos hx, ih]

/-- No key is in two of the lists. -/
def KeysApart (key : α → κ) (parts : List (List α)) : Prop :=
  parts.Pairwise (fun a b => ∀ x ∈ a, ∀ y ∈ b, key x ≠ key y)

/-- **Two merges agree on every key** that no two of the lists share. -/
theorem KeysApart.filter_key [DecidableEq κ] {key : α → κ} (hkeys : KeysApart key parts) (h : Merge parts merged)
    (h' : Merge parts merged') (k : κ) :
    merged.filter (fun x => key x = k) = merged'.filter (fun x => key x = k) := by
  have hone : OneHolds (fun x => decide (key x = k)) parts := by
    refine List.Pairwise.imp (fun {a b} hab => ?_) hkeys
    by_cases hb : ∃ y ∈ b, key y = k
    · obtain ⟨y, hy, hyk⟩ := hb
      exact Or.inl (fun x hx => decide_eq_false (fun hxk => hab x hx y hy (hxk.trans hyk.symm)))
    · exact Or.inr (fun y hy => decide_eq_false (fun hyk => hb ⟨y, hy, hyk⟩))
  rw [h.filter_eq hone, h'.filter_eq hone]

theorem Merge.perm_merge (h : Merge parts merged) (h' : Merge parts merged') : merged.Perm merged' :=
  h.perm.trans h'.perm.symm

end Merges
