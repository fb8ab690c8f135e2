/-!
# Joined — texts joined by a separator

Cutting a joined text at its separator gives the cuts of its parts (`splitOn_intercalate_eq_flatMap`), so two joined texts
are one exactly when their parts are cut into one list (`intercalate_eq_iff`).  That list has as many pieces as there are
parts exactly when no part holds the separator.
-/
namespace Sql

variable {α : Type} [DecidableEq α]

/-- The pieces of the parts. -/
def pieces (sep : α) (parts : List (List α)) : List (List α) := parts.flatMap (fun part => part.splitOn sep)

theorem splitOn_intercalate_eq_flatMap (sep : α) : ∀ {parts : List (List α)}, parts ≠ [] →
    ([sep].intercalate parts).splitOn sep = pieces sep parts
  | [], h => absurd rfl h
  | [part], _ => by simp [pieces]
  | part :: next :: rest, _ => by
    have ih := splitOn_intercalate_eq_flatMap sep (List.cons_ne_nil next rest)
    rw [List.intercalate_cons_cons, List.append_assoc, List.singleton_append, List.splitOn_append_cons_self, ih]
    rfl

/-- **Two joined texts are one exactly when their parts have the same pieces.** -/
theorem intercalate_eq_iff (sep : α) {parts parts' : List (List α)} (h : parts ≠ []) (h' : parts' ≠ []) :
    [sep].intercalate parts = [sep].intercalate parts' ↔ pieces sep parts = pieces sep parts' := by
  rw [← splitOn_intercalate_eq_flatMap sep h, ← splitOn_intercalate_eq_flatMap sep h']
  constructor
  · intro hjoined
    rw [hjoined]
  · intro hcuts
    have hjoin := congrArg [sep].intercalate hcuts
    rwa [List.intercalate_splitOn, List.intercalate_splitOn] at hjoin

theorem length_splitOn_pos (sep : α) (part : List α) : 1 ≤ (part.splitOn sep).length :=
  List.length_pos_iff.2 (List.splitOn_ne_nil sep part)

theorem pieces_of_plain (sep : α) {parts : List (List α)} (h : ∀ part ∈ parts, sep ∉ part) : pieces sep parts = parts := by
  induction parts with
  | nil => rfl
  | cons part rest ih =>
    have hpart := List.splitOn_eq_singleton (h part List.mem_cons_self)
    have hrest := ih (fun p hp => h p (List.mem_cons_of_mem _ hp))
    unfold pieces at hrest ⊢
    rw [List.flatMap_cons, hpart, hrest, List.singleton_append]

theorem length_le_pieces (sep : α) (parts : List (List α)) : parts.length ≤ (pieces sep parts).length := by
  induction parts with
  | nil => exact Nat.le_refl 0
  | cons part rest ih =>
    have hpart := length_splitOn_pos sep part
    unfold pieces at ih ⊢
    rw [List.flatMap_cons, List.length_append, List.length_cons]
    omega

/-- A part that holds the separator is more than one piece. -/
theorem two_le_splitOn {sep : α} {part : List α} (h : sep ∈ part) : 2 ≤ (part.splitOn sep).length := by
  obtain ⟨before, after, rfl⟩ := List.append_of_mem h
  have hbefore := length_splitOn_pos sep before
  have hafter := length_splitOn_pos sep after
  rw [List.splitOn_append_cons_self, List.length_append]
  omega

/-- **As many pieces as parts, and no part holds the separator.** -/
theorem plain_of_length_pieces {sep : α} : ∀ {parts : List (List α)}, (pieces sep parts).length = parts.length →
    ∀ part ∈ parts, sep ∉ part
  | [], _ => by simp
  | part :: rest, h => by
    have hpart := length_splitOn_pos sep part
    have hrest := length_le_pieces sep rest
    have hsum : (pieces sep (part :: rest)).length = (part.splitOn sep).length + (pieces sep rest).length := by
      simp [pieces]
    rw [hsum, List.length_cons] at h
    intro p hp hsep
    rcases List.mem_cons.1 hp with rfl | hp
    · have htwo := two_le_splitOn hsep
      omega
    · exact plain_of_length_pieces (by omega) p hp hsep

end Sql
