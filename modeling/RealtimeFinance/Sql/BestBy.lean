import RealtimeFinance.Sql.GroupBy
/-!
# BestBy — `min_by` and `max_by` over a comparison that may fail

A scan keeps the row it holds unless the next one precedes it, so of the rows that nothing precedes it returns the one
scanned first (`Ranks.bestBy_least`).  Rows tied for least come out in the order of the scan: each of them is the answer
of some scan of the same rows (`Ranks.exists_scan`), so the answer does not depend on the order exactly where they agree.
-/
namespace Sql

variable {α : Type} {lt : α → α → Except Error Bool}

/-- **`lt` ranks the rows it compares**: `lt a b` that is false says that `b` is at most `a`. -/
structure Ranks (lt : α → α → Except Error Bool) : Prop where
  asymm : ∀ {a b}, lt a b = .ok true → lt b a = .ok false
  comparable : ∀ {a b x}, lt a b = .ok x → ∃ y, lt b a = .ok y
  trans : ∀ {a b c}, lt a b = .ok false → lt b c = .ok false → lt a c = .ok false

/-- Nothing precedes `f`. -/
def Least (lt : α → α → Except Error Bool) (rows : List α) (f : α) : Prop := f ∈ rows ∧ ∀ r ∈ rows, lt r f ≠ .ok true

theorem Least.perm {rows rows' : List α} {f : α} (h : Least lt rows f) (hp : rows.Perm rows') : Least lt rows' f :=
  ⟨hp.mem_iff.1 h.1, fun r hr => h.2 r (hp.mem_iff.2 hr)⟩

theorem bestBy_some {rows : List α} {best : Option α} (hne : rows ≠ []) (h : bestBy lt rows = .ok best) :
    ∃ b, best = some b := by
  cases rows with
  | nil => exact absurd rfl hne
  | cons r rs =>
    obtain ⟨b, -, h⟩ := bind_ok h
    cases h
    exact ⟨b, rfl⟩

theorem bestBy_cons_cons (r s : α) (rs : List α) :
    bestBy lt (r :: s :: rs) = lt s r >>= fun before => bestBy lt ((if before then s else r) :: rs) := by
  simp only [bestBy, List.foldlM_cons]
  cases lt s r <;> rfl

/-- A scan that starts with a row nothing precedes keeps it. -/
theorem bestBy_of_least_head {f : α} : ∀ {rs : List α}, (∀ r ∈ rs, lt r f = .ok false) → bestBy lt (f :: rs) = .ok (some f)
  | [], _ => rfl
  | r :: rs, h => by
    rw [bestBy_cons_cons, h r List.mem_cons_self]
    exact bestBy_of_least_head (fun x hx => h x (List.mem_cons_of_mem _ hx))

/-- **The answer of a scan is at most every row**, and was compared with each. -/
theorem Ranks.bestBy_le (h : Ranks lt) : ∀ {rs : List α} {r b : α}, bestBy lt (r :: rs) = .ok (some b) →
    b ∈ r :: rs ∧ ∀ x ∈ r :: rs, x = b ∨ lt x b = .ok false
  | [], r, b, hb => by
    cases hb
    exact ⟨List.mem_cons_self, fun x hx => Or.inl (List.mem_singleton.1 hx)⟩
  | s :: rs, r, b, hb => by
    rw [bestBy_cons_cons] at hb
    obtain ⟨before, hlt, hb⟩ := bind_ok hb
    cases before with
    | true =>
      obtain ⟨hmem, hle⟩ := h.bestBy_le hb
      refine ⟨List.mem_cons_of_mem _ hmem, fun x hx => ?_⟩
      rcases List.mem_cons.1 hx with rfl | hx
      · rcases hle s List.mem_cons_self with hs | hs
        · exact Or.inr (hs ▸ h.asymm hlt)
        · exact Or.inr (h.trans (h.asymm hlt) hs)
      · exact hle x hx
    | false =>
      obtain ⟨hmem, hle⟩ := h.bestBy_le hb
      refine ⟨?_, fun x hx => ?_⟩
      · rcases List.mem_cons.1 hmem with rfl | hmem
        · exact List.mem_cons_self
        · exact List.mem_cons_of_mem _ (List.mem_cons_of_mem _ hmem)
      · rcases List.mem_cons.1 hx with rfl | hx
        · exact hle x List.mem_cons_self
        · rcases List.mem_cons.1 hx with rfl | hx
          · rcases hle r List.mem_cons_self with hr | hr
            · exact Or.inr (hr ▸ hlt)
            · exact Or.inr (h.trans hlt hr)
          · exact hle x (List.mem_cons_of_mem _ hx)

theorem Ranks.flip (h : Ranks lt) : Ranks (fun a b => lt b a) where
  asymm := h.asymm
  comparable := h.comparable
  trans hab hbc := h.trans hbc hab

/-- **A scan returns a row that nothing precedes**, and has compared the others with it. -/
theorem Ranks.bestBy_least (h : Ranks lt) {rows : List α} {b : α} (hb : bestBy lt rows = .ok (some b)) :
    Least lt rows b ∧ ∀ x ∈ rows, x = b ∨ lt x b = .ok false := by
  cases rows with
  | nil => cases hb
  | cons r rs =>
    obtain ⟨hmem, hle⟩ := h.bestBy_le hb
    refine ⟨⟨hmem, fun x hx hlt => ?_⟩, hle⟩
    rcases hle x hx with rfl | hfalse
    · have hself := h.asymm hlt
      rw [hlt] at hself
      cases hself
    · rw [hlt] at hfalse
      cases hfalse

/-- **Of a scan that has an answer, a row that nothing precedes is at most every other.** -/
theorem Ranks.le_of_least (h : Ranks lt) {rows : List α} {b : α} (hb : bestBy lt rows = .ok (some b)) {f : α}
    (hf : Least lt rows f) : ∀ x ∈ rows, x = f ∨ lt x f = .ok false := by
  obtain ⟨⟨hbmem, -⟩, hle⟩ := h.bestBy_least hb
  rcases hle f hf.1 with rfl | hfb
  · exact hle
  · have hbf : lt b f = .ok false := by
      obtain ⟨before, hbefore⟩ := h.comparable hfb
      cases before with
      | true => exact absurd hbefore (hf.2 b hbmem)
      | false => exact hbefore
    intro x hx
    rcases hle x hx with rfl | hxb
    · exact Or.inr hbf
    · exact Or.inr (h.trans hxb hbf)

variable [DecidableEq α]

/-- **Every row that nothing precedes is the answer of some scan**, and the scan for the last row has one there too. -/
theorem Ranks.exists_scan (h : Ranks lt) {rows : List α} (hnodup : rows.Nodup) {b l : α}
    (hb : bestBy lt rows = .ok (some b)) (hl : bestBy (fun a b => lt b a) rows = .ok (some l)) {f : α}
    (hf : Least lt rows f) : ∃ scan, scan.Perm rows ∧ bestBy lt scan = .ok (some f) ∧
      ∃ l', bestBy (fun a b => lt b a) scan = .ok (some l') := by
  have hle := h.le_of_least hb hf
  obtain ⟨⟨hlmem, -⟩, hge⟩ := h.flip.bestBy_least hl
  by_cases hfl : l = f
  · rw [hfl] at hge
    have hperm : (f :: rows.erase f).Perm rows := (List.perm_cons_erase hf.1).symm
    have hrest : ∀ x ∈ rows.erase f, x ∈ rows ∧ x ≠ f := fun x hx =>
      ⟨List.mem_of_mem_erase hx, ((hnodup.mem_erase_iff).1 hx).1⟩
    refine ⟨f :: rows.erase f, hperm, bestBy_of_least_head (fun x hx => ?_), f, bestBy_of_least_head (fun x hx => ?_)⟩
    · exact (hle x (hrest x hx).1).resolve_left (hrest x hx).2
    · exact (hge x (hrest x hx).1).resolve_left (hrest x hx).2
  · have hperm : (f :: l :: (rows.erase f).erase l).Perm rows := by
      have hlrest : l ∈ rows.erase f := (hnodup.mem_erase_iff).2 ⟨hfl, hlmem⟩
      exact ((List.perm_cons_erase hlrest).symm.cons f).trans (List.perm_cons_erase hf.1).symm
    have hrest : ∀ x ∈ (rows.erase f).erase l, x ∈ rows ∧ x ≠ f ∧ x ≠ l := fun x hx => by
      obtain ⟨hxl, hx⟩ := ((hnodup.erase f).mem_erase_iff).1 hx
      exact ⟨List.mem_of_mem_erase hx, ((hnodup.mem_erase_iff).1 hx).1, hxl⟩
    have hlf : lt l f = .ok false := (hle l hlmem).resolve_left hfl
    refine ⟨f :: l :: (rows.erase f).erase l, hperm, bestBy_of_least_head (fun x hx => ?_), ?_⟩
    · rcases List.mem_cons.1 hx with rfl | hx
      · exact hlf
      · exact (hle x (hrest x hx).1).resolve_left (hrest x hx).2.1
    · -- `l` is scanned second, and either is greatest or ties with `f`.
      have hbelow : ∀ x ∈ (rows.erase f).erase l, lt l x = .ok false := fun x hx =>
        (hge x (hrest x hx).1).resolve_left (hrest x hx).2.2
      obtain ⟨before, hbefore⟩ := h.comparable hlf
      rw [bestBy_cons_cons, hbefore]
      cases before with
      | true => exact ⟨l, bestBy_of_least_head hbelow⟩
      | false => exact ⟨f, bestBy_of_least_head (fun x hx => h.trans hbefore (hbelow x hx))⟩

end Sql
