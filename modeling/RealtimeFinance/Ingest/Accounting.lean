import Mathlib.Data.Int.ConditionallyCompleteOrder
import Mathlib.Data.Int.Interval
import Mathlib.Data.List.Induction
import Mathlib.Order.CompletePartialOrder
import Mathlib.Order.ConditionallyCompleteLattice.Basic
import RealtimeFinance.Ingest.Gaps
import RealtimeFinance.Runs
/-!
# Accounting — a tracker's gaps against what it was shown

Of each key: the watermark is the greatest value observed, and every integer from the first value to the watermark is
accounted for once, in one gap returned or as a value the watermark was set to (`SequenceTracker.accounting`).  An
observation either leaves a key's account alone or extends it at its upper end (`Account.extend`).
-/
namespace Ingest

open Runs (outputs outputs_concat mem_outputs)

structure Observation where
  key : SequenceKey
  sequence : Option Int

def SequenceTracker.after (t : SequenceTracker) (o : Observation) : SequenceTracker :=
  (t.observe o.key.1 o.key.2 o.sequence).1

def SequenceTracker.returned (t : SequenceTracker) (o : Observation) : Option Gap :=
  (t.observe o.key.1 o.key.2 o.sequence).2

/-- What an observation writes to `_watermarks[key]`, where it writes at all. -/
def SequenceTracker.assigned (key : SequenceKey) (t : SequenceTracker) (o : Observation) : Option Int :=
  if o.key = key ∧ o.sequence.isSome then (t.after o).watermarks key else none

def tracked (os : List Observation) : SequenceTracker := os.foldl SequenceTracker.after SequenceTracker.new

def observedOf (key : SequenceKey) (os : List Observation) : List Int :=
  os.filterMap (fun o => if o.key = key then o.sequence else none)

def gapsOf (key : SequenceKey) (os : List Observation) : List Gap :=
  (outputs SequenceTracker.after SequenceTracker.returned SequenceTracker.new os).filter (fun g => g.key = key)

def assignedOf (key : SequenceKey) (os : List Observation) : List Int :=
  outputs SequenceTracker.after (SequenceTracker.assigned key) SequenceTracker.new os

section Observe

variable (t : SequenceTracker) {key : SequenceKey} {o : Observation}

theorem SequenceTracker.after_other (h : o.sequence = none ∨ o.key ≠ key) :
    (t.after o).watermarks key = t.watermarks key := by
  rcases h with h | h
  · simp [SequenceTracker.after, SequenceTracker.observe, h]
  · exact t.observe_of_ne o.sequence h.symm

theorem SequenceTracker.returned_key {g : Gap} (h : t.returned o = some g) : g.key = o.key := by
  simp only [SequenceTracker.returned, SequenceTracker.observe] at h
  cases hs : o.sequence with
  | none => simp [hs] at h
  | some sequence =>
    cases hw : t.watermarks (o.key.1, o.key.2) with
    | none => simp [hs, hw] at h
    | some last =>
      simp only [hs, hw] at h
      split at h
      · cases h
      · cases h
        rfl

theorem SequenceTracker.returned_other (h : o.sequence = none ∨ o.key ≠ key) :
    (t.returned o).toList.filter (fun g => g.key = key) = [] := by
  rw [List.filter_eq_nil_iff]
  intro g hg hkey
  rw [Option.mem_toList] at hg
  rcases h with h | h
  · simp [SequenceTracker.returned, SequenceTracker.observe, h] at hg
  · exact h ((t.returned_key hg).symm.trans (of_decide_eq_true hkey))

theorem SequenceTracker.assigned_other (h : o.sequence = none ∨ o.key ≠ key) : SequenceTracker.assigned key t o = none := by
  rcases h with h | h <;> simp [SequenceTracker.assigned, h]

/-- **The first value of a key** sets its watermark and returns no gap. -/
theorem SequenceTracker.observe_none {f : Int} (hkey : o.key = key) (hs : o.sequence = some f)
    (hw : t.watermarks key = none) :
    (t.after o).watermarks key = some f ∧ t.returned o = none ∧ SequenceTracker.assigned key t o = some f := by
  subst hkey
  have hafter : (t.after o).watermarks o.key = some f := by
    rw [SequenceTracker.after, hs]
    exact t.observe_first hw
  refine ⟨hafter, ?_, ?_⟩
  · simp [SequenceTracker.returned, SequenceTracker.observe, hs, hw]
  · simp [SequenceTracker.assigned, hs, hafter]

/-- **A later value** sets the watermark to the greater of the two, and returns what it jumps over. -/
theorem SequenceTracker.observe_some {s w : Int} (hkey : o.key = key) (hs : o.sequence = some s)
    (hw : t.watermarks key = some w) :
    (t.after o).watermarks key = some (max w s) ∧ SequenceTracker.assigned key t o = some (max w s) ∧
    t.returned o = if s ≤ w + 1 then none else some ⟨key.1, key.2, w, s⟩ := by
  subst hkey
  have hafter : (t.after o).watermarks o.key = some (max w s) := by
    simp [SequenceTracker.after, SequenceTracker.observe, hs, hw, max_comm w s]
  refine ⟨hafter, ?_, ?_⟩
  · simp [SequenceTracker.assigned, hs, hafter]
  · simp [SequenceTracker.returned, SequenceTracker.observe, hs, hw]

end Observe

/-- The account of one key: what its gaps and the values its watermark was set to make of the integers from the first
value `f` to the watermark `w`. -/
structure Account (f w : Int) (gaps : List Gap) (assigned : List Int) : Prop where
  first_le : f ≤ w
  top : w ∈ assigned
  assigned_le : ∀ i ∈ assigned, i ≤ w
  inside : ∀ g ∈ gaps, f ≤ g.lastSeen ∧ g.nextSeen ≤ w
  disjoint : gaps.Pairwise (fun g h => ∀ i, g.Contains i → ¬ h.Contains i)
  once : ∀ i, f ≤ i → i ≤ w → gaps.countP (fun g => g.Contains i) = if i ∈ assigned then 0 else 1

theorem Account.first (f : Int) : Account f f [] [f] where
  first_le := le_refl f
  top := List.mem_singleton.2 rfl
  assigned_le i hi := by rw [List.mem_singleton.1 hi]
  inside g hg := by cases hg
  disjoint := List.Pairwise.nil
  once i hf hw := by simp [le_antisymm hw hf]

variable {f w s : Int} {gaps : List Gap} {assigned : List Int}

/-- No gap reaches past the watermark. -/
theorem Account.countP_above (h : Account f w gaps assigned) {i : Int} (hi : w ≤ i) :
    gaps.countP (fun g => g.Contains i) = 0 := by
  rw [List.countP_eq_zero]
  intro g hg hc
  have hc : g.Contains i := of_decide_eq_true hc
  have := (h.inside g hg).2
  have := hc.2
  omega

/-- A value that is not past the watermark sets it to itself again. -/
theorem Account.again (h : Account f w gaps assigned) : Account f w gaps (assigned ++ [w]) := by
  have hmem : ∀ i, i ∈ assigned ++ [w] ↔ i ∈ assigned := by
    intro i
    rw [List.mem_append, List.mem_singleton]
    exact ⟨fun hi => hi.elim id (fun hi => hi ▸ h.top), Or.inl⟩
  exact { h with
    top := (hmem w).2 h.top
    assigned_le := fun i hi => h.assigned_le i ((hmem i).1 hi)
    once := fun i hf hw => by
      rw [h.once i hf hw]
      exact if_congr (hmem i).symm rfl rfl }

/-- **A value past the watermark** extends the account: the integers between are in the new gap, and the value is where
the watermark now stands. -/
theorem Account.extend (h : Account f w gaps assigned) (hs : w < s) (venue venueSymbol : String) :
    Account f s (gaps ++ (if s ≤ w + 1 then none else some (Gap.mk venue venueSymbol w s)).toList) (assigned ++ [s]) := by
  have hf := h.first_le
  have hgap : ∀ g ∈ (if s ≤ w + 1 then none else some (Gap.mk venue venueSymbol w s)).toList,
      g = Gap.mk venue venueSymbol w s := by
    intro g hg
    split at hg
    · cases hg
    · exact List.mem_singleton.1 hg
  refine ⟨by omega, by simp, ?_, ?_, ?_, ?_⟩
  · intro i hi
    rcases List.mem_append.1 hi with hi | hi
    · have := h.assigned_le i hi
      omega
    · rw [List.mem_singleton.1 hi]
  · intro g hg
    rcases List.mem_append.1 hg with hg | hg
    · have := h.inside g hg
      omega
    · rw [hgap g hg]
      exact ⟨hf, le_refl s⟩
  · refine List.pairwise_append.2 ⟨h.disjoint, ?_, ?_⟩
    · split
      · exact List.Pairwise.nil
      · exact List.pairwise_singleton _ _
    · intro g hg g' hg' i hi hi'
      rw [hgap g' hg'] at hi'
      have := (h.inside g hg).2
      have := hi.2
      have : w < i := hi'.1
      omega
  · intro i hi his
    rw [List.countP_append]
    rcases Int.lt_or_le w i with hwi | hiw
    · have hold := h.countP_above hwi.le
      have hnot : i ∉ assigned := fun hmem => by have := h.assigned_le i hmem; omega
      rw [hold, Nat.zero_add]
      by_cases heq : i = s
      · subst heq
        split <;> simp [Gap.Contains]
      · have hlt : i < s := by omega
        rw [if_neg (by omega : ¬ s ≤ w + 1)]
        simp [Gap.Contains, hwi, hlt, hnot, heq]
    · have hne : i ≠ s := by omega
      have hnew : (if s ≤ w + 1 then none else some (Gap.mk venue venueSymbol w s)).toList.countP
          (fun g => g.Contains i) = 0 := by
        rw [List.countP_eq_zero]
        intro g hg hc
        rw [hgap g hg] at hc
        have : w < i := (of_decide_eq_true hc).1
        omega
      rw [hnew, Nat.add_zero, h.once i hi hiw]
      simp [hne]

section Concat

variable (key : SequenceKey) (os : List Observation) (o : Observation)

theorem tracked_concat : tracked (os ++ [o]) = (tracked os).after o := List.foldl_append

theorem observedOf_concat : observedOf key (os ++ [o]) =
    observedOf key os ++ (if o.key = key then o.sequence else none).toList := by
  unfold observedOf
  rw [List.filterMap_append]
  cases h : (if o.key = key then o.sequence else none) <;> simp [h]

theorem gapsOf_concat : gapsOf key (os ++ [o]) =
    gapsOf key os ++ ((tracked os).returned o).toList.filter (fun g => g.key = key) := by
  unfold gapsOf
  rw [outputs_concat, List.filter_append]
  rfl

theorem assignedOf_concat : assignedOf key (os ++ [o]) =
    assignedOf key os ++ (SequenceTracker.assigned key (tracked os) o).toList := outputs_concat _ _ _ _

end Concat

/-- Nothing of the key was observed yet, or its account stands. -/
def Accounted (key : SequenceKey) (os : List Observation) : Prop :=
  (observedOf key os = [] ∧ (tracked os).watermarks key = none ∧ gapsOf key os = [] ∧ assignedOf key os = []) ∨
  ∃ f rest, observedOf key os = f :: rest ∧ (tracked os).watermarks key = some (rest.foldl max f) ∧
    Account f (rest.foldl max f) (gapsOf key os) (assignedOf key os)

/-- An observation of another key, or without a sequence, changes nothing of this key. -/
theorem concat_other {key : SequenceKey} (os : List Observation) {o : Observation} (h : o.sequence = none ∨ o.key ≠ key) :
    observedOf key (os ++ [o]) = observedOf key os ∧
    (tracked (os ++ [o])).watermarks key = (tracked os).watermarks key ∧
    gapsOf key (os ++ [o]) = gapsOf key os ∧ assignedOf key (os ++ [o]) = assignedOf key os := by
  refine ⟨?_, ?_, ?_, ?_⟩
  · rw [observedOf_concat]
    rcases h with h | h <;> simp [h]
  · rw [tracked_concat, SequenceTracker.after_other _ h]
  · rw [gapsOf_concat, SequenceTracker.returned_other _ h, List.append_nil]
  · rw [assignedOf_concat, SequenceTracker.assigned_other _ h]
    exact List.append_nil _

theorem Accounted.concat {key : SequenceKey} {os : List Observation} (h : Accounted key os) (o : Observation) :
    Accounted key (os ++ [o]) := by
  by_cases hother : o.sequence = none ∨ o.key ≠ key
  · obtain ⟨hobs, hmark, hgaps, hassigned⟩ := concat_other os hother
    unfold Accounted
    rw [hobs, hmark, hgaps, hassigned]
    exact h
  obtain ⟨hnone, hkey⟩ := not_or.1 hother
  obtain ⟨s, hs⟩ := Option.ne_none_iff_exists'.1 hnone
  have hkey : o.key = key := not_not.1 hkey
  have hobs : observedOf key (os ++ [o]) = observedOf key os ++ [s] := by
    rw [observedOf_concat, if_pos hkey, hs]
    rfl
  rcases h with ⟨hnil, hmark, hgaps, hassigned⟩ | ⟨f, rest, hcons, hmark, hacc⟩
  · obtain ⟨hafter, hreturned, hset⟩ := (tracked os).observe_none hkey hs hmark
    refine Or.inr ⟨s, [], by rw [hobs, hnil]; rfl, ?_, ?_⟩
    · rw [tracked_concat, hafter]
      rfl
    · rw [gapsOf_concat, assignedOf_concat, hgaps, hassigned, hreturned, hset]
      exact Account.first s
  · obtain ⟨hafter, hset, hreturned⟩ := (tracked os).observe_some hkey hs hmark
    have hfold : (rest ++ [s]).foldl max f = max (rest.foldl max f) s := by
      rw [List.foldl_append]
      rfl
    refine Or.inr ⟨f, rest ++ [s], by rw [hobs, hcons]; rfl, by rw [tracked_concat, hafter, hfold], ?_⟩
    rw [gapsOf_concat, assignedOf_concat, hset, hreturned, hfold]
    rcases Int.lt_or_le (rest.foldl max f) s with hjump | hlate
    · have hall : ∀ g ∈ (if s ≤ rest.foldl max f + 1 then none
          else some (Gap.mk key.1 key.2 (rest.foldl max f) s)).toList, decide (g.key = key) = true := by
        intro g hg
        split at hg
        · cases hg
        · rw [List.mem_singleton.1 hg]
          exact decide_eq_true rfl
      rw [List.filter_eq_self.2 hall, max_eq_right hjump.le]
      exact hacc.extend hjump key.1 key.2
    · rw [if_pos (by omega), max_eq_left hlate]
      simpa using hacc.again

theorem accounted (key : SequenceKey) (os : List Observation) : Accounted key os := by
  induction os using List.reverseRecOn with
  | nil => exact Or.inl ⟨rfl, rfl, rfl, rfl⟩
  | append_singleton os o ih => exact ih.concat o

/-- A gap is only returned when a sequence is missing. -/
theorem SequenceTracker.returned_lt {t : SequenceTracker} {o : Observation} {g : Gap} (h : t.returned o = some g) :
    g.lastSeen + 1 < g.nextSeen := by
  simp only [SequenceTracker.returned, SequenceTracker.observe] at h
  cases hs : o.sequence with
  | none => simp [hs] at h
  | some s =>
    cases hw : t.watermarks (o.key.1, o.key.2) with
    | none => simp [hs, hw] at h
    | some w =>
      simp only [hs, hw] at h
      split at h
      · cases h
      · cases h
        show w + 1 < s
        omega

theorem lt_of_mem_gapsOf {key : SequenceKey} {os : List Observation} {g : Gap} (hg : g ∈ gapsOf key os) :
    g.lastSeen + 1 < g.nextSeen := by
  obtain ⟨pre, o, post, -, hreturned⟩ := mem_outputs.1 (List.mem_filter.1 hg).1
  exact SequenceTracker.returned_lt hreturned

/-- **The account of every key after every run of observations**: the watermark is the greatest value observed; the open
intervals of its gaps are disjoint and lie between the first value and the watermark; and every integer there is in one
gap, or is a value the watermark was set to and in none. -/
theorem SequenceTracker.accounting (key : SequenceKey) (os : List Observation) :
    (tracked os).watermarks key = (observedOf key os).max? ∧
    (∀ f w, (observedOf key os).head? = some f → (tracked os).watermarks key = some w →
      (gapsOf key os).Pairwise (fun g h => Disjoint (Set.Ioo g.lastSeen g.nextSeen) (Set.Ioo h.lastSeen h.nextSeen)) ∧
      (∀ g ∈ gapsOf key os, f ≤ g.lastSeen ∧ g.nextSeen ≤ w) ∧
      ∀ i, f ≤ i → i ≤ w → (gapsOf key os).countP (fun g => g.Contains i) = if i ∈ assignedOf key os then 0 else 1) ∧
    (∀ g ∈ gapsOf key os, g.missingCount = (Finset.Ioo g.lastSeen g.nextSeen).card) ∧
    ∀ o : Observation, o.sequence = none ∨ o.key ≠ key →
      (tracked (os ++ [o])).watermarks key = (tracked os).watermarks key ∧
      gapsOf key (os ++ [o]) = gapsOf key os ∧ assignedOf key (os ++ [o]) = assignedOf key os := by
  refine ⟨?_, ?_, ?_, fun o ho => (concat_other os ho).2⟩
  · rcases accounted key os with ⟨hnil, hmark, -, -⟩ | ⟨f, rest, hcons, hmark, -⟩
    · rw [hnil, hmark]
      rfl
    · rw [hcons, hmark, List.max?_cons']
  · intro f w hf hw
    rcases accounted key os with ⟨hnil, -, -, -⟩ | ⟨f', rest, hcons, hmark, hacc⟩
    · rw [hnil] at hf
      cases hf
    · rw [hcons] at hf
      rw [hmark] at hw
      cases hf
      cases hw
      refine ⟨hacc.disjoint.imp (fun h => Set.disjoint_left.2 h), hacc.inside, hacc.once⟩
  · intro g hg
    have hlt : g.lastSeen < g.nextSeen := by
      have := lt_of_mem_gapsOf hg
      omega
    exact (Int.card_Ioo_of_lt _ _ hlt).symm

def btcusdt : SequenceKey := ("binance", "BTCUSDT")

/-- Late, repeated and skipped values, another key's, and a trade without a sequence. -/
def observations : List Observation :=
  [⟨btcusdt, some 5⟩, ⟨btcusdt, some 9⟩, ⟨("binance", "ETHUSDT"), some 70⟩, ⟨btcusdt, some 7⟩, ⟨btcusdt, none⟩,
    ⟨btcusdt, some 9⟩, ⟨btcusdt, some 3⟩, ⟨btcusdt, some 10⟩, ⟨btcusdt, some 12⟩]

theorem SequenceTracker.accounting_observations :
    gapsOf btcusdt observations = [⟨"binance", "BTCUSDT", 5, 9⟩, ⟨"binance", "BTCUSDT", 10, 12⟩] ∧
    (∀ i, 5 ≤ i → i ≤ 12 → (gapsOf btcusdt observations).countP (fun g => g.Contains i) =
      if i ∈ assignedOf btcusdt observations then 0 else 1) ∧
    (tracked (observations ++ [⟨btcusdt, none⟩])).watermarks btcusdt = (tracked observations).watermarks btcusdt := by
  refine ⟨by decide, ?_, ?_⟩
  · exact ((SequenceTracker.accounting btcusdt observations).2.1 5 12 (by decide) (by decide)).2.2
  · exact ((SequenceTracker.accounting btcusdt observations).2.2.2 ⟨btcusdt, none⟩ (Or.inl rfl)).1

end Ingest
