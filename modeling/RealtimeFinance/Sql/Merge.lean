import RealtimeFinance.Sql.RowNumber
/-!
# Merge — `MERGE INTO`, and the insert-if-absent table

`MergeInto.run` is the statement: a target row matched by two source rows fails it, each other target row takes its
matched branch, and every source row without a match is inserted.  The second half reads the statement through a key
whose equality is the `ON` condition: a source of distinct keys never fails it, and with no update branch it inserts the
rows whose keys the target lacks (`MergeInto.Keyed.inserted_iff`).
-/
namespace Sql

inductive Error
  | mergeTargetRowMultipleMatches
  | invalidCastArgument
  | numericValueOutOfRange
  /-- A `ROW` comparison reached a NULL field. -/
  | rowComparisonOfNull
  deriving DecidableEq, Repr

variable {α β τ κ ε : Type}

theorem bind_ok {x : Except ε α} {f : α → Except ε β} {r : β} (h : x >>= f = .ok r) :
    ∃ a, x = .ok a ∧ f a = .ok r := by
  cases x with
  | error e => cases h
  | ok a => exact ⟨a, rfl, h⟩

/-- **A `SELECT` list over rows, none of which failed**: its rows are the rows it was computed from, one for one. -/
theorem mapM_ok {f : α → Except ε β} : ∀ {xs : List α} {ys : List β}, xs.mapM f = .ok ys →
    (∀ x ∈ xs, ∃ y ∈ ys, f x = .ok y) ∧ (∀ y ∈ ys, ∃ x ∈ xs, f x = .ok y)
  | [], ys, h => by
    rw [List.mapM_nil] at h
    cases h
    exact ⟨by simp, by simp⟩
  | x :: xs, ys, h => by
    rw [List.mapM_cons] at h
    obtain ⟨y, hy, h⟩ := bind_ok h
    obtain ⟨zs, hzs, h⟩ := bind_ok h
    cases h
    obtain ⟨hto, hfrom⟩ := mapM_ok hzs
    refine ⟨fun a ha => ?_, fun b hb => ?_⟩
    · rcases List.mem_cons.1 ha with rfl | ha
      · exact ⟨y, List.mem_cons_self, hy⟩
      · obtain ⟨b, hb, hab⟩ := hto a ha
        exact ⟨b, List.mem_cons_of_mem _ hb, hab⟩
    · rcases List.mem_cons.1 hb with rfl | hb
      · exact ⟨x, List.mem_cons_self, hy⟩
      · obtain ⟨a, ha, hab⟩ := hfrom b hb
        exact ⟨a, List.mem_cons_of_mem _ ha, hab⟩

theorem mapM_congr {f g : α → Except ε β} : ∀ {xs : List α}, (∀ x ∈ xs, f x = g x) → xs.mapM f = xs.mapM g
  | [], _ => rfl
  | x :: xs, h => by
    rw [List.mapM_cons, List.mapM_cons, h x List.mem_cons_self, mapM_congr (fun y hy => h y (List.mem_cons_of_mem _ hy))]

theorem mapM_forall₂ {f : α → Except ε β} : ∀ {xs : List α} {ys : List β}, xs.mapM f = .ok ys →
    List.Forall₂ (fun x y => f x = .ok y) xs ys
  | [], ys, h => by
    rw [List.mapM_nil] at h
    cases h
    exact .nil
  | x :: xs, ys, h => by
    rw [List.mapM_cons] at h
    obtain ⟨y, hy, h⟩ := bind_ok h
    obtain ⟨zs, hzs, h⟩ := bind_ok h
    cases h
    exact .cons hy (mapM_forall₂ hzs)

theorem mem_mapM_iff {f : α → Except ε β} {xs : List α} {ys : List β} (h : xs.mapM f = .ok ys) {y : β} :
    y ∈ ys ↔ ∃ x ∈ xs, f x = .ok y := by
  constructor
  · exact fun hy => (mapM_ok h).2 y hy
  · rintro ⟨x, hx, hxy⟩
    obtain ⟨y', hy', hxy'⟩ := (mapM_ok h).1 x hx
    rw [hxy] at hxy'
    cases hxy'
    exact hy'

theorem mapM_map_eq {γ : Type} {f : α → Except ε β} {g : α → γ} {g' : β → γ}
    (hg : ∀ x y, f x = .ok y → g' y = g x) : ∀ {xs : List α} {ys : List β}, xs.mapM f = .ok ys → ys.map g' = xs.map g
  | [], ys, h => by
    rw [List.mapM_nil] at h
    cases h
    rfl
  | x :: xs, ys, h => by
    rw [List.mapM_cons] at h
    obtain ⟨y, hy, h⟩ := bind_ok h
    obtain ⟨zs, hzs, h⟩ := bind_ok h
    cases h
    rw [List.map_cons, List.map_cons, hg x y hy, mapM_map_eq hg hzs]

/-- A list that fails fails at one of its rows. -/
theorem mapM_error {f : α → Except ε β} {e : ε} : ∀ {xs : List α}, xs.mapM f = .error e → ∃ x ∈ xs, f x = .error e
  | [], h => by
    rw [List.mapM_nil] at h
    cases h
  | x :: xs, h => by
    rw [List.mapM_cons] at h
    cases hx : f x with
    | error e' =>
      rw [hx] at h
      cases h
      exact ⟨x, List.mem_cons_self, hx⟩
    | ok y =>
      rw [hx] at h
      cases hxs : xs.mapM f with
      | error e' =>
        rw [hxs] at h
        cases h
        obtain ⟨z, hz, hfz⟩ := mapM_error hxs
        exact ⟨z, List.mem_cons_of_mem _ hz, hfz⟩
      | ok ys =>
        rw [hxs] at h
        cases h

theorem mapM_total {f : α → Except ε β} : ∀ {xs : List α}, (∀ x ∈ xs, ∃ y, f x = .ok y) → ∃ ys, xs.mapM f = .ok ys
  | [], _ => ⟨[], rfl⟩
  | x :: xs, h => by
    obtain ⟨y, hy⟩ := h x List.mem_cons_self
    obtain ⟨ys, hys⟩ := mapM_total (fun z hz => h z (List.mem_cons_of_mem _ hz))
    refine ⟨y :: ys, ?_⟩
    rw [List.mapM_cons, hy, hys]
    rfl

/-- **A `SELECT` list that fails on some rows and computes the others.** -/
theorem mapM_eq_ok_iff {f : α → Except ε β} {p : α → Prop} {g : α → β} (h : ∀ x y, f x = .ok y ↔ p x ∧ y = g x)
    {xs : List α} {ys : List β} : xs.mapM f = .ok ys ↔ (∀ x ∈ xs, p x) ∧ ys = xs.map g := by
  have hmap : ∀ zs, xs.mapM f = .ok zs → zs = xs.map g := by
    intro zs hzs
    have hid : zs.map id = xs.map g := mapM_map_eq (fun x y hxy => ((h x y).1 hxy).2) hzs
    rwa [List.map_id] at hid
  constructor
  · intro hys
    refine ⟨fun x hx => ?_, hmap ys hys⟩
    obtain ⟨y, -, hxy⟩ := (mapM_ok hys).1 x hx
    exact ((h x y).1 hxy).1
  · rintro ⟨hp, rfl⟩
    obtain ⟨zs, hzs⟩ := mapM_total (fun x hx => ⟨g x, (h x (g x)).2 ⟨hp x hx, rfl⟩⟩)
    rw [hzs, hmap zs hzs]

theorem mapM_map_ok {γ : Type} {f : α → Except ε β} {g : β → γ} : ∀ xs : List α,
    xs.mapM (fun x => (f x).map g) = (xs.mapM f).map (List.map g)
  | []      => rfl
  | x :: xs => by
    rw [List.mapM_cons, List.mapM_cons, mapM_map_ok xs]
    cases f x with
    | error e => rfl
    | ok y => cases xs.mapM f <;> rfl

/-- A `MERGE INTO`, its source rows shaped as the rows they insert. -/
structure MergeInto (τ : Type) where
  /-- The `ON` condition, source row first. -/
  on : τ → τ → Option Bool
  /-- `WHEN MATCHED`, source row first: the target row itself where the statement has no such branch. -/
  whenMatched : τ → τ → τ := fun _ t => t

def MergeInto.hits (m : MergeInto τ) (s t : τ) : Bool := decide (m.on s t = some true)

def MergeInto.inserted (m : MergeInto τ) (source target : List τ) : List τ :=
  source.filter (fun s => !target.any (m.hits s))

def MergeInto.updated (m : MergeInto τ) (source : List τ) (t : τ) : τ :=
  match source.find? (fun s => m.hits s t) with
  | some s => m.whenMatched s t
  | none   => t

def MergeInto.run (m : MergeInto τ) (source target : List τ) : Except Error (List τ) :=
  if target.any (fun t => decide (2 ≤ source.countP (fun s => m.hits s t)))
  then .error .mergeTargetRowMultipleMatches
  else .ok (target.map (m.updated source) ++ m.inserted source target)

/-- **A target row takes the matched branch with a source row that hits it, or is left alone by all.** -/
theorem MergeInto.updated_cases (m : MergeInto τ) (source : List τ) (t : τ) :
    (∃ s ∈ source, m.hits s t = true ∧ m.updated source t = m.whenMatched s t) ∨
      ((∀ s ∈ source, m.hits s t = false) ∧ m.updated source t = t) := by
  unfold MergeInto.updated
  cases hfind : source.find? (fun s => m.hits s t) with
  | some s =>
    have hs := List.find?_some hfind
    exact Or.inl ⟨s, List.mem_of_find?_eq_some hfind, hs, rfl⟩
  | none =>
    have hnone := List.find?_eq_none.1 hfind
    exact Or.inr ⟨fun s hs => by simpa using hnone s hs, rfl⟩

theorem MergeInto.run_ok {m : MergeInto τ} {source target result : List τ} (h : m.run source target = .ok result) :
    result = target.map (m.updated source) ++ m.inserted source target := by
  unfold MergeInto.run at h
  split at h
  · cases h
  · exact (Except.ok.inj h).symm

theorem MergeInto.updated_insert {m : MergeInto τ} (hm : ∀ s t, m.whenMatched s t = t) (source : List τ) (t : τ) :
    m.updated source t = t := by
  rcases m.updated_cases source t with ⟨s, -, -, he⟩ | ⟨-, he⟩
  · rw [he, hm]
  · exact he

theorem MergeInto.run_insert {m : MergeInto τ} (hm : ∀ s t, m.whenMatched s t = t) {source target result : List τ}
    (h : m.run source target = .ok result) : result = target ++ m.inserted source target := by
  rw [MergeInto.run_ok h, List.map_congr_left (fun t _ => MergeInto.updated_insert hm source t), List.map_id']

theorem MergeInto.mem_inserted {m : MergeInto τ} {source target : List τ} {s : τ} :
    s ∈ m.inserted source target ↔ s ∈ source ∧ ∀ t ∈ target, m.hits s t = false := by
  unfold MergeInto.inserted
  rw [List.mem_filter]
  simp

/-! ## Through a key

`full` marks the keys without a NULL, the ones a predicate can find equal. -/

section Keyed

variable [DecidableEq κ] (m : MergeInto τ) (key : τ → κ) (full : κ → Bool)

def MergeInto.Keyed : Prop := ∀ s t, m.hits s t = true ↔ key s = key t ∧ full (key t) = true

def rowOf (k : κ) (rows : List τ) : Option τ := rows.find? (fun r => decide (key r = k))

/-- No two rows share a full key. -/
def UniqueKeys (rows : List τ) : Prop := rows.Pairwise (fun a b => key a = key b → full (key a) = false)

variable {m key full}

theorem rowOf_isSome {k : κ} {rows : List τ} : (rowOf key k rows).isSome = true ↔ ∃ r ∈ rows, key r = k := by
  unfold rowOf
  rw [List.find?_isSome]
  simp

/-- **In a table of unique keys, the row at a full key is the row that has it.** -/
theorem rowOf_eq_of_mem {rows : List τ} (hu : UniqueKeys key full rows) {r : τ} (hr : r ∈ rows)
    (hf : full (key r) = true) : rowOf key (key r) rows = some r := by
  induction rows with
  | nil => cases hr
  | cons x rest ih =>
    unfold rowOf
    rw [List.find?_cons]
    rcases List.mem_cons.1 hr with rfl | hr
    · simp
    · have hx : key x ≠ key r := fun he => by
        have := List.rel_of_pairwise_cons hu hr he
        rw [he, hf] at this
        cases this
      simp only [hx, decide_false]
      exact ih (List.Pairwise.of_cons hu) hr

theorem MergeInto.Keyed.inserted_iff (hk : m.Keyed key full) {source target : List τ} {s : τ} :
    s ∈ m.inserted source target ↔
      s ∈ source ∧ (full (key s) = true → (rowOf key (key s) target).isSome = false) := by
  rw [MergeInto.mem_inserted]
  refine and_congr_right (fun _ => ⟨fun h hf => ?_, fun h t ht => ?_⟩)
  · rw [← Bool.not_eq_true, rowOf_isSome]
    rintro ⟨t, ht, hts⟩
    have := h t ht
    rw [(hk s t).2 ⟨hts.symm, by rw [hts]; exact hf⟩] at this
    cases this
  · cases hh : m.hits s t with
    | false => rfl
    | true =>
      obtain ⟨hkey, hf⟩ := (hk s t).1 hh
      have hn := h (by rw [hkey]; exact hf)
      rw [rowOf_isSome.2 ⟨t, ht, hkey.symm⟩] at hn
      cases hn

/-- **A key of the source is a key of the result**, full or not. -/
theorem MergeInto.Keyed.covers_inserted (hk : m.Keyed key full) {source target : List τ} {s : τ} (hs : s ∈ source) :
    ∃ r ∈ target ++ m.inserted source target, key r = key s := by
  by_cases hin : s ∈ m.inserted source target
  · exact ⟨s, List.mem_append_right _ hin, rfl⟩
  · rw [hk.inserted_iff] at hin
    have hin' : ¬ (full (key s) = true → (rowOf key (key s) target).isSome = false) := fun hn => hin ⟨hs, hn⟩
    have hsome : (rowOf key (key s) target).isSome = true := by
      cases hc : (rowOf key (key s) target).isSome with
      | true => rfl
      | false => exact absurd (fun _ => hc) hin'
    obtain ⟨t, ht, hts⟩ := rowOf_isSome.1 hsome
    exact ⟨t, List.mem_append_left _ ht, hts⟩

/-- **A merge that finds every key of its source inserts nothing.** -/
theorem MergeInto.Keyed.inserted_eq_nil (hk : m.Keyed key full) {source target : List τ}
    (hc : ∀ s ∈ source, full (key s) = true ∧ ∃ t ∈ target, key t = key s) : m.inserted source target = [] := by
  rw [List.eq_nil_iff_forall_not_mem]
  intro s hin
  obtain ⟨hs, habs⟩ := hk.inserted_iff.1 hin
  obtain ⟨hf, t, ht, hts⟩ := hc s hs
  have := habs hf
  rw [rowOf_isSome.2 ⟨t, ht, hts⟩] at this
  cases this

end Keyed
end Sql
