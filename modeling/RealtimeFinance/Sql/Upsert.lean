import Mathlib.Data.List.Perm.Subperm
import RealtimeFinance.Sql.Merge
/-!
# Upsert — `MERGE INTO` with an update branch, through a key that the update keeps

Four rules.  A source of unique keys never fails the statement and keeps the table's keys unique.  A rewrite of the
rows that neither the condition nor the update sees passes through the statement (`MergeInto.run_map`).  An overwriting
merge commutes with one that leaves the overwritten rows alone (`MergeInto.Overrides.commute`): where both have a row,
the overwriting one's wins in either order.  And a larger source leaves the same rows exactly when those it adds are
there (`MergeInto.Keyed.merged_map_perm_iff`).
-/
namespace Sql

variable {τ κ : Type} {m m' : MergeInto τ} {key : τ → κ} {full : κ → Bool}

theorem uniqueKeys_of_nodup {rows : List τ} (h : (rows.map key).Nodup) : UniqueKeys key full rows :=
  (List.pairwise_map.1 h).imp (fun hne he => absurd he hne)

/-- The table after a merge that no target row fails. -/
def MergeInto.merged (m : MergeInto τ) (source target : List τ) : List τ :=
  target.map (m.updated source) ++ m.inserted source target

/-- **Without an update branch the table only grows.** -/
theorem MergeInto.merged_insert (hm : ∀ s t, m.whenMatched s t = t) (source target : List τ) :
    m.merged source target = target ++ m.inserted source target := by
  unfold MergeInto.merged
  rw [List.map_congr_left (fun t _ => MergeInto.updated_insert hm source t), List.map_id']

/-- **A source of unique keys never matches a target row twice.** -/
theorem MergeInto.Keyed.run_eq_of_unique (hk : m.Keyed key full) {source : List τ} (hs : UniqueKeys key full source)
    (target : List τ) : m.run source target = .ok (m.merged source target) := by
  unfold MergeInto.run
  refine if_neg ?_
  rw [List.any_eq_true]
  rintro ⟨t, _, ht⟩
  rw [decide_eq_true_eq, List.countP_eq_length_filter] at ht
  have hpair : (source.filter (fun s => m.hits s t)).Pairwise (fun _ _ => False) := by
    refine (hs.filter _).imp_of_mem (fun hmem hmem' hne => ?_)
    obtain ⟨hkey, hfull⟩ := (hk _ t).1 (List.mem_filter.1 hmem).2
    obtain ⟨hkey', -⟩ := (hk _ t).1 (List.mem_filter.1 hmem').2
    have hnot := hne (hkey.trans hkey'.symm)
    rw [hkey, hfull] at hnot
    cases hnot
  generalize source.filter (fun s => m.hits s t) = matching at ht hpair
  match matching, ht, hpair with
  | a :: b :: rest, _, hpair => exact List.rel_of_pairwise_cons hpair List.mem_cons_self

theorem MergeInto.updated_of_find {source : List τ} {s t : τ} (h : source.find? (fun s => m.hits s t) = some s) :
    m.updated source t = m.whenMatched s t := by
  unfold MergeInto.updated
  rw [h]

theorem MergeInto.updated_of_find_none {source : List τ} {t : τ} (h : source.find? (fun s => m.hits s t) = none) :
    m.updated source t = t := by
  unfold MergeInto.updated
  rw [h]

theorem MergeInto.updated_key (hm : ∀ s t, key (m.whenMatched s t) = key t) (source : List τ) (t : τ) :
    key (m.updated source t) = key t := by
  rcases m.updated_cases source t with ⟨s, -, -, he⟩ | ⟨-, he⟩
  · rw [he, hm]
  · rw [he]

/-- **A key of the source is a key of the table.** -/
theorem MergeInto.Keyed.covers_merged [DecidableEq κ] (hk : m.Keyed key full)
    (hm : ∀ s t, key (m.whenMatched s t) = key t) {source target : List τ} {s : τ} (hs : s ∈ source) :
    ∃ r ∈ m.merged source target, key r = key s := by
  obtain ⟨r, hr, hkey⟩ : ∃ r ∈ target ++ m.inserted source target, key r = key s := hk.covers_inserted hs
  rcases List.mem_append.1 hr with hr | hr
  · refine ⟨m.updated source r, List.mem_append_left _ (List.mem_map_of_mem hr), ?_⟩
    rw [MergeInto.updated_key hm, hkey]
  · exact ⟨r, List.mem_append_right _ hr, hkey⟩

/-! ## Columns the statement does not read -/

theorem MergeInto.run_map {f : τ → τ} (hon : ∀ s t, m.on (f s) (f t) = m.on s t)
    (hm : ∀ s t, m.whenMatched (f s) (f t) = f (m.whenMatched s t)) (source target : List τ) :
    m.run (source.map f) (target.map f) = (m.run source target).map (List.map f) := by
  have hhits : ∀ s t, m.hits (f s) (f t) = m.hits s t := fun s t => by
    unfold MergeInto.hits
    rw [hon]
  have hcount : ∀ t, (source.map f).countP (fun s => m.hits s (f t)) = source.countP (fun s => m.hits s t) := fun t => by
    rw [List.countP_map]
    refine List.countP_congr (fun s _ => ?_)
    simp [hhits]
  have hupdated : ∀ t, m.updated (source.map f) (f t) = f (m.updated source t) := fun t => by
    have hfind : (source.map f).find? (fun s => m.hits s (f t)) = (source.find? (fun s => m.hits s t)).map f := by
      rw [List.find?_map]
      congr 2
      funext s
      exact hhits s t
    unfold MergeInto.updated
    rw [hfind]
    cases source.find? (fun s => m.hits s t) with
    | none => rfl
    | some s => exact hm s t
  have hinserted : m.inserted (source.map f) (target.map f) = (m.inserted source target).map f := by
    unfold MergeInto.inserted
    rw [List.filter_map]
    congr 1
    refine List.filter_congr (fun s _ => ?_)
    simp only [Function.comp_apply, List.any_map]
    congr 2
    funext t
    exact hhits s t
  unfold MergeInto.run
  have hany : (target.map f).any (fun t => decide (2 ≤ (source.map f).countP (fun s => m.hits s t))) =
      target.any (fun t => decide (2 ≤ source.countP (fun s => m.hits s t))) := by
    rw [List.any_map]
    congr 1
    funext t
    simp only [Function.comp_apply, hcount]
  rw [hany]
  split
  · rfl
  · rw [hinserted, List.map_map]
    simp only [Except.map, List.map_append, List.map_map]
    congr 2
    refine List.map_congr_left (fun t _ => ?_)
    exact hupdated t

/-! ## When a source is rejected -/

/-- Some target row is matched by two source rows, which fails the statement. -/
def MergeInto.MatchesTwice (m : MergeInto τ) (source target : List τ) : Prop :=
  ∃ t ∈ target, 2 ≤ source.countP (fun s => m.hits s t)

theorem MergeInto.run_eq_merged {source target : List τ} (h : ¬ m.MatchesTwice source target) :
    m.run source target = .ok (m.merged source target) := by
  unfold MergeInto.run
  refine if_neg ?_
  rw [List.any_eq_true]
  rintro ⟨t, ht, hcount⟩
  exact h ⟨t, ht, of_decide_eq_true hcount⟩

theorem MergeInto.run_eq_error {source target : List τ} (h : m.MatchesTwice source target) :
    m.run source target = .error .mergeTargetRowMultipleMatches := by
  obtain ⟨t, ht, hcount⟩ := h
  exact if_pos (List.any_eq_true.2 ⟨t, ht, decide_eq_true hcount⟩)

/-- **A source of distinct rows fails exactly when** two of them match one target row. -/
theorem MergeInto.matchesTwice_iff {source target : List τ} (hs : source.Nodup) :
    m.MatchesTwice source target ↔
      ∃ a ∈ source, ∃ b ∈ source, a ≠ b ∧ ∃ t ∈ target, m.hits a t = true ∧ m.hits b t = true := by
  constructor
  · rintro ⟨t, ht, hcount⟩
    have hnodup : (source.filter (fun s => m.hits s t)).Nodup := List.filter_sublist.nodup hs
    rw [List.countP_eq_length_filter] at hcount
    generalize hmatching : source.filter (fun s => m.hits s t) = matching at hcount hnodup
    match matching, hcount, hnodup with
    | a :: b :: rest, _, hnodup =>
      have ha : a ∈ source.filter (fun s => m.hits s t) := by simp [hmatching]
      have hb : b ∈ source.filter (fun s => m.hits s t) := by simp [hmatching]
      have hne : a ≠ b := List.rel_of_pairwise_cons hnodup List.mem_cons_self
      exact ⟨a, (List.mem_filter.1 ha).1, b, (List.mem_filter.1 hb).1, hne, t, ht, (List.mem_filter.1 ha).2,
        (List.mem_filter.1 hb).2⟩
  · rintro ⟨a, ha, b, hb, hne, t, ht, hhit, hhit'⟩
    refine ⟨t, ht, ?_⟩
    have hpair : [a, b].Nodup := by simp [hne]
    have hsub : [a, b] ⊆ source.filter (fun s => m.hits s t) := by
      intro x hx
      rcases List.mem_cons.1 hx with rfl | hx
      · exact List.mem_filter.2 ⟨ha, hhit⟩
      · rw [List.mem_singleton.1 hx]
        exact List.mem_filter.2 ⟨hb, hhit'⟩
    rw [List.countP_eq_length_filter]
    exact (List.subperm_of_subset hpair hsub).length_le

/-- **A source that matches nothing is appended.** -/
theorem MergeInto.run_eq_append {source target : List τ} (h : ∀ s ∈ source, ∀ t ∈ target, m.hits s t = false) :
    m.run source target = .ok (target ++ source) := by
  have htwice : ¬ m.MatchesTwice source target := by
    rintro ⟨t, ht, hcount⟩
    obtain ⟨s, hs, hhit⟩ := List.countP_pos_iff.1 (Nat.lt_of_lt_of_le Nat.zero_lt_two hcount)
    rw [h s hs t ht] at hhit
    cases hhit
  have hupdated : target.map (m.updated source) = target := by
    refine (List.map_congr_left (fun t ht => ?_)).trans (List.map_id' _)
    rcases m.updated_cases source t with ⟨s, hs, hhit, -⟩ | ⟨-, he⟩
    · rw [h s hs t ht] at hhit
      cases hhit
    · exact he
  have hinserted : m.inserted source target = source :=
    List.filter_eq_self.2 (fun s hs => by simpa using h s hs)
  rw [MergeInto.run_eq_merged htwice]
  unfold MergeInto.merged
  rw [hupdated, hinserted]

/-- **Two source rows of one full key either match a target row twice or are both inserted.** -/
theorem MergeInto.Keyed.unique_of_merged (hk : m.Keyed key full) {source target : List τ}
    (hm : ¬ m.MatchesTwice source target) (hu : UniqueKeys key full (m.merged source target)) :
    UniqueKeys key full source := by
  refine List.pairwise_iff_forall_sublist.2 (fun {a b} hsub hkey => ?_)
  cases hf : full (key a) with
  | false => rfl
  | true =>
    have hsame : ∀ t, m.hits a t = m.hits b t := fun t => by rw [Bool.eq_iff_iff, hk, hk, hkey]
    by_cases hany : target.any (m.hits a) = true
    · obtain ⟨t, ht, hhit⟩ := List.any_eq_true.1 hany
      refine absurd ⟨t, ht, ?_⟩ hm
      have hcount := List.Sublist.countP_le (p := fun s => m.hits s t) hsub
      simp only [List.countP_cons, List.countP_nil, ← hsame t, hhit] at hcount
      exact hcount
    · have hnone : target.any (m.hits a) = false := by simpa using hany
      have hnone' : target.any (m.hits b) = false := by
        rw [← hnone]
        congr 1
        funext t
        exact (hsame t).symm
      have hins : [a, b].Sublist (m.inserted source target) := by
        have hfilter := hsub.filter (fun s => !target.any (m.hits s))
        unfold MergeInto.inserted
        simpa [hnone, hnone'] using hfilter
      have hnot := (List.pairwise_iff_forall_sublist.1 hu) (hins.trans (List.sublist_append_right _ _)) hkey
      rw [hf] at hnot
      cases hnot

/-! ## Two merges in either order -/

/-- **A target that another merge has written first**: the rows that one inserted are matched too. -/
theorem MergeInto.inserted_append {target others : List τ} {f : τ → τ} (hf : ∀ s t, m.hits s (f t) = m.hits s t)
    (source : List τ) :
    m.inserted source (target.map f ++ others) = (m.inserted source target).filter (fun s => !others.any (m.hits s)) := by
  unfold MergeInto.inserted
  rw [List.filter_filter]
  refine List.filter_congr (fun s _ => ?_)
  have hany : (target.map f).any (m.hits s) = target.any (m.hits s) := by
    rw [List.any_map]
    congr 1
    funext t
    exact hf s t
  rw [List.any_append, hany, Bool.not_or, Bool.and_comm]

/-- An overwriting merge `m` beside a merge `m'` that leaves alone what `m` has written. -/
structure MergeInto.Overrides (m m' : MergeInto τ) (key : τ → κ) (source : List τ) : Prop where
  keyed : ∀ s t, key (m.whenMatched s t) = key t
  keyed' : ∀ s t, key (m'.whenMatched s t) = key t
  overwrites : ∀ s s' t, m.whenMatched s (m'.whenMatched s' t) = m.whenMatched s t
  leaves : ∀ s ∈ source, ∀ s' t, m'.whenMatched s' (m.whenMatched s t) = m.whenMatched s t
  /-- Over a row of its own key the overwriting row is written whole. -/
  replaces : ∀ s t, key s = key t → m.whenMatched s t = s

theorem MergeInto.Overrides.leaves_row {source source' : List τ} (ho : m.Overrides m' key source) {s : τ}
    (hs : s ∈ source) : m'.updated source' s = s := by
  rcases m'.updated_cases source' s with ⟨s', -, -, he⟩ | ⟨-, he⟩
  · rw [he]
    have hself : m.whenMatched s s = s := ho.replaces s s rfl
    calc m'.whenMatched s' s = m'.whenMatched s' (m.whenMatched s s) := by rw [hself]
      _ = m.whenMatched s s := ho.leaves s hs s' s
      _ = s := hself
  · exact he

/-- **On a row of the target the two updates commute.** -/
theorem MergeInto.Overrides.updated_comm {source source' : List τ} (ho : m.Overrides m' key source)
    (hk : m.Keyed key full) (t : τ) :
    m'.updated source' (m.updated source t) = m.updated source (m'.updated source' t) := by
  have hsame : source.find? (fun s => m.hits s (m'.updated source' t)) = source.find? (fun s => m.hits s t) := by
    congr 1
    funext s
    rw [Bool.eq_iff_iff, hk, hk, MergeInto.updated_key ho.keyed']
  cases hfind : source.find? (fun s => m.hits s t) with
  | none => rw [MergeInto.updated_of_find_none hfind, MergeInto.updated_of_find_none (hsame.trans hfind)]
  | some s =>
    have hs : s ∈ source := List.mem_of_find?_eq_some hfind
    have hlast : m'.updated source' (m.whenMatched s t) = m.whenMatched s t := by
      rcases m'.updated_cases source' (m.whenMatched s t) with ⟨s', -, -, he⟩ | ⟨-, he⟩
      · rw [he, ho.leaves s hs]
      · exact he
    have hfirst : m.whenMatched s (m'.updated source' t) = m.whenMatched s t := by
      rcases m'.updated_cases source' t with ⟨s', -, -, he⟩ | ⟨-, he⟩
      · rw [he, ho.overwrites]
      · rw [he]
    rw [MergeInto.updated_of_find hfind, MergeInto.updated_of_find (hsame.trans hfind), hlast, hfirst]

theorem MergeInto.Keyed.hits_symm (hk : m.Keyed key full) (hk' : m'.Keyed key full) {s t : τ} :
    m.hits s t = true ↔ m'.hits t s = true := by
  rw [hk, hk']
  constructor
  · rintro ⟨hkey, hf⟩
    exact ⟨hkey.symm, by rw [hkey]; exact hf⟩
  · rintro ⟨hkey, hf⟩
    exact ⟨hkey.symm, by rw [hkey]; exact hf⟩

theorem UniqueKeys.nodup_full {rows : List τ} (hu : UniqueKeys key full rows) (hf : ∀ r ∈ rows, full (key r) = true) :
    (rows.map key).Nodup := by
  refine List.pairwise_map.2 (hu.imp_of_mem (fun {a _} ha _ hne hkey => ?_))
  have hnot := hne hkey
  rw [hf a ha] at hnot
  cases hnot

/-- Rows that match something have full keys, so unique ones are distinct. -/
theorem MergeInto.Keyed.nodup_matching (hk : m.Keyed key full) {rows others : List τ} (hu : UniqueKeys key full rows) :
    ((rows.filter (fun r => others.any (m.hits r))).map key).Nodup := by
  refine UniqueKeys.nodup_full (hu.filter _) (fun r hr => ?_)
  obtain ⟨q, -, hq⟩ := List.any_eq_true.1 (List.mem_filter.1 hr).2
  obtain ⟨hkey, hf⟩ := (hk r q).1 hq
  rw [hkey]
  exact hf

variable [DecidableEq κ]

theorem UniqueKeys.eq_of_key {rows : List τ} (hu : UniqueKeys key full rows) {r r' : τ} (hr : r ∈ rows) (hr' : r' ∈ rows)
    (hk : key r = key r') (hf : full (key r) = true) : r = r' := by
  have hrow := rowOf_eq_of_mem hu hr hf
  have hrow' := rowOf_eq_of_mem hu hr' (by rw [← hk]; exact hf)
  rw [hk, hrow'] at hrow
  exact (Option.some.inj hrow).symm

/-- **Unique keys are kept** by a merge whose update keeps the key. -/
theorem MergeInto.Keyed.uniqueKeys_of_unique (hk : m.Keyed key full) (hm : ∀ s t, key (m.whenMatched s t) = key t)
    {source target : List τ} (hs : UniqueKeys key full source) (ht : UniqueKeys key full target) :
    UniqueKeys key full (m.merged source target) := by
  refine List.pairwise_append.2 ⟨?_, hs.filter _, ?_⟩
  · refine List.pairwise_map.2 (ht.imp (fun hne hkey => ?_))
    rw [MergeInto.updated_key hm, MergeInto.updated_key hm] at hkey
    rw [MergeInto.updated_key hm]
    exact hne hkey
  · intro t' ht' s hins hkey
    obtain ⟨t, ht, rfl⟩ := List.mem_map.1 ht'
    rw [MergeInto.updated_key hm] at hkey ⊢
    obtain ⟨-, habs⟩ := hk.inserted_iff.1 hins
    cases hf : full (key t) with
    | false => rfl
    | true =>
      have hnone := habs (by rw [← hkey]; exact hf)
      rw [rowOf_isSome.2 ⟨t, ht, hkey⟩] at hnone
      cases hnone

/-- **The statement goes through and keeps the table's keys unique exactly when** its source's keys are. -/
theorem MergeInto.Keyed.unique_iff (hk : m.Keyed key full) (hm : ∀ s t, key (m.whenMatched s t) = key t)
    {source target : List τ} (ht : UniqueKeys key full target) :
    (¬ m.MatchesTwice source target ∧ UniqueKeys key full (m.merged source target)) ↔ UniqueKeys key full source := by
  constructor
  · rintro ⟨htwice, hu⟩
    exact hk.unique_of_merged htwice hu
  · intro hs
    refine ⟨?_, hk.uniqueKeys_of_unique hm hs ht⟩
    rintro ⟨t, hmem, hcount⟩
    have hrun := hk.run_eq_of_unique hs target
    unfold MergeInto.run at hrun
    rw [if_pos (List.any_eq_true.2 ⟨t, hmem, decide_eq_true hcount⟩)] at hrun
    cases hrun

/-- **The rows after an update that writes its source row whole**: the source, and the target rows of other keys. -/
theorem MergeInto.Keyed.mem_merged_iff (hk : m.Keyed key full) (hfull : ∀ k, full k = true)
    (hm : ∀ s t, key s = key t → m.whenMatched s t = s) {source target : List τ} (hs : UniqueKeys key full source)
    {r : τ} : r ∈ m.merged source target ↔ r ∈ source ∨ r ∈ target ∧ ∀ s ∈ source, key s ≠ key r := by
  have hhits : ∀ s t, m.hits s t = true ↔ key s = key t := fun s t => by simp [hk s t, hfull]
  unfold MergeInto.merged
  rw [List.mem_append, List.mem_map]
  constructor
  · rintro (⟨t, ht, rfl⟩ | hins)
    · rcases m.updated_cases source t with ⟨s, hmem, hhit, he⟩ | ⟨hno, he⟩
      · rw [he, hm s t ((hhits s t).1 hhit)]
        exact Or.inl hmem
      · rw [he]
        refine Or.inr ⟨ht, fun s hmem hkey => ?_⟩
        have hmiss := hno s hmem
        rw [(hhits s t).2 hkey] at hmiss
        cases hmiss
    · exact Or.inl (MergeInto.mem_inserted.1 hins).1
  · rintro (hmem | ⟨ht, hno⟩)
    · by_cases hany : ∃ t ∈ target, key r = key t
      · obtain ⟨t, ht, hkey⟩ := hany
        refine Or.inl ⟨t, ht, ?_⟩
        rcases m.updated_cases source t with ⟨s, hmem', hhit, he⟩ | ⟨hmiss, -⟩
        · have hkey' := (hhits s t).1 hhit
          rw [he, hm s t hkey']
          exact hs.eq_of_key hmem' hmem (hkey'.trans hkey.symm) (hfull _)
        · have hnot := hmiss r hmem
          rw [(hhits r t).2 hkey] at hnot
          cases hnot
      · refine Or.inr (MergeInto.mem_inserted.2 ⟨hmem, fun t ht => ?_⟩)
        rw [← Bool.not_eq_true, hhits]
        exact fun hkey => hany ⟨t, ht, hkey⟩
    · refine Or.inl ⟨r, ht, ?_⟩
      rcases m.updated_cases source r with ⟨s, hmem, hhit, -⟩ | ⟨-, he⟩
      · exact absurd ((hhits s r).1 hhit) (hno s hmem)
      · exact he

/-- **A row the other merge inserts** becomes the row this one inserts at its key, or stays where this one has none. -/
theorem MergeInto.Overrides.updated_inserted {source source' target : List τ} (ho : m.Overrides m' key source)
    (hk : m.Keyed key full) (hk' : m'.Keyed key full) {s' : τ} (hins : s' ∈ m'.inserted source' target) :
    (∃ s ∈ m.inserted source target, m.hits s s' = true ∧ m.updated source s' = s) ∨
      ((m.inserted source target).any (m'.hits s') = false ∧ m.updated source s' = s') := by
  rcases m.updated_cases source s' with ⟨s, hmem, hhit, he⟩ | ⟨hno, he⟩
  · obtain ⟨hkey, hf⟩ := (hk s s').1 hhit
    have habsent : full (key s) = true → (rowOf key (key s) target).isSome = false := fun _ => by
      rw [hkey]
      exact (hk'.inserted_iff.1 hins).2 hf
    refine Or.inl ⟨s, hk.inserted_iff.2 ⟨hmem, habsent⟩, hhit, ?_⟩
    rw [he, ho.replaces s s' hkey]
  · refine Or.inr ⟨?_, he⟩
    rw [List.any_eq_false]
    intro s hsin hhit
    have hmiss := hno s (MergeInto.mem_inserted.1 hsin).1
    rw [(hk.hits_symm hk').2 hhit] at hmiss
    cases hmiss

/-- **The keys both merges insert**: once the overwriting one has run over them, its own rows. -/
theorem MergeInto.Overrides.matching_perm {source source' target : List τ} (ho : m.Overrides m' key source)
    (hk : m.Keyed key full) (hk' : m'.Keyed key full) (hs : UniqueKeys key full source)
    (hs' : UniqueKeys key full source') :
    (((m'.inserted source' target).filter (fun s' => (m.inserted source target).any (m'.hits s'))).map
        (m.updated source)).Perm
      ((m.inserted source target).filter (fun s => (m'.inserted source' target).any (m.hits s))) := by
  have hu : UniqueKeys key full (m.inserted source target) := hs.filter _
  have hu' : UniqueKeys key full (m'.inserted source' target) := hs'.filter _
  have hnodup : ((m.inserted source target).filter (fun s => (m'.inserted source' target).any (m.hits s))).Nodup :=
    List.Nodup.of_map key (hk.nodup_matching hu)
  have hnodup' : (((m'.inserted source' target).filter (fun s' => (m.inserted source target).any (m'.hits s'))).map
      (m.updated source)).Nodup := by
    refine List.Nodup.of_map key ?_
    rw [List.map_map, show key ∘ m.updated source = key from funext (MergeInto.updated_key ho.keyed source)]
    exact hk'.nodup_matching hu'
  refine (List.perm_ext_iff_of_nodup hnodup' hnodup).2 (fun r => ?_)
  rw [List.mem_map, List.mem_filter]
  constructor
  · rintro ⟨s', hmem, rfl⟩
    obtain ⟨hin, hany⟩ := List.mem_filter.1 hmem
    rcases ho.updated_inserted hk hk' hin with ⟨s, hsin, hhit, he⟩ | ⟨hnone, -⟩
    · rw [he]
      exact ⟨hsin, List.any_eq_true.2 ⟨s', hin, hhit⟩⟩
    · rw [hnone] at hany
      cases hany
  · rintro ⟨hr, hany⟩
    obtain ⟨s', hin, hhit⟩ := List.any_eq_true.1 hany
    have hfound : (m.inserted source target).any (m'.hits s') = true :=
      List.any_eq_true.2 ⟨r, hr, (hk.hits_symm hk').1 hhit⟩
    refine ⟨s', List.mem_filter.2 ⟨hin, hfound⟩, ?_⟩
    rcases ho.updated_inserted hk hk' hin with ⟨s, hsin, hhit', he⟩ | ⟨hnone, -⟩
    · obtain ⟨hkey, -⟩ := (hk r s').1 hhit
      obtain ⟨hkey', hf'⟩ := (hk s s').1 hhit'
      rw [he]
      exact hu.eq_of_key hsin hr (hkey'.trans hkey.symm) (by rw [hkey']; exact hf')
    · rw [hnone] at hfound
      cases hfound

/-- **The rows only one merge inserts, and those both would**: the overwriting one's rows either way. -/
theorem MergeInto.Overrides.inserted_perm {source source' target : List τ} (ho : m.Overrides m' key source)
    (hk : m.Keyed key full) (hk' : m'.Keyed key full) (hs : UniqueKeys key full source)
    (hs' : UniqueKeys key full source') :
    (m.inserted source target ++ (m'.inserted source' target).filter
        (fun s' => !(m.inserted source target).any (m'.hits s'))).Perm
      ((m'.inserted source' target).map (m.updated source) ++ (m.inserted source target).filter
        (fun s => !(m'.inserted source' target).any (m.hits s))) := by
  have hboth : (((m'.inserted source' target).filter (fun s' => (m.inserted source target).any (m'.hits s'))).map
      (m.updated source)).Perm _ := ho.matching_perm hk hk' hs hs'
  have hrest : ∀ s' ∈ (m'.inserted source' target).filter (fun s' => !(m.inserted source target).any (m'.hits s')),
      m.updated source s' = s' := by
    intro s' hmem
    obtain ⟨hin, hany⟩ := List.mem_filter.1 hmem
    rcases ho.updated_inserted hk hk' hin with ⟨s, hsin, hhit, -⟩ | ⟨-, he⟩
    · have hfound : (m.inserted source target).any (m'.hits s') = true :=
        List.any_eq_true.2 ⟨s, hsin, (hk.hits_symm hk').1 hhit⟩
      rw [hfound] at hany
      cases hany
    · exact he
  generalize m.inserted source target = P at hboth hrest ⊢
  generalize m'.inserted source' target = Q at hboth hrest ⊢
  have hsplitP := (List.filter_append_perm (fun s => Q.any (m.hits s)) P).symm
  have hsplitQ : (Q.map (m.updated source)).Perm ((Q.filter (fun s' => P.any (m'.hits s'))).map (m.updated source) ++
      Q.filter (fun s' => !P.any (m'.hits s'))) := by
    have hsame := (List.map_congr_left hrest).trans (List.map_id' _)
    rw [← hsame, ← List.map_append]
    exact (List.filter_append_perm (fun s' => P.any (m'.hits s')) Q).symm.map _
  refine (hsplitP.append_right _).trans ?_
  refine List.Perm.trans ?_ (hsplitQ.append_right _).symm
  rw [List.append_assoc, List.append_assoc]
  refine (hboth.symm.append_right _).trans (List.Perm.append_left _ List.perm_append_comm)

/-- **An overwriting merge commutes with a merge that leaves its rows alone.** -/
theorem MergeInto.Overrides.commute {source source' : List τ} (ho : m.Overrides m' key source) (hk : m.Keyed key full)
    (hk' : m'.Keyed key full) (hs : UniqueKeys key full source) (hs' : UniqueKeys key full source') (target : List τ) :
    (m'.merged source' (m.merged source target)).Perm (m.merged source (m'.merged source' target)) := by
  have hhits : ∀ s t, m.hits s (m'.updated source' t) = m.hits s t := fun s t => by
    rw [Bool.eq_iff_iff, hk, hk, MergeInto.updated_key ho.keyed']
  have hhits' : ∀ s t, m'.hits s (m.updated source t) = m'.hits s t := fun s t => by
    rw [Bool.eq_iff_iff, hk', hk', MergeInto.updated_key ho.keyed]
  have htarget : target.map (m'.updated source' ∘ m.updated source) = target.map (m.updated source ∘ m'.updated source') :=
    List.map_congr_left (fun t _ => ho.updated_comm hk t)
  have hleft : (m.inserted source target).map (m'.updated source') = m.inserted source target :=
    (List.map_congr_left (fun s hins => ho.leaves_row (MergeInto.mem_inserted.1 hins).1)).trans (List.map_id' _)
  unfold MergeInto.merged
  rw [MergeInto.inserted_append hhits', MergeInto.inserted_append hhits, List.map_append, List.map_append, List.map_map,
    List.map_map, List.append_assoc, List.append_assoc, htarget, hleft]
  exact List.Perm.append_left _ (ho.inserted_perm hk hk' hs hs')

/-! ## Two sources for one target -/

/-- **Two insert-only merges of one target end in the same rows exactly when** they insert the same rows. -/
theorem MergeInto.inserted_perm_iff {source source' : List τ} (hs : source.Nodup) (hs' : source'.Nodup)
    (target : List τ) :
    (target ++ m.inserted source target).Perm (target ++ m.inserted source' target) ↔
      ∀ s, s ∈ m.inserted source target ↔ s ∈ m.inserted source' target :=
  (List.perm_append_left_iff target).trans
    (List.perm_ext_iff_of_nodup (List.filter_sublist.nodup hs) (List.filter_sublist.nodup hs'))

/-- A row of a larger source whose key the smaller one lacks is not matched there. -/
theorem MergeInto.Keyed.updated_of_not_mem (hk : m.Keyed key full) {source source' : List τ}
    (hs : UniqueKeys key full source) (hsub : source' ⊆ source) {s t : τ} (hmem : s ∈ source) (hout : s ∉ source')
    (hf : full (key s) = true) (hkey : key t = key s) : m.updated source' t = t := by
  rcases m.updated_cases source' t with ⟨s', hs', hhit, -⟩ | ⟨-, he⟩
  · have hkey' : key s = key s' := hkey.symm.trans ((hk s' t).1 hhit).1.symm
    have hsame : s = s' := hs.eq_of_key hmem (hsub hs') hkey' hf
    rw [hsame] at hout
    exact absurd hs' hout
  · exact he

/-- **After an update that writes its source row whole**, the row at a key of the source is the source's. -/
theorem MergeInto.Keyed.eq_of_mem_merged (hk : m.Keyed key full) (hkeeps : ∀ s t, key (m.whenMatched s t) = key t)
    (hm : ∀ s t, key s = key t → m.whenMatched s t = s) {source target : List τ} (hs : UniqueKeys key full source)
    {s r : τ} (hmem : s ∈ source) (hf : full (key s) = true) (hr : r ∈ m.merged source target) (hkey : key r = key s) :
    r = s := by
  rcases List.mem_append.1 hr with hr | hr
  · obtain ⟨t, -, rfl⟩ := List.mem_map.1 hr
    rw [MergeInto.updated_key hkeeps] at hkey
    rcases m.updated_cases source t with ⟨s', hs', hhits, he⟩ | ⟨hno, -⟩
    · have hkey' := ((hk s' t).1 hhits).1
      rw [he, hm s' t hkey']
      exact (hs.eq_of_key hmem hs' (hkey'.trans hkey).symm hf).symm
    · have hmiss := hno s hmem
      rw [(hk s t).2 ⟨hkey.symm, by rw [hkey]; exact hf⟩] at hmiss
      cases hmiss
  · exact (hs.eq_of_key hmem (MergeInto.mem_inserted.1 hr).1 hkey.symm hf).symm

section LargerSource

variable {β : Type} {f : τ → β} {source source' target : List τ}

/-- **Where a larger source leaves the same rows**, each row it adds is over rows of its key that agree with it. -/
theorem MergeInto.Keyed.agree_of_perm (hk : m.Keyed key full) (hkeeps : ∀ s t, key (m.whenMatched s t) = key t)
    (hm : ∀ s t, key s = key t → m.whenMatched s t = s) (hf : ∀ x y, f x = f y → key x = key y)
    (hs : UniqueKeys key full source) (hsub : source' ⊆ source) {s : τ} (hmem : s ∈ source) (hout : s ∉ source')
    (hfull : full (key s) = true) (hperm : ((m.merged source target).map f).Perm ((m.merged source' target).map f)) :
    (∃ t ∈ target, key t = key s) ∧ ∀ t ∈ target, key t = key s → f t = f s := by
  constructor
  · obtain ⟨r, hr, hkey⟩ : ∃ r ∈ m.merged source target, key r = key s := hk.covers_merged hkeeps hmem
    obtain ⟨r', hr', hfr⟩ := List.mem_map.1 (hperm.mem_iff.1 (List.mem_map_of_mem hr))
    have hkey' : key r' = key s := (hf r' r hfr).trans hkey
    rcases List.mem_append.1 hr' with hr' | hr'
    · obtain ⟨t, ht, rfl⟩ := List.mem_map.1 hr'
      rw [MergeInto.updated_key hkeeps] at hkey'
      exact ⟨t, ht, hkey'⟩
    · have hin := (MergeInto.mem_inserted.1 hr').1
      have hsame : s = r' := hs.eq_of_key hmem (hsub hin) hkey'.symm hfull
      rw [hsame] at hout
      exact absurd hin hout
  · intro t ht hkey
    have hkept : t ∈ m.merged source' target := by
      refine List.mem_append_left _ (List.mem_map.2 ⟨t, ht, ?_⟩)
      exact hk.updated_of_not_mem hs hsub hmem hout hfull hkey
    obtain ⟨r, hr, hfr⟩ := List.mem_map.1 (hperm.mem_iff.2 (List.mem_map_of_mem hkept))
    have hrs : r = s := hk.eq_of_mem_merged hkeeps hm hs hmem hfull hr ((hf r t hfr).trans hkey)
    rw [← hfr, hrs]

/-- Over a row of the target, a source row it agrees with is as good as none. -/
theorem MergeInto.Keyed.updated_agree (hk : m.Keyed key full) (hm : ∀ s t, key s = key t → m.whenMatched s t = s)
    (hs : UniqueKeys key full source) (hsub : source' ⊆ source) {t : τ}
    (hagree : ∀ s ∈ source, s ∉ source' → key t = key s → f t = f s) :
    f (m.updated source t) = f (m.updated source' t) := by
  rcases m.updated_cases source t with ⟨s, hmem, hhit, he⟩ | ⟨hno, he⟩
  · obtain ⟨hkey, hfull⟩ := (hk s t).1 hhit
    have hfull' : full (key s) = true := by
      rw [hkey]
      exact hfull
    rw [he, hm s t hkey]
    by_cases hin : s ∈ source'
    · rcases m.updated_cases source' t with ⟨s', hs', hhit', he'⟩ | ⟨hno', -⟩
      · have hkey' := ((hk s' t).1 hhit').1
        have hsame : s = s' := hs.eq_of_key hmem (hsub hs') (hkey.trans hkey'.symm) hfull'
        rw [he', hm s' t hkey', hsame]
      · have hmiss := hno' s hin
        rw [hhit] at hmiss
        cases hmiss
    · rw [hk.updated_of_not_mem hs hsub hmem hin hfull' hkey.symm]
      exact (hagree s hmem hin hkey.symm).symm
  · rcases m.updated_cases source' t with ⟨s', hs', hhit', -⟩ | ⟨-, he'⟩
    · have hmiss := hno s' (hsub hs')
      rw [hhit'] at hmiss
      cases hmiss
    · rw [he, he']

/-- **A larger source ends in the same rows, as far as `f` reads them, exactly when** each row it adds is over rows of
its key that agree with it, and over one at least. -/
theorem MergeInto.Keyed.merged_map_perm_iff (hk : m.Keyed key full) (hkeeps : ∀ s t, key (m.whenMatched s t) = key t)
    (hm : ∀ s t, key s = key t → m.whenMatched s t = s) (hf : ∀ x y, f x = f y → key x = key y)
    (hs : UniqueKeys key full source) (hs' : UniqueKeys key full source') (hsub : source' ⊆ source)
    (hfull : ∀ s ∈ source, full (key s) = true) :
    ((m.merged source target).map f).Perm ((m.merged source' target).map f) ↔
      ∀ s ∈ source, s ∉ source' → (∃ t ∈ target, key t = key s) ∧ ∀ t ∈ target, key t = key s → f t = f s := by
  constructor
  · intro hperm s hmem hout
    exact hk.agree_of_perm hkeeps hm hf hs hsub hmem hout (hfull s hmem) hperm
  · intro h
    have htarget : target.map (f ∘ m.updated source) = target.map (f ∘ m.updated source') :=
      List.map_congr_left (fun t ht => hk.updated_agree hm hs hsub (fun s hmem hout => (h s hmem hout).2 t ht))
    have hnodup : source.Nodup := List.Nodup.of_map key (hs.nodup_full hfull)
    have hnodup' : source'.Nodup := List.Nodup.of_map key (hs'.nodup_full (fun s hmem => hfull s (hsub hmem)))
    have hinserted : (m.inserted source target).Perm (m.inserted source' target) := by
      refine (List.perm_ext_iff_of_nodup (hnodup.filter _) (hnodup'.filter _)).2 (fun s => ?_)
      show s ∈ m.inserted source target ↔ s ∈ m.inserted source' target
      rw [MergeInto.mem_inserted, MergeInto.mem_inserted]
      refine and_congr_left (fun hno => ⟨fun hmem => ?_, fun hmem => hsub hmem⟩)
      by_cases hin : s ∈ source'
      · exact hin
      · obtain ⟨t, ht, hkey⟩ := (h s hmem hin).1
        have hmiss := hno t ht
        rw [(hk s t).2 ⟨hkey.symm, by rw [hkey]; exact hfull s hmem⟩] at hmiss
        cases hmiss
    unfold MergeInto.merged
    rw [List.map_append, List.map_append, List.map_map, List.map_map, htarget]
    exact (hinserted.map f).append_left _

end LargerSource
end Sql
