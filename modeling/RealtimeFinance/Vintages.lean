import Mathlib.Data.List.Induction
/-!
# Vintages — a revised series, kept as the first sighting of each value

A pull reports, on its vintage, the value of each key as it then stands.  A store that keeps a value only when it is new
for its key, stamped with the vintage that first showed it, is read as of a date by the greatest stamp that is not after
it.  That is the value last reported as long as no value comes back once another has followed it
(`pointInTime_iff`).
-/
namespace Vintages

variable {κ ν : Type}

structure Pull (κ ν : Type) where
  vintage : Int
  reports : κ → Option ν

def Increasing (pulls : List (Pull κ ν)) : Prop := pulls.Pairwise (fun p q => p.vintage < q.vintage)

def Reported (pulls : List (Pull κ ν)) (k : κ) (v : ν) : Prop := ∃ p ∈ pulls, p.reports k = some v

/-- What the store keeps: `v` of `k`, stamped `d`. -/
def FirstSeen (pulls : List (Pull κ ν)) (k : κ) (v : ν) (d : Int) : Prop :=
  (∃ p ∈ pulls, p.vintage = d ∧ p.reports k = some v) ∧ ∀ p ∈ pulls, p.reports k = some v → d ≤ p.vintage

/-- The store's value with the greatest stamp up to `asOf`. -/
def InForce (pulls : List (Pull κ ν)) (k : κ) (asOf : Int) (v : ν) : Prop :=
  ∃ d, FirstSeen pulls k v d ∧ d ≤ asOf ∧ ∀ w e, FirstSeen pulls k w e → e ≤ asOf → e ≤ d

def Latest (pulls : List (Pull κ ν)) (asOf : Int) (p : Pull κ ν) : Prop :=
  p ∈ pulls ∧ p.vintage ≤ asOf ∧ ∀ q ∈ pulls, q.vintage ≤ asOf → q.vintage ≤ p.vintage

/-- **As of any date the store has the value that the latest pull reported.** -/
def PointInTime (pulls : List (Pull κ ν)) : Prop :=
  ∀ k asOf p v, Latest pulls asOf p → p.reports k = some v → ∀ w, InForce pulls k asOf w ↔ w = v

def lastReported (pulls : List (Pull κ ν)) (k : κ) : Option ν := pulls.reverse.findSome? (fun p => p.reports k)

/-- **A value that is reported again is the one reported last.** -/
def NeverRevisedBack (pulls : List (Pull κ ν)) : Prop :=
  ∀ pre p post, pulls = pre ++ p :: post → ∀ k v, p.reports k = some v → Reported pre k v → lastReported pre k = some v

/-- The store's value with the greatest stamp of all. -/
def Newest (pulls : List (Pull κ ν)) (k : κ) (v : ν) : Prop :=
  ∃ d, FirstSeen pulls k v d ∧ ∀ w e, FirstSeen pulls k w e → e ≤ d

variable {pulls pre post : List (Pull κ ν)} {p : Pull κ ν} {k : κ} {v w : ν} {d : Int}

theorem FirstSeen.reported (h : FirstSeen pulls k v d) : Reported pulls k v := by
  obtain ⟨⟨p, hp, -, hv⟩, -⟩ := h
  exact ⟨p, hp, hv⟩

/-- A value has one first sighting. -/
theorem FirstSeen.stamp_unique {e : Int} (h : FirstSeen pulls k v d) (h' : FirstSeen pulls k v e) : d = e := by
  obtain ⟨⟨p, hp, rfl, hv⟩, hmin⟩ := h
  obtain ⟨⟨q, hq, rfl, hw⟩, hmin'⟩ := h'
  exact Int.le_antisymm (hmin q hq hw) (hmin' p hp hv)

/-- A vintage shows one value of a key. -/
theorem FirstSeen.value_unique (hinc : Increasing pulls) (h : FirstSeen pulls k v d) (h' : FirstSeen pulls k w d) :
    v = w := by
  obtain ⟨⟨p, hp, rfl, hv⟩, -⟩ := h
  obtain ⟨⟨q, hq, hvintage, hw⟩, -⟩ := h'
  have hpq : q = p := by
    by_contra hne
    obtain ⟨pre, post, rfl⟩ := List.append_of_mem hp
    rcases List.mem_append.1 hq with hq | hq
    · have := (List.pairwise_append.1 hinc).2.2 q hq p List.mem_cons_self
      omega
    · rcases List.mem_cons.1 hq with hq | hq
      · exact hne hq
      · have := List.rel_of_pairwise_cons (List.pairwise_append.1 hinc).2.1 hq
        omega
  rw [hpq, hv] at hw
  exact Option.some.inj hw

theorem Increasing.before (h : Increasing (pre ++ p :: post)) : ∀ q ∈ pre, q.vintage < p.vintage := by
  intro q hq
  exact (List.pairwise_append.1 h).2.2 q hq p List.mem_cons_self

theorem Increasing.after (h : Increasing (pre ++ p :: post)) : ∀ q ∈ post, p.vintage < q.vintage := by
  intro q hq
  exact List.rel_of_pairwise_cons (List.pairwise_append.1 h).2.1 hq

/-- **Later pulls add the values that are new.** -/
theorem firstSeen_append_iff (h : Increasing (pre ++ post)) :
    FirstSeen (pre ++ post) k v d ↔ FirstSeen pre k v d ∨ FirstSeen post k v d ∧ ¬ Reported pre k v := by
  have hbefore : ∀ q ∈ pre, ∀ r ∈ post, q.vintage < r.vintage := (List.pairwise_append.1 h).2.2
  constructor
  · rintro ⟨⟨q, hq, rfl, hv⟩, hmin⟩
    by_cases hold : Reported pre k v
    · obtain ⟨r, hr, hrv⟩ := hold
      have hle := hmin r (List.mem_append_left _ hr) hrv
      refine Or.inl ⟨⟨q, ?_, rfl, hv⟩, fun s hs => hmin s (List.mem_append_left _ hs)⟩
      rcases List.mem_append.1 hq with hq | hq
      · exact hq
      · have hlt := hbefore r hr q hq
        omega
    · refine Or.inr ⟨⟨⟨q, ?_, rfl, hv⟩, fun s hs => hmin s (List.mem_append_right _ hs)⟩, hold⟩
      rcases List.mem_append.1 hq with hq | hq
      · exact absurd ⟨q, hq, hv⟩ hold
      · exact hq
  · rintro (⟨⟨q, hq, rfl, hv⟩, hmin⟩ | ⟨⟨⟨q, hq, rfl, hv⟩, hmin⟩, hnew⟩)
    · refine ⟨⟨q, List.mem_append_left _ hq, rfl, hv⟩, fun s hs hsv => ?_⟩
      rcases List.mem_append.1 hs with hs | hs
      · exact hmin s hs hsv
      · exact Int.le_of_lt (hbefore q hq s hs)
    · refine ⟨⟨q, List.mem_append_right _ hq, rfl, hv⟩, fun s hs hsv => ?_⟩
      rcases List.mem_append.1 hs with hs | hs
      · exact absurd ⟨s, hs, hsv⟩ hnew
      · exact hmin s hs hsv

theorem firstSeen_singleton : FirstSeen [p] k v d ↔ p.reports k = some v ∧ d = p.vintage := by
  simp only [FirstSeen, List.mem_singleton, exists_eq_left, forall_eq]
  constructor
  · exact fun h => ⟨h.1.2, h.1.1.symm⟩
  · rintro ⟨hv, rfl⟩
    exact ⟨⟨rfl, hv⟩, fun _ => Int.le_refl _⟩

/-- **A pull adds the values that are new**, stamped with its vintage. -/
theorem firstSeen_append (h : Increasing (pre ++ [p])) : FirstSeen (pre ++ [p]) k v d ↔
    FirstSeen pre k v d ∨ p.reports k = some v ∧ ¬ Reported pre k v ∧ d = p.vintage := by
  rw [firstSeen_append_iff h, firstSeen_singleton, and_assoc, and_comm (a := d = p.vintage)]

theorem Increasing.of_append (h : Increasing (pre ++ post)) : Increasing pre := (List.pairwise_append.1 h).1

theorem Increasing.upTo (h : Increasing (pre ++ p :: post)) : Increasing (pre ++ [p]) := by
  rw [← List.singleton_append, ← List.append_assoc] at h
  exact h.of_append

/-- **A value that was reported has a first sighting.** -/
theorem Reported.firstSeen (h : Increasing pulls) (hv : Reported pulls k v) : ∃ d, FirstSeen pulls k v d := by
  induction pulls using List.reverseRecOn with
  | nil =>
    obtain ⟨p, hp, -⟩ := hv
    cases hp
  | append_singleton pre p ih =>
    by_cases hold : Reported pre k v
    · obtain ⟨d, hd⟩ := ih h.of_append hold
      exact ⟨d, (firstSeen_append h).2 (Or.inl hd)⟩
    · obtain ⟨q, hq, hqv⟩ := hv
      rcases List.mem_append.1 hq with hq | hq
      · exact absurd ⟨q, hq, hqv⟩ hold
      · rw [List.mem_singleton.1 hq] at hqv
        exact ⟨p.vintage, (firstSeen_append h).2 (Or.inr ⟨hqv, hold, rfl⟩)⟩

/-- **A pull without news of a key changes nothing of it.** -/
theorem newest_append_old (h : Increasing (pre ++ [p])) (hold : ∀ w, p.reports k = some w → Reported pre k w) :
    Newest (pre ++ [p]) k v ↔ Newest pre k v := by
  have hsame : ∀ w e, FirstSeen (pre ++ [p]) k w e ↔ FirstSeen pre k w e := by
    intro w e
    rw [firstSeen_append h]
    exact or_iff_left (fun hnew => hnew.2.1 (hold w hnew.1))
  unfold Newest
  simp only [hsame]

/-- **A new value is the newest.** -/
theorem newest_append_new (h : Increasing (pre ++ [p])) (hw : p.reports k = some w) (hnew : ¬ Reported pre k w) :
    Newest (pre ++ [p]) k v ↔ v = w := by
  have hfirst : FirstSeen (pre ++ [p]) k w p.vintage := (firstSeen_append h).2 (Or.inr ⟨hw, hnew, rfl⟩)
  have hold : ∀ u e, FirstSeen pre k u e → e < p.vintage := by
    rintro u e ⟨⟨q, hq, rfl, -⟩, -⟩
    exact Increasing.before h q hq
  constructor
  · rintro ⟨d, hd, hmax⟩
    have hle := hmax w p.vintage hfirst
    rcases (firstSeen_append h).1 hd with hd | ⟨hv, -, -⟩
    · have := hold v d hd
      omega
    · rw [hw] at hv
      exact (Option.some.inj hv).symm
  · rintro rfl
    refine ⟨p.vintage, hfirst, fun u e hu => ?_⟩
    rcases (firstSeen_append h).1 hu with hu | ⟨-, -, rfl⟩
    · exact Int.le_of_lt (hold u e hu)
    · exact Int.le_refl _

/-- **What is in force on a date is the newest of the pulls up to it.** -/
theorem inForce_iff_newest (h : Increasing (pre ++ p :: post)) {asOf : Int} (hp : Latest (pre ++ p :: post) asOf p) :
    InForce (pre ++ p :: post) k asOf v ↔ Newest (pre ++ [p]) k v := by
  have hafter : ∀ q ∈ post, asOf < q.vintage := by
    intro q hq
    by_contra hle
    have hlt := Increasing.after h q hq
    have := hp.2.2 q (List.mem_append_right _ (List.mem_cons_of_mem _ hq)) (by omega)
    omega
  have hupto : ∀ q ∈ pre ++ [p], q.vintage ≤ asOf := by
    intro q hq
    rcases List.mem_append.1 hq with hq | hq
    · have := Increasing.before h q hq
      have := hp.2.1
      omega
    · rw [List.mem_singleton.1 hq]
      exact hp.2.1
  have hsplit : ∀ q, q ∈ pre ++ p :: post ↔ q ∈ pre ++ [p] ∨ q ∈ post := by
    intro q
    simp only [List.mem_append, List.mem_cons, List.not_mem_nil, or_false, or_assoc]
  have hfirst : ∀ w e, FirstSeen (pre ++ p :: post) k w e ∧ e ≤ asOf ↔ FirstSeen (pre ++ [p]) k w e := by
    intro w e
    constructor
    · rintro ⟨⟨⟨q, hq, rfl, hw⟩, hmin⟩, hle⟩
      refine ⟨⟨q, ?_, rfl, hw⟩, fun s hs => hmin s ((hsplit s).2 (Or.inl hs))⟩
      rcases (hsplit q).1 hq with hq | hq
      · exact hq
      · have := hafter q hq
        omega
    · rintro ⟨⟨q, hq, rfl, hw⟩, hmin⟩
      refine ⟨⟨⟨q, (hsplit q).2 (Or.inl hq), rfl, hw⟩, fun s hs hsw => ?_⟩, hupto q hq⟩
      rcases (hsplit s).1 hs with hs | hs
      · exact hmin s hs hsw
      · have := hafter s hs
        have := hupto q hq
        omega
  constructor
  · rintro ⟨d, hd, hle, hmax⟩
    exact ⟨d, (hfirst v d).1 ⟨hd, hle⟩, fun w e hw => hmax w e ((hfirst w e).2 hw).1 ((hfirst w e).2 hw).2⟩
  · rintro ⟨d, hd, hmax⟩
    obtain ⟨hd, hle⟩ := (hfirst v d).2 hd
    exact ⟨d, hd, hle, fun w e hw hwe => hmax w e ((hfirst w e).1 ⟨hw, hwe⟩)⟩

theorem lastReported_append (pulls : List (Pull κ ν)) (p : Pull κ ν) (k : κ) :
    lastReported (pulls ++ [p]) k = (p.reports k).or (lastReported pulls k) := by
  unfold lastReported
  rw [List.reverse_append, List.reverse_singleton, List.singleton_append, List.findSome?_cons]
  cases p.reports k <;> rfl

/-! ## Up to each pull -/

/-- The newest value of each key is the one reported last. -/
def Tracks (pulls : List (Pull κ ν)) : Prop := ∀ k v, Newest pulls k v ↔ lastReported pulls k = some v

theorem tracks_nil : Tracks ([] : List (Pull κ ν)) := by
  intro k v
  constructor
  · rintro ⟨d, ⟨⟨p, hp, -⟩, -⟩, -⟩
    cases hp
  · intro h
    cases h

/-- **One pull keeps the newest values the last exactly when** it brings no value back. -/
theorem tracks_append (h : Increasing (pre ++ [p])) (ht : Tracks pre) : Tracks (pre ++ [p]) ↔
    ∀ k v, p.reports k = some v → Reported pre k v → lastReported pre k = some v := by
  constructor
  · intro htracks k v hv hold
    have hnews : ∀ w, p.reports k = some w → Reported pre k w := by
      intro w hw
      rw [hv] at hw
      rwa [← Option.some.inj hw]
    rw [← ht k v, ← newest_append_old h hnews, htracks k v, lastReported_append, hv]
    rfl
  · intro hback k v
    rw [lastReported_append]
    cases hw : p.reports k with
    | none =>
      rw [newest_append_old h (fun w hw' => by rw [hw] at hw'; cases hw'), ht k v]
      rfl
    | some w =>
      show _ ↔ some w = some v
      by_cases hold : Reported pre k w
      · have hnews : ∀ u, p.reports k = some u → Reported pre k u := by
          intro u hu
          rw [hw] at hu
          rwa [← Option.some.inj hu]
        rw [newest_append_old h hnews, ht k v, hback k w hw hold]
      · rw [newest_append_new h hw hold]
        exact ⟨fun hv => by rw [hv], fun hv => (Option.some.inj hv).symm⟩

def TracksThroughout (pulls : List (Pull κ ν)) : Prop := ∀ pre post, pulls = pre ++ post → Tracks pre

/-- The pulls up to a pull are the pulls before it, and it. -/
theorem tracksThroughout_of_step (h : ∀ pre p post, pulls = pre ++ p :: post → Tracks pre → Tracks (pre ++ [p])) :
    TracksThroughout pulls := by
  intro pre
  induction pre using List.reverseRecOn with
  | nil => exact fun _ _ => tracks_nil
  | append_singleton pre p ih =>
    intro post hsplit
    have hsplit' : pulls = pre ++ p :: post := by rw [hsplit, List.append_assoc, List.singleton_append]
    exact h pre p post hsplit' (ih _ hsplit')

theorem tracksThroughout_iff (h : Increasing pulls) : TracksThroughout pulls ↔ NeverRevisedBack pulls := by
  have hupto : ∀ {pre p post}, pulls = pre ++ p :: post → Increasing (pre ++ [p]) := fun hsplit => (hsplit ▸ h).upTo
  constructor
  · intro htracks pre p post hsplit
    refine (tracks_append (hupto hsplit) (htracks pre _ hsplit)).1 (htracks (pre ++ [p]) post ?_)
    rw [hsplit, List.append_assoc, List.singleton_append]
  · intro hback
    exact tracksThroughout_of_step fun pre p post hsplit ht =>
      (tracks_append (hupto hsplit) ht).2 (hback pre p post hsplit)

/-- **The store is right as of every date exactly when** it is right after every pull. -/
theorem pointInTime_iff_tracks (h : Increasing pulls) : PointInTime pulls ↔ TracksThroughout pulls := by
  constructor
  · intro hpit
    refine tracksThroughout_of_step (fun pre p post hsplit ht k v => ?_)
    have hinc : Increasing (pre ++ [p]) := (hsplit ▸ h).upTo
    rw [lastReported_append]
    cases hw : p.reports k with
    | none =>
      rw [newest_append_old hinc (fun w hw' => by rw [hw] at hw'; cases hw'), ht k v]
      rfl
    | some w =>
      have hlatest : Latest pulls p.vintage p := by
        refine ⟨?_, Int.le_refl _, fun q _ hq => hq⟩
        rw [hsplit]
        exact List.mem_append_right _ List.mem_cons_self
      have hforce := hpit k p.vintage p w hlatest hw v
      rw [hsplit] at h hlatest hforce
      rw [inForce_iff_newest h hlatest] at hforce
      rw [hforce]
      exact ⟨fun hv => by rw [hv]; rfl, fun hv => (Option.some.inj hv).symm⟩
  · intro htracks k asOf p v hlatest hv w
    obtain ⟨pre, post, hsplit⟩ := List.append_of_mem hlatest.1
    have ht : Tracks (pre ++ [p]) := htracks (pre ++ [p]) post (by rw [hsplit, List.append_assoc, List.singleton_append])
    rw [hsplit] at h hlatest ⊢
    rw [inForce_iff_newest h hlatest, ht k w, lastReported_append, hv]
    exact ⟨fun hw => (Option.some.inj hw).symm, fun hw => by rw [hw]; rfl⟩

/-- **First sightings are right as of every date exactly when** no value is revised back to. -/
theorem pointInTime_iff (h : Increasing pulls) : PointInTime pulls ↔ NeverRevisedBack pulls :=
  (pointInTime_iff_tracks h).trans (tracksThroughout_iff h)

end Vintages
