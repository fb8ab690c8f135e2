import RealtimeFinance.Awsnative.PerpRows
/-!
# PerpDegrades — `_http_fetch`, and the poll of a venue that answers in part

`_http_fetch` catches what `urllib` wraps; a timeout once the connection is open comes as a bare `TimeoutError`, which
passes `_json` too and ends the poll.  Without one a poll writes its object.  But the loop keeps its answers by symbol, and
a round under a symbol that an earlier one had puts its readings in the place of the earlier ones, also when its request
failed.  A field depends on its own request alone where no such round comes after it (`degrades_iff`).
-/
namespace Awsnative

open Python Sql

/-! ## One request -/

/-- What becomes of a request on the wire. -/
inductive RequestOutcome
  | wellFormed
  | httpErrorStatus
  | unreachable
  | connectTimeout
  | readTimeout
  deriving DecidableEq

/-- What `urlopen` and `response.read` raise. -/
inductive UrllibError
  | httpError
  | urlError
  | timeoutError
  deriving DecidableEq

/-- `urllib` wraps what goes wrong in opening the connection, and not what goes wrong after. -/
def RequestOutcome.error : RequestOutcome → Option UrllibError
  | .wellFormed      => none
  | .httpErrorStatus => some .httpError
  | .unreachable     => some .urlError
  | .connectTimeout  => some .urlError
  | .readTimeout     => some .timeoutError

variable {α : Type}

/-- `_http_fetch`, of a request whose answer would be `payload`. -/
def httpFetch (outcome : RequestOutcome) (payload : α) : Fetched α :=
  match outcome.error with
  | none               => .answered payload
  | some .httpError    => .unavailable
  | some .urlError     => .unavailable
  | some .timeoutError => .raised .timeoutError

@[simp] theorem httpFetch_wellFormed (payload : α) : httpFetch .wellFormed payload = .answered payload := rfl

theorem httpFetch_raised_iff (outcome : RequestOutcome) (payload : α) :
    (∃ e, httpFetch outcome payload = .raised e) ↔ outcome = .readTimeout := by
  cases outcome <;> simp [httpFetch, RequestOutcome.error]

theorem httpFetch_payload (outcome : RequestOutcome) (payload : α) :
    (httpFetch outcome payload).payload? = if outcome = .wellFormed then some payload else none := by
  cases outcome <;> rfl

/-! ## The requests of a poll -/

/-- A pair, and how each request of its round ends, with what it is answered when well formed. -/
structure PairRequests where
  instrumentId : String
  venueSymbol : String
  openInterest : RequestOutcome × JsonObject
  ratio : RatioFamily → RequestOutcome × List JsonObject

structure PerpRequests where
  rounds : List PairRequests
  pollTsUs : Int
  premiumIndex : RequestOutcome × List JsonObject

def PairRequests.poll (p : PairRequests) : PairPoll where
  instrumentId := p.instrumentId
  venueSymbol := p.venueSymbol
  openInterest := httpFetch p.openInterest.1 p.openInterest.2
  ratio family := httpFetch (p.ratio family).1 (p.ratio family).2

def PerpRequests.poll (requests : PerpRequests) : PerpPoll where
  rounds := requests.rounds.map PairRequests.poll
  pollTsUs := requests.pollTsUs
  premiumIndex := httpFetch requests.premiumIndex.1 requests.premiumIndex.2

def PairRequests.answering (p : PairRequests) : PairRequests :=
  { p with openInterest := (.wellFormed, p.openInterest.2), ratio := fun family => (.wellFormed, (p.ratio family).2) }

/-- The same requests, all answered. -/
def PerpRequests.answering (requests : PerpRequests) : PerpRequests where
  rounds := requests.rounds.map PairRequests.answering
  pollTsUs := requests.pollTsUs
  premiumIndex := (.wellFormed, requests.premiumIndex.2)

def PairRequests.outcomes (p : PairRequests) : List RequestOutcome :=
  p.openInterest.1 :: ratioFamilies.map (fun family => (p.ratio family).1)

def PerpRequests.outcomes (requests : PerpRequests) : List RequestOutcome :=
  requests.premiumIndex.1 :: requests.rounds.flatMap PairRequests.outcomes

/-- **The answers are well formed**: with all of them the poll is written, and no open interest has a time that is no
instant. -/
structure PerpRequests.WellFormed (requests : PerpRequests) : Prop where
  written : ∃ object, requests.answering.poll.collect = .ok object
  interestTime : ∀ p ∈ requests.rounds, ∃ us, millisToMicros (Dict.get? p.openInterest.2 "time") = .ok us

/-- The rounds of the pairs that `premiumIndex` has an object for. -/
def PerpRequests.answered (requests : PerpRequests) : List (PairRequests × JsonObject) :=
  requests.rounds.filterMap (fun p =>
    (lastOfSymbol requests.premiumIndex.2 p.venueSymbol).map (fun premium => (p, premium)))

/-- A row and the row of the poll in which all requests answered: what its own request answered for is the same. -/
structure RowAgrees (p : PairRequests) (row full : PerpContext) : Prop where
  instrumentId : row.instrumentId = full.instrumentId
  venueSymbol : row.venueSymbol = full.venueSymbol
  pollTsUs : row.pollTsUs = full.pollTsUs
  snapshotTsUs : row.snapshotTsUs = full.snapshotTsUs
  markPrice : row.markPrice = full.markPrice
  indexPrice : row.indexPrice = full.indexPrice
  estimatedSettlePrice : row.estimatedSettlePrice = full.estimatedSettlePrice
  lastFundingRate : row.lastFundingRate = full.lastFundingRate
  interestRate : row.interestRate = full.interestRate
  nextFundingTimeUs : row.nextFundingTimeUs = full.nextFundingTimeUs
  premiumIndexTsUs : row.premiumIndexTsUs = full.premiumIndexTsUs
  openInterest : p.openInterest.1 = .wellFormed →
    row.openInterest = full.openInterest ∧ row.openInterestTsUs = full.openInterestTsUs
  ratio : ∀ family, (p.ratio family).1 = .wellFormed → row.ratios.get family = full.ratios.get family

/-- **A poll degrades request by request**: it writes its one object, with a row of each pair that `premiumIndex` answered
for, and in each row what was answered. -/
def Degrades (requests : PerpRequests) : Prop :=
  ∃ rows fullRows, requests.poll.rows = .ok rows ∧ requests.answering.poll.rows = .ok fullRows ∧
    requests.poll.collect = .ok ⟨microsDate requests.pollTsUs, rows.map PerpContext.toJson⟩ ∧
    List.Forall₂ (fun a row => row.instrumentId = a.1.1 ∧ row.venueSymbol = a.1.2) requests.poll.answered rows ∧
    (requests.premiumIndex.1 = .wellFormed →
      List.Forall₂ (fun a pair => RowAgrees a.1 pair.1 pair.2) requests.answered (rows.zip fullRows))

/-! ## What the loop keeps of a symbol -/

def PerpRequests.roundsOf (requests : PerpRequests) (symbol : String) : List PairRequests :=
  requests.rounds.filter (fun p => decide (p.venueSymbol = symbol))

def PerpRequests.lastRound (requests : PerpRequests) (symbol : String) : Option PairRequests :=
  (requests.roundsOf symbol).getLast?

/-- The last round of the symbol whose open interest is answered. -/
def PerpRequests.lastInterest (requests : PerpRequests) (symbol : String) : Option PairRequests :=
  ((requests.roundsOf symbol).filter (fun p => decide (p.openInterest.1 = .wellFormed))).getLast?

/-- **What answered a round stays**: where its open interest was answered, the last answer to the symbol says what that of
its last round does; and where a family was, it was for the last round too, or that round's answer would say nothing. -/
structure NotOverwritten (requests : PerpRequests) (p : PairRequests) : Prop where
  openInterest : p.openInterest.1 = .wellFormed → ∀ kept ∈ requests.lastInterest p.venueSymbol,
    ∀ last ∈ requests.lastRound p.venueSymbol,
      fieldText kept.openInterest.2 "openInterest" = fieldText last.openInterest.2 "openInterest" ∧
      millisToMicros (Dict.get? kept.openInterest.2 "time") = millisToMicros (Dict.get? last.openInterest.2 "time")
  ratio : ∀ family, (p.ratio family).1 = .wellFormed → ∀ last ∈ requests.lastRound p.venueSymbol,
    (last.ratio family).1 = .wellFormed ∨ latest family (some (last.ratio family).2) = .ok .absent

section Requests

variable (requests : PerpRequests) (symbol : String)

theorem PerpRequests.roundsOf_poll :
    requests.poll.roundsOf symbol = (requests.roundsOf symbol).map PairRequests.poll := List.filter_map

theorem PerpRequests.roundsOf_answering :
    requests.answering.roundsOf symbol = (requests.roundsOf symbol).map PairRequests.answering := List.filter_map

theorem PerpRequests.interestOf_poll :
    requests.poll.interestOf symbol = (requests.lastInterest symbol).map (fun p => p.openInterest.2) := by
  unfold PerpPoll.interestOf PerpRequests.lastInterest
  rw [requests.roundsOf_poll, List.filterMap_map, ← List.getLast?_map, ← List.filterMap_eq_map, List.filterMap_filter]
  congr 1
  refine List.filterMap_congr (fun p _ => ?_)
  show (httpFetch p.openInterest.1 p.openInterest.2).payload? = _
  rw [httpFetch_payload]
  simp

theorem PerpRequests.interestOf_answering :
    requests.answering.poll.interestOf symbol = (requests.lastRound symbol).map (fun p => p.openInterest.2) := by
  have hall : ((requests.roundsOf symbol).map PairRequests.answering).filter
      (fun p => decide (p.openInterest.1 = .wellFormed)) = (requests.roundsOf symbol).map PairRequests.answering := by
    rw [List.filter_eq_self]
    intro p hp
    obtain ⟨q, -, rfl⟩ := List.mem_map.1 hp
    rfl
  rw [requests.answering.interestOf_poll]
  unfold PerpRequests.lastInterest PerpRequests.lastRound
  rw [requests.roundsOf_answering, hall, List.getLast?_map, Option.map_map]
  rfl

theorem PerpRequests.reading_poll (family : RatioFamily) : requests.poll.reading family symbol =
    (requests.lastRound symbol).bind (fun last =>
      if (last.ratio family).1 = .wellFormed then (last.ratio family).2.getLast? else none) := by
  unfold PerpPoll.reading PerpRequests.lastRound
  rw [requests.roundsOf_poll, List.getLast?_map]
  cases (requests.roundsOf symbol).getLast? with
  | none => rfl
  | some last =>
    show (httpFetch (last.ratio family).1 (last.ratio family).2).payload?.bind List.getLast? = _
    rw [httpFetch_payload, Option.bind_some]
    split <;> rfl

theorem PerpRequests.reading_answering (family : RatioFamily) : requests.answering.poll.reading family symbol =
    (requests.lastRound symbol).bind (fun last => (last.ratio family).2.getLast?) := by
  rw [requests.answering.reading_poll]
  unfold PerpRequests.lastRound
  rw [requests.roundsOf_answering, List.getLast?_map]
  cases (requests.roundsOf symbol).getLast? <;> rfl

theorem PerpRequests.premiumPayload_poll : requests.poll.premiumPayload =
    if requests.premiumIndex.1 = .wellFormed then requests.premiumIndex.2 else [] := by
  unfold PerpPoll.premiumPayload PerpRequests.poll
  rw [httpFetch_payload]
  split <;> rfl

theorem PerpRequests.answered_poll : requests.poll.answered = if requests.premiumIndex.1 = .wellFormed then
    requests.answered.map (fun a => (a.1.poll.pair, a.2)) else [] := by
  unfold PerpPoll.answered PerpPoll.premiumOf PerpPoll.pairs PerpRequests.answered
  rw [requests.premiumPayload_poll]
  split
  · rw [List.map_filterMap]
    show List.filterMap _ ((requests.rounds.map PairRequests.poll).map PairPoll.pair) = _
    rw [List.map_map, List.filterMap_map]
    refine List.filterMap_congr (fun p _ => ?_)
    rw [Option.map_map]
    rfl
  · exact List.filterMap_eq_nil_iff.2 (fun pair _ => rfl)

theorem PerpRequests.answered_answering : requests.answering.poll.answered =
    requests.answered.map (fun a => (a.1.poll.pair, a.2)) := by
  rw [requests.answering.answered_poll]
  unfold PerpRequests.answered PerpRequests.answering
  rw [if_pos rfl, List.filterMap_map, List.map_filterMap, List.map_filterMap]
  refine List.filterMap_congr (fun p _ => ?_)
  show Option.map _ (Option.map _ (lastOfSymbol requests.premiumIndex.2 p.venueSymbol)) = _
  rw [Option.map_map, Option.map_map]
  rfl

theorem PairRequests.quiet_iff (p : PairRequests) : p.poll.Quiet ↔ .readTimeout ∉ p.outcomes := by
  unfold PairRequests.outcomes
  rw [List.mem_cons, List.mem_map, not_or]
  constructor
  · intro h
    refine ⟨fun htimeout => ?_, ?_⟩
    · obtain ⟨e, he⟩ := (httpFetch_raised_iff _ p.openInterest.2).2 htimeout.symm
      exact h.openInterest e he
    · rintro ⟨family, -, htimeout⟩
      obtain ⟨e, he⟩ := (httpFetch_raised_iff _ (p.ratio family).2).2 htimeout
      exact h.ratio family e he
  · rintro ⟨hinterest, hratio⟩
    refine ⟨fun e he => hinterest ((httpFetch_raised_iff _ _).1 ⟨e, he⟩).symm, fun family e he => hratio ⟨family, ?_, ?_⟩⟩
    · cases family <;> decide
    · exact (httpFetch_raised_iff _ _).1 ⟨e, he⟩

theorem PerpRequests.no_readTimeout_iff : .readTimeout ∉ requests.outcomes ↔
    requests.premiumIndex.1 ≠ .readTimeout ∧ ∀ round ∈ requests.poll.rounds, round.Quiet := by
  have hrounds : (∀ round ∈ requests.poll.rounds, round.Quiet) ↔ ∀ p ∈ requests.rounds, .readTimeout ∉ p.outcomes := by
    show (∀ round ∈ requests.rounds.map PairRequests.poll, round.Quiet) ↔ _
    rw [List.forall_mem_map]
    exact forall_congr' (fun p => forall_congr' (fun _ => p.quiet_iff))
  rw [hrounds]
  unfold PerpRequests.outcomes
  rw [List.mem_cons, List.mem_flatMap, not_or, eq_comm]
  simp only [not_exists, not_and]

end Requests

/-! ## When a row agrees -/

section Agrees

variable {requests : PerpRequests} {p : PairRequests}

theorem PerpRequests.mem_roundsOf (hp : p ∈ requests.rounds) : p ∈ requests.roundsOf p.venueSymbol :=
  List.mem_filter.2 ⟨hp, decide_eq_true rfl⟩

theorem PerpRequests.lastRound_of_mem (hp : p ∈ requests.rounds) :
    ∃ last, requests.lastRound p.venueSymbol = some last := by
  unfold PerpRequests.lastRound
  rw [List.getLast?_eq_some_getLast (List.ne_nil_of_mem (PerpRequests.mem_roundsOf hp))]
  exact ⟨_, rfl⟩

theorem PerpRequests.lastInterest_of_mem (hp : p ∈ requests.rounds) (hanswered : p.openInterest.1 = .wellFormed) :
    ∃ kept, requests.lastInterest p.venueSymbol = some kept := by
  unfold PerpRequests.lastInterest
  rw [List.getLast?_eq_some_getLast (List.ne_nil_of_mem
    (List.mem_filter.2 ⟨PerpRequests.mem_roundsOf hp, decide_eq_true hanswered⟩))]
  exact ⟨_, rfl⟩

theorem interest_agrees_iff (hp : p ∈ requests.rounds) (hanswered : p.openInterest.1 = .wellFormed) {us us' : Int}
    (hus : millisToMicros (requests.poll.interestField p.venueSymbol "time") = .ok us)
    (hus' : millisToMicros (requests.answering.poll.interestField p.venueSymbol "time") = .ok us') :
    (valueText (requests.poll.interestField p.venueSymbol "openInterest") =
        valueText (requests.answering.poll.interestField p.venueSymbol "openInterest") ∧ us = us') ↔
      ∀ kept ∈ requests.lastInterest p.venueSymbol, ∀ last ∈ requests.lastRound p.venueSymbol,
        fieldText kept.openInterest.2 "openInterest" = fieldText last.openInterest.2 "openInterest" ∧
        millisToMicros (Dict.get? kept.openInterest.2 "time") = millisToMicros (Dict.get? last.openInterest.2 "time") := by
  obtain ⟨kept, hkept⟩ := PerpRequests.lastInterest_of_mem hp hanswered
  obtain ⟨last, hlast⟩ := PerpRequests.lastRound_of_mem hp
  have hpoll : ∀ field, requests.poll.interestField p.venueSymbol field = Dict.get? kept.openInterest.2 field := by
    intro field
    unfold PerpPoll.interestField
    rw [requests.interestOf_poll, hkept]
    rfl
  have hfull : ∀ field, requests.answering.poll.interestField p.venueSymbol field =
      Dict.get? last.openInterest.2 field := by
    intro field
    unfold PerpPoll.interestField
    rw [requests.interestOf_answering, hlast]
    rfl
  rw [hpoll] at hus
  rw [hfull] at hus'
  rw [hpoll, hfull, hkept, hlast, ← fieldText_eq, ← fieldText_eq]
  simp only [Option.mem_def, Option.some.injEq, forall_eq', hus, hus', Except.ok.injEq]

theorem ratio_agrees_iff (hp : p ∈ requests.rounds) {family : RatioFamily} {obs obs' : RatioObservation}
    (hobs : requests.poll.latest family p.venueSymbol = .ok obs)
    (hobs' : requests.answering.poll.latest family p.venueSymbol = .ok obs') :
    obs = obs' ↔ ∀ last ∈ requests.lastRound p.venueSymbol,
      (last.ratio family).1 = .wellFormed ∨ latest family (some (last.ratio family).2) = .ok .absent := by
  obtain ⟨last, hlast⟩ := PerpRequests.lastRound_of_mem hp
  unfold PerpPoll.latest at hobs hobs'
  rw [requests.reading_poll, hlast, Option.bind_some] at hobs
  rw [requests.reading_answering, hlast, Option.bind_some] at hobs'
  have hsays : latest family (some (last.ratio family).2) = .ok obs' := hobs'
  simp only [hlast, Option.mem_def, Option.some.injEq, forall_eq', hsays, Except.ok.injEq]
  by_cases hwell : (last.ratio family).1 = .wellFormed
  · rw [if_pos hwell] at hobs
    exact iff_of_true (Except.ok.inj (hobs.symm.trans hobs')) (Or.inl hwell)
  · rw [if_neg hwell] at hobs
    have habsent : obs = .absent := (Except.ok.inj hobs).symm
    rw [habsent, or_iff_right hwell, eq_comm]

/-- **A row agrees with the full poll's exactly when** the loop has kept what answered its round. -/
theorem rowAgrees_iff (hp : p ∈ requests.rounds) {snapshotTsUs : Int} {premium : JsonObject} {row full : PerpContext}
    (hrow : requests.poll.rowOf snapshotTsUs p.poll.pair premium = .ok row)
    (hfull : requests.answering.poll.rowOf snapshotTsUs p.poll.pair premium = .ok full) :
    RowAgrees p row full ↔ NotOverwritten requests p := by
  obtain ⟨next, hnext, hrow⟩ := bind_ok hrow
  obtain ⟨time, htime, hrow⟩ := bind_ok hrow
  obtain ⟨interestTime, hinterestTime, hrow⟩ := bind_ok hrow
  obtain ⟨observations, hobservations, hrow⟩ := bind_ok hrow
  obtain ⟨next', hnext', hfull⟩ := bind_ok hfull
  obtain ⟨time', htime', hfull⟩ := bind_ok hfull
  obtain ⟨interestTime', hinterestTime', hfull⟩ := bind_ok hfull
  obtain ⟨observations', hobservations', hfull⟩ := bind_ok hfull
  have hsameNext : next = next' := Except.ok.inj (hnext.symm.trans hnext')
  have hsameTime : time = time' := Except.ok.inj (htime.symm.trans htime')
  have hratio := fun family => ratio_agrees_iff hp (Families.build_eq_ok_iff.1 hobservations family)
    (Families.build_eq_ok_iff.1 hobservations' family)
  cases hrow
  cases hfull
  constructor
  · intro h
    exact ⟨fun hanswered => (interest_agrees_iff hp hanswered hinterestTime hinterestTime').1 (h.openInterest hanswered),
      fun family hanswered => (hratio family).1 (h.ratio family hanswered)⟩
  · intro h
    exact ⟨rfl, rfl, rfl, rfl, rfl, rfl, rfl, rfl, rfl, hsameNext, hsameTime,
      fun hanswered => (interest_agrees_iff hp hanswered hinterestTime hinterestTime').2 (h.openInterest hanswered),
      fun family hanswered => (hratio family).2 (h.ratio family hanswered)⟩

end Agrees

/-! ## When a poll degrades -/

/-- **A poll without a read timeout is written**, when its answers are well formed. -/
theorem PerpRequests.WellFormed.poll {requests : PerpRequests} (hformed : requests.WellFormed)
    (h : .readTimeout ∉ requests.outcomes) : Written requests.poll := by
  obtain ⟨object, hobject⟩ := hformed.written
  have hfull := (PerpPoll.collect_ok hobject).1
  obtain ⟨hpremium, hquiet⟩ := requests.no_readTimeout_iff.1 h
  have hsubset : ∀ a ∈ requests.poll.answered, a ∈ requests.answering.poll.answered := by
    rw [requests.answered_poll, requests.answered_answering]
    split
    · exact fun a ha => ha
    · exact fun a ha => by cases ha
  refine ⟨fun e he => hpremium ((httpFetch_raised_iff _ _).1 ⟨e, he⟩), hquiet, hfull.positive, hfull.before, ?_, ?_⟩
  · intro o ho
    rw [requests.premiumPayload_poll] at ho
    split at ho
    · exact hfull.symbols o ho
    · cases ho
  · intro a ha
    have hbuildable := hfull.rows a (hsubset a ha)
    refine ⟨hbuildable.nextFundingTime, hbuildable.time, millisToMicros_isOk_iff.1 ?_, ?_⟩
    · unfold PerpPoll.interestField
      rw [requests.interestOf_poll]
      cases hkept : requests.lastInterest a.1.2 with
      | none => exact ⟨0, rfl⟩
      | some kept =>
        have hmem := List.mem_filter.1 (List.mem_of_getLast? hkept)
        exact hformed.interestTime kept (List.mem_filter.1 hmem.1).1
    · intro family reading hreading
      refine hbuildable.readings family reading ?_
      rw [requests.reading_poll] at hreading
      rw [requests.reading_answering]
      obtain ⟨last, hlast, hread⟩ := Option.bind_eq_some_iff.1 hreading
      split at hread
      · exact Option.bind_eq_some_iff.2 ⟨last, hlast, hread⟩
      · cases hread

/-- Two readings of one list, side by side. -/
theorem forall₂_zip_iff {β γ δ : Type} {P : β → γ → Prop} {Q : β → δ → Prop} {R : β → γ × δ → Prop} {S : β → Prop}
    {xs : List β} {ys : List γ} {zs : List δ} (hys : List.Forall₂ P xs ys)
    (h : ∀ x ∈ xs, ∀ y z, P x y → Q x z → (R x (y, z) ↔ S x)) (hzs : List.Forall₂ Q xs zs) :
    List.Forall₂ R xs (ys.zip zs) ↔ ∀ x ∈ xs, S x := by
  induction hys generalizing zs with
  | nil =>
    cases hzs
    simp
  | cons hxy _ ih =>
    cases hzs with
    | cons hxz hrest =>
      rw [List.zip_cons_cons, List.forall₂_cons, h _ List.mem_cons_self _ _ hxy hxz,
        ih (fun x hx => h x (List.mem_cons_of_mem _ hx)) hrest, List.forall_mem_cons]

theorem PerpRequests.mem_answered {requests : PerpRequests} {a : PairRequests × JsonObject}
    (h : a ∈ requests.answered) : a.1 ∈ requests.rounds := by
  obtain ⟨p, hp, ha⟩ := List.mem_filterMap.1 h
  obtain ⟨premium, -, rfl⟩ := Option.map_eq_some_iff.1 ha
  exact hp

/-- **A poll degrades request by request exactly when** none of its requests times out once its connection is open, and
where `premiumIndex` answered, the loop keeps what answered each of its rounds. -/
theorem degrades_iff (requests : PerpRequests) (hformed : requests.WellFormed) :
    Degrades requests ↔ .readTimeout ∉ requests.outcomes ∧
      (requests.premiumIndex.1 = .wellFormed → ∀ a ∈ requests.answered, NotOverwritten requests a.1) := by
  obtain ⟨object, hobject⟩ := hformed.written
  obtain ⟨fullRows, hfullRows, hfull, -⟩ := (PerpPoll.collect_ok hobject).1.collect_eq
  rw [requests.answered_answering] at hfullRows
  -- what the rows of a written poll agree on, pair by pair
  have hagree : ∀ {rows : List PerpContext}, requests.premiumIndex.1 = .wellFormed →
      requests.poll.answered.mapM (fun a => requests.poll.rowOf (requests.pollTsUs - requests.pollTsUs % gridUs) a.1 a.2) =
        .ok rows →
      (List.Forall₂ (fun a pair => RowAgrees a.1 pair.1 pair.2) requests.answered (rows.zip fullRows) ↔
        ∀ a ∈ requests.answered, NotOverwritten requests a.1) := by
    intro rows hpremium hrows
    rw [requests.answered_poll, if_pos hpremium] at hrows
    exact forall₂_zip_iff (List.forall₂_map_left_iff.1 (mapM_forall₂ hrows))
      (fun a ha row full hrow hfull => rowAgrees_iff (PerpRequests.mem_answered ha) hrow hfull)
      (List.forall₂_map_left_iff.1 (mapM_forall₂ hfullRows))
  constructor
  · rintro ⟨rows, fullRows', hpollRows, hfullRows', hcollect, -, hrest⟩
    have hwritten := (PerpPoll.collect_ok hcollect).1
    refine ⟨requests.no_readTimeout_iff.2 ⟨fun htimeout => ?_, hwritten.quiet⟩, fun hpremium => ?_⟩
    · obtain ⟨e, he⟩ := (httpFetch_raised_iff _ requests.premiumIndex.2).2 htimeout
      exact hwritten.premiumIndex e he
    · obtain ⟨rows', hrows, hpollRows', -⟩ := hwritten.collect_eq
      cases hpollRows.symm.trans hpollRows'
      cases hfull.symm.trans hfullRows'
      exact (hagree hpremium hrows).1 (hrest hpremium)
  · rintro ⟨hquiet, hkept⟩
    obtain ⟨rows, hrows, hpollRows, hcollect⟩ := (hformed.poll hquiet).collect_eq
    refine ⟨rows, fullRows, hpollRows, hfull, hcollect, ?_, fun hpremium => (hagree hpremium hrows).2 (hkept hpremium)⟩
    refine (mapM_forall₂ hrows).imp (fun a row hrow => ?_)
    have hof := (PerpPoll.rowOf_ok hrow).2
    exact ⟨hof.instrumentId, hof.venueSymbol⟩

/-- The loop keeps what answered a round whose symbol no other round has. -/
theorem notOverwritten_of_nodup {requests : PerpRequests} (h : (requests.rounds.map PairRequests.venueSymbol).Nodup)
    {p : PairRequests} (hp : p ∈ requests.rounds) : NotOverwritten requests p := by
  have hown : ∀ q ∈ requests.roundsOf p.venueSymbol, q = p := by
    intro q hq
    obtain ⟨hq, hsymbol⟩ := List.mem_filter.1 hq
    exact List.inj_on_of_nodup_map h hq hp (of_decide_eq_true hsymbol)
  have hlast : ∀ last ∈ requests.lastRound p.venueSymbol, last = p := fun last hlast =>
    hown last (List.mem_of_getLast? hlast)
  refine ⟨fun _ kept hkept last hmem => ?_, fun family hanswered last hmem => ?_⟩
  · rw [hlast last hmem, hown kept (List.mem_filter.1 (List.mem_of_getLast? hkept)).1]
    exact ⟨rfl, rfl⟩
  · rw [hlast last hmem]
    exact Or.inl hanswered

/-- **Of pairs of different symbols**, a poll degrades request by request exactly when none times out late. -/
theorem degrades_iff_of_nodup (requests : PerpRequests) (hformed : requests.WellFormed)
    (h : (requests.rounds.map PairRequests.venueSymbol).Nodup) : Degrades requests ↔ .readTimeout ∉ requests.outcomes := by
  rw [degrades_iff requests hformed]
  exact and_iff_left (fun _ a ha => notOverwritten_of_nodup h (PerpRequests.mem_answered ha))

/-! ## One instrument, and two pairs of one symbol -/

def bitcoinPremium : JsonObject :=
  [("symbol", .str "BTCUSDT"), ("markPrice", .str "64182.44"), ("time", .int 1787028275001)]

/-- A round of BTCUSDT that ends so: in its open interest, and in its ratios. -/
def bitcoinRound (instrumentId : String) (interest ratios : RequestOutcome) : PairRequests where
  instrumentId := instrumentId
  venueSymbol := "BTCUSDT"
  openInterest := (interest, [("openInterest", .str "81025.7"), ("time", .int 1787028275002)])
  ratio := fun family => (ratios, [[(family.fields.1, .str "1.5"), (family.fields.2.1, .str "0.6"),
    (family.fields.2.2, .str "0.4"), ("timestamp", .int 1787028000000)]])

def bitcoinPoll (rounds : List PairRequests) : PerpRequests := ⟨rounds, 1787028300000000, (.wellFormed, [bitcoinPremium])⟩

/-- The first pair's open interest is unreachable and its ratios an error, and the second's are answered. -/
def secondAnswers : PerpRequests :=
  bitcoinPoll [bitcoinRound "BTC-USD" .unreachable .httpErrorStatus, bitcoinRound "XBT-USD" .wellFormed .wellFormed]

/-- The second pair's ratios are an error, and the first's were answered. -/
def secondFails : PerpRequests :=
  bitcoinPoll [bitcoinRound "BTC-USD" .wellFormed .wellFormed, bitcoinRound "XBT-USD" .wellFormed .httpErrorStatus]

theorem wellFormed_of_isSome {requests : PerpRequests}
    (hwritten : requests.answering.poll.collect.toOption.isSome = true)
    (htime : ∀ p ∈ requests.rounds, (millisToMicros (Dict.get? p.openInterest.2 "time")).toOption.isSome = true) :
    requests.WellFormed := by
  have hok : ∀ {β : Type} (x : Except Exception β), x.toOption.isSome = true → ∃ a, x = .ok a := by
    intro β x hx
    cases x with
    | error e => cases hx
    | ok a => exact ⟨a, rfl⟩
  exact ⟨hok _ hwritten, fun p hp => hok _ (htime p hp)⟩

theorem degrades_iff_secondAnswers : Degrades secondAnswers := by
  have hformed : secondAnswers.WellFormed := wellFormed_of_isSome (by decide +kernel) (by decide +kernel)
  have hlast : secondAnswers.lastRound "BTCUSDT" = some (bitcoinRound "XBT-USD" .wellFormed .wellFormed) := rfl
  have hinterest : secondAnswers.lastInterest "BTCUSDT" = some (bitcoinRound "XBT-USD" .wellFormed .wellFormed) := rfl
  refine (degrades_iff secondAnswers hformed).2 ⟨by decide, fun _ a ha => ?_⟩
  have hsymbol : a.1.venueSymbol = "BTCUSDT" := by
    rcases List.mem_pair.1 (PerpRequests.mem_answered ha) with h | h <;> rw [h] <;> rfl
  refine ⟨fun _ kept hkept last hmem => ?_, fun family _ last hmem => ?_⟩
  · rw [hsymbol] at hkept hmem
    cases hinterest.symm.trans hkept
    cases hlast.symm.trans hmem
    exact ⟨rfl, rfl⟩
  · rw [hsymbol] at hmem
    cases hlast.symm.trans hmem
    exact Or.inl rfl

/-- The response of one request is late, and the poll writes nothing. -/
theorem late_response_ends_poll : (bitcoinPoll [bitcoinRound "BTC-USD" .readTimeout .wellFormed]).WellFormed ∧
    ¬ Degrades (bitcoinPoll [bitcoinRound "BTC-USD" .readTimeout .wellFormed]) := by
  refine ⟨wellFormed_of_isSome (by decide +kernel) (by decide +kernel), ?_⟩
  rintro ⟨rows, -, -, -, hcollect, -⟩
  have hraises : (bitcoinPoll [bitcoinRound "BTC-USD" .readTimeout .wellFormed]).poll.collect = .error .timeoutError := by
    decide +kernel
  rw [hraises] at hcollect
  cases hcollect

/-- **A request that fails takes an answer from the round before it**, where the two pairs share a symbol. -/
theorem later_round_erases_ratios :
    secondFails.WellFormed ∧ .readTimeout ∉ secondFails.outcomes ∧ ¬ Degrades secondFails := by
  have hformed : secondFails.WellFormed := wellFormed_of_isSome (by decide +kernel) (by decide +kernel)
  have hlast : secondFails.lastRound "BTCUSDT" = some (bitcoinRound "XBT-USD" .wellFormed .httpErrorStatus) := rfl
  have hfirst : (bitcoinRound "BTC-USD" .wellFormed .wellFormed, bitcoinPremium) ∈ secondFails.answered := by
    have hpremium : lastOfSymbol [bitcoinPremium] "BTCUSDT" = some bitcoinPremium := by decide +kernel
    exact List.mem_filterMap.2 ⟨_, List.mem_cons_self, Option.map_eq_some_iff.2 ⟨bitcoinPremium, hpremium, rfl⟩⟩
  refine ⟨hformed, by decide, fun hdegrades => ?_⟩
  have hkept := ((degrades_iff secondFails hformed).1 hdegrades).2 rfl _ hfirst
  rcases hkept.ratio .takerVolume rfl _ hlast with hanswered | habsent
  · cases hanswered
  · have hsays : (latest .takerVolume
        (some ((bitcoinRound "XBT-USD" .wellFormed .httpErrorStatus).ratio .takerVolume).2)).toOption ≠
        some .absent := by decide +kernel
    rw [habsent] at hsays
    exact hsays rfl

end Awsnative
