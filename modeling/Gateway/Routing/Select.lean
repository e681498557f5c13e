import Gateway.Routing.Election
import Gateway.Http.Errors

/-!
Channel selection, end to end.

The candidates are filtered by what was tried and by the breaker, one is
elected, and the elected channel is loaded and checked again. Every failure is
the same refusal.
-/

namespace Gateway

structure ResolvedModel where
  requested : String
  mapped : String
deriving DecidableEq, Repr

structure SelectionRequest where
  group : String
  model : String
  attempt : Nat
  affinityHash : Option String
  excludeChannelIds : List String

structure Selection where
  channel : ChannelDoc
  model : ResolvedModel
  considered : Nat
deriving DecidableEq, Repr

/-- What a selection reads. A breaker or a pin that cannot be read is closed or
missing. The channel collection is read anew for each election, and `random` is
what that election draws. -/
structure SelectionStores where
  abilities : AbilityStores
  isOpen : String → Bool
  affinity : Option String
  channels : Nat → Except Thrown (Collection ChannelDoc)
  random : Nat → ℚ
  resolveModel : String → ChannelDoc → ResolvedModel

/-- Elections bounded by `fuel`, the i-th of them first. -/
def electAndVerify (stores : SelectionStores) (request : SelectionRequest)
    (affinityChannelId : Option String) : (fuel i : Nat) → List Candidate →
    Except Thrown ChannelDoc
  | 0, _, _ => .error (.gateway (noChannelAvailable request.model request.group))
  | fuel + 1, i, pool =>
      match electFrom pool ⟨request.attempt, affinityChannelId, stores.random i⟩ with
      | none => .error (.gateway (noChannelAvailable request.model request.group))
      | some elected =>
          match stores.channels i with
          | .error e => .error e
          | .ok channels =>
              let rest := pool.filter (fun c => c.channelId ≠ elected.channelId)
              match channels.find elected.channelId with
              | none => electAndVerify stores request affinityChannelId fuel (i + 1) rest
              | some channel =>
                  if serves channel request.group request.model then .ok channel
                  else electAndVerify stores request affinityChannelId fuel (i + 1) rest

/-- The candidates that were not tried and whose breaker is closed. -/
def healthyCandidates (stores : SelectionStores) (request : SelectionRequest) : List Candidate :=
  ((candidatesFor stores.abilities request.group request.model).filter
    (fun c => !request.excludeChannelIds.contains c.channelId)).filter
      (fun c => !stores.isOpen c.channelId)

def selectChannel (stores : SelectionStores) (request : SelectionRequest) :
    Except Thrown Selection :=
  let healthy := healthyCandidates stores request
  if healthy.isEmpty then .error (.gateway (noChannelAvailable request.model request.group))
  else
    let affinityChannelId := if request.affinityHash.isSome then stores.affinity else none
    match electAndVerify stores request affinityChannelId 8 0 healthy with
    | .error e => .error e
    | .ok channel => .ok ⟨channel, stores.resolveModel request.model channel, healthy.length⟩

theorem electAndVerify_spec {stores : SelectionStores} {request : SelectionRequest}
    {affinity : Option String} {fuel i : Nat} {pool : List Candidate} {channel : ChannelDoc}
    (elected : electAndVerify stores request affinity fuel i pool = .ok channel) :
    (∃ c ∈ pool, c.channelId = channel.id) ∧
      serves channel request.group request.model = true := by
  induction fuel generalizing i pool with
  | zero => exact nomatch elected
  | succ fuel ih =>
      have later : ∀ {keep : Candidate → Bool},
          electAndVerify stores request affinity fuel (i + 1) (pool.filter keep) = .ok channel →
            (∃ c ∈ pool, c.channelId = channel.id) ∧
              serves channel request.group request.model = true := by
        intro keep h
        obtain ⟨⟨c, hc, same⟩, hserves⟩ := ih h
        exact ⟨⟨c, (List.mem_filter.mp hc).1, same⟩, hserves⟩
      rw [electAndVerify] at elected
      split at elected
      · exact nomatch elected
      · next c picked =>
          split at elected
          · exact nomatch elected
          · next channels _ =>
              simp only at elected
              split at elected
              · exact later elected
              · next found stored =>
                  split at elected
                  · next hserves =>
                      cases elected
                      exact ⟨⟨c, (electFrom_spec picked).1, (Collection.key_of_find stored).symm⟩,
                        hserves⟩
                  · exact later elected

/-- A selected channel is a candidate that was not tried, is not open, and serves
the request when it is loaded. -/
theorem selectChannel_spec {stores : SelectionStores} {request : SelectionRequest}
    {selection : Selection} (selected : selectChannel stores request = .ok selection) :
    (∃ c ∈ candidatesFor stores.abilities request.group request.model,
        c.channelId = selection.channel.id) ∧
      selection.channel.id ∉ request.excludeChannelIds ∧
      stores.isOpen selection.channel.id = false ∧
      serves selection.channel request.group request.model = true := by
  rw [selectChannel] at selected
  simp only at selected
  split at selected
  · exact nomatch selected
  · split at selected
    · exact nomatch selected
    · next channel elected =>
        cases selected
        obtain ⟨⟨c, hc, same⟩, hserves⟩ := electAndVerify_spec elected
        obtain ⟨hc, closed⟩ := List.mem_filter.mp hc
        obtain ⟨hc, untried⟩ := List.mem_filter.mp hc
        simp only [same, Bool.not_eq_eq_eq_not, Bool.not_true, List.contains_eq_mem,
          decide_eq_false_iff_not] at untried closed
        exact ⟨⟨c, hc, same⟩, untried, closed, hserves⟩

/-- Whether the channel of a candidate, as a table has it, serves the request. -/
def verifies (channels : Collection ChannelDoc) (request : SelectionRequest)
    (c : Candidate) : Bool :=
  (channels.find c.channelId).any fun channel => serves channel request.group request.model

/-- The elected channel is the one that was read when it was verified. -/
theorem electAndVerify_read {stores : SelectionStores} {request : SelectionRequest}
    {affinity : Option String} {fuel i : Nat} {pool : List Candidate} {channel : ChannelDoc}
    (elected : electAndVerify stores request affinity fuel i pool = .ok channel) :
    ∃ j < i + fuel, ∃ channels, stores.channels j = .ok channels ∧
      channels.find channel.id = some channel := by
  induction fuel generalizing i pool with
  | zero => cases elected
  | succ fuel ih =>
      have later {rest : List Candidate}
          (h : electAndVerify stores request affinity fuel (i + 1) rest = .ok channel) :
          ∃ j < i + (fuel + 1), ∃ channels, stores.channels j = .ok channels ∧
            channels.find channel.id = some channel := by
        obtain ⟨j, before, read⟩ := ih h
        exact ⟨j, by omega, read⟩
      rw [electAndVerify] at elected
      cases picked : electFrom pool ⟨request.attempt, affinity, stores.random i⟩ with
      | none =>
          rw [picked] at elected
          cases elected
      | some c =>
          cases read : stores.channels i with
          | error e =>
              simp only [picked, read] at elected
              cases elected
          | ok channels =>
              simp only [picked, read] at elected
              cases found : channels.find c.channelId with
              | none =>
                  rw [found] at elected
                  exact later elected
              | some stored =>
                  rw [found] at elected
                  dsimp only at elected
                  split at elected
                  · cases elected
                    have key : channel.id = c.channelId := Collection.key_of_find found
                    exact ⟨i, by omega, channels, read, key ▸ found⟩
                  · exact later elected

/-- The candidates that some of the elections may turn down. -/
def unverified (tables : Nat → Collection ChannelDoc) (request : SelectionRequest)
    (pool : List Candidate) : List Candidate :=
  pool.filter fun c => (List.range 8).any fun i => !verifies (tables i) request c

/-- Each election that fails removes a candidate that fails verification, so as many elections as
there are of those, and one, find one that serves. -/
theorem electAndVerify_complete {stores : SelectionStores} {request : SelectionRequest}
    (affinity : Option String) {tables : Nat → Collection ChannelDoc}
    (read : ∀ i < 8, stores.channels i = .ok (tables i)) {fuel i : Nat} {pool : List Candidate}
    (within : i + fuel ≤ 8)
    (serving : ∃ c ∈ pool, ∀ i < 8, verifies (tables i) request c = true)
    (few : (unverified tables request pool).length < fuel) :
    ∃ channel, electAndVerify stores request affinity fuel i pool = .ok channel := by
  induction fuel generalizing i pool with
  | zero => omega
  | succ fuel ih =>
      obtain ⟨good, mem, steady⟩ := serving
      obtain ⟨elected, picked⟩ := exists_electFrom (List.ne_nil_of_mem mem)
        ⟨request.attempt, affinity, stores.random i⟩
      have verified : verifies (tables i) request elected =
        ((tables i).find elected.channelId).any fun channel =>
          serves channel request.group request.model := rfl
      -- An election that is turned down leaves the good candidate in, and the elected one out.
      have next (failed : verifies (tables i) request elected = false) :
          ∃ channel, electAndVerify stores request affinity fuel (i + 1)
            (pool.filter fun c => c.channelId ≠ elected.channelId) = .ok channel := by
        have other : good.channelId ≠ elected.channelId := by
          intro same
          have serves := steady i (by omega)
          rw [verifies, same, ← verifies, failed] at serves
          cases serves
        have dropped : elected ∈ unverified tables request pool :=
          List.mem_filter.mpr ⟨(electFrom_spec picked).1, List.any_eq_true.mpr
            ⟨i, List.mem_range.mpr (by omega), by rw [failed]; rfl⟩⟩
        have fewer : (unverified tables request
            (pool.filter fun c => c.channelId ≠ elected.channelId)).length <
              (unverified tables request pool).length := by
          have swap : unverified tables request
              (pool.filter fun c => c.channelId ≠ elected.channelId) =
                (unverified tables request pool).filter fun c => c.channelId ≠ elected.channelId := by
            rw [unverified, unverified, List.filter_comm]
          rw [swap]
          exact List.length_filter_lt_length_iff_exists.mpr ⟨elected, dropped, by simp⟩
        exact ih (by omega) ⟨good, List.mem_filter.mpr ⟨mem, decide_eq_true other⟩, steady⟩
          (by omega)
      rw [electAndVerify, picked]
      simp only [read i (by omega)]
      cases found : (tables i).find elected.channelId with
      | none => exact next (by rw [verified, found]; rfl)
      | some channel =>
          dsimp only
          split
          · exact ⟨channel, rfl⟩
          · next refused => exact next (by rw [verified, found]; simpa using refused)

/-- A selection is verified, and made if a healthy candidate serves and fewer than eight fail. -/
theorem selection_verified_and_complete (stores : SelectionStores) (request : SelectionRequest) :
    (∀ selection, selectChannel stores request = .ok selection →
      (∃ c ∈ candidatesFor stores.abilities request.group request.model,
        c.channelId = selection.channel.id) ∧
      selection.channel.id ∉ request.excludeChannelIds ∧
      stores.isOpen selection.channel.id = false ∧
      ∃ i < 8, ∃ channels, stores.channels i = .ok channels ∧
        channels.find selection.channel.id = some selection.channel ∧
        serves selection.channel request.group request.model = true) ∧
    ∀ tables, (∀ i < 8, stores.channels i = .ok (tables i)) →
      (∃ c ∈ healthyCandidates stores request, ∀ i < 8, verifies (tables i) request c = true) →
      (unverified tables request (healthyCandidates stores request)).length < 8 →
      ∃ selection, selectChannel stores request = .ok selection := by
  constructor
  · intro selection selected
    obtain ⟨listed, untried, closed, serving⟩ := selectChannel_spec selected
    refine ⟨listed, untried, closed, ?_⟩
    rw [selectChannel] at selected
    dsimp only at selected
    split at selected
    · cases selected
    · split at selected
      · cases selected
      · next channel elected =>
          cases selected
          obtain ⟨i, before, channels, read, found⟩ := electAndVerify_read elected
          exact ⟨i, by omega, channels, read, found, serving⟩
  · intro tables read serving few
    obtain ⟨c, mem, -⟩ := id serving
    have nonempty : (healthyCandidates stores request).isEmpty = false :=
      List.isEmpty_eq_false_iff.mpr (List.ne_nil_of_mem mem)
    obtain ⟨channel, elected⟩ := electAndVerify_complete
      (if request.affinityHash.isSome then stores.affinity else none) read (Nat.le_refl 8) serving few
    rw [selectChannel]
    simp only [nonempty, elected]
    exact ⟨_, rfl⟩

end Gateway
