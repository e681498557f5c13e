import Gateway.Routing.Bounded

/-!
How the retries walk down the tiers.

The attempt number picks a tier of the candidates that are left. While every
tier passed still has a channel, that is the tier of the same number among all
candidates; a tier of a single channel is gone after its attempt, and the next
attempt then lands one tier too low.
-/

namespace Gateway

variable {α : Type*}

/-- The candidates that were not tried. -/
def untried (all : List Candidate) (tried : List String) : List Candidate :=
  all.filter (fun c => !tried.contains c.channelId)

theorem mem_untried {all : List Candidate} {tried : List String} {c : Candidate} :
    c ∈ untried all tried ↔ c ∈ all ∧ c.channelId ∉ tried := by
  rw [untried, List.mem_filter]
  simp

section Priorities

/-- The priorities that are left are a filter of all of them. -/
theorem priorities_untried (all : List Candidate) (tried : List String) :
    priorities (untried all tried) =
      (priorities all).filter (fun p => decide (p ∈ priorities (untried all tried))) := by
  have sorted := (priorities_sorted all).filter
    (fun p => decide (p ∈ priorities (untried all tried)))
  refine List.Perm.eq_of_pairwise (fun a b _ _ h h' => absurd h' (lt_asymm h))
    (priorities_sorted _) sorted ?_
  refine (List.perm_ext_iff_of_nodup ((priorities_sorted _).imp ne_of_gt)
    (sorted.imp ne_of_gt)).mpr ?_
  intro p
  rw [List.mem_filter, decide_eq_true_eq]
  refine ⟨fun mem => ⟨?_, mem⟩, fun mem => mem.2⟩
  obtain ⟨c, hc, rfl⟩ := mem_priorities.mp mem
  exact mem_priorities.mpr ⟨c, (mem_untried.mp hc).1, rfl⟩

/-- The last tier is the one elected from once the attempts have passed all tiers. -/
theorem elected_last {all : List Candidate} {tried : List String} {i : Nat} {p : ℚ}
    (passed : (priorities all).length ≤ i + 1) (last : (priorities all).getLast? = some p)
    (left : p ∈ priorities (untried all tried)) :
    (priorities (untried all tried))[tierIndex i (priorities (untried all tried)).length]? =
      some p := by
  have shorter : (priorities (untried all tried)).length ≤ (priorities all).length := by
    rw [priorities_untried]
    exact List.length_filter_le _ _
  have index : tierIndex i (priorities (untried all tried)).length =
      (priorities (untried all tried)).length - 1 := by
    rw [tierIndex]
    omega
  rw [index, ← List.getLast?_eq_getElem?, priorities_untried]
  obtain ⟨front, split⟩ := List.getLast?_eq_some_iff.mp last
  rw [split, List.filter_append, List.filter_cons_of_pos (by simpa using left), List.filter_nil,
    List.getLast?_append_cons, List.getLast?_singleton]

/-- While every tier passed is left, the attempt is on the tier of its number. -/
theorem elected_walk {all : List Candidate} {tried : List String} {i : Nat}
    (bound : i < (priorities all).length)
    (left : ∀ p ∈ (priorities all).take (i + 1), p ∈ priorities (untried all tried)) :
    (priorities (untried all tried))[tierIndex i (priorities (untried all tried)).length]? =
      (priorities all)[i]? := by
  have split : priorities (untried all tried) = (priorities all).take (i + 1) ++
      ((priorities all).drop (i + 1)).filter
        (fun p => decide (p ∈ priorities (untried all tried))) := by
    conv_lhs => rw [priorities_untried, ← List.take_append_drop (i + 1) (priorities all)]
    rw [List.filter_append, List.filter_eq_self.mpr (by simpa using left)]
  have length : i + 1 ≤ (priorities (untried all tried)).length := by
    rw [split, List.length_append, List.length_take]
    omega
  have index : tierIndex i (priorities (untried all tried)).length = i := by
    rw [tierIndex]
    omega
  rw [index, split, List.getElem?_append_left (by rw [List.length_take]; omega),
    List.getElem?_take, if_pos (Nat.lt_succ_self i)]

/-- When the tier before is gone and the ones around it are left, the attempt
lands one tier too low. -/
theorem elected_skip {all : List Candidate} {tried : List String} {j : Nat}
    (bound : j + 2 < (priorities all).length)
    (left : ∀ k p, k ≤ j + 2 → k ≠ j → (priorities all)[k]? = some p →
      p ∈ priorities (untried all tried))
    (gone : ∀ p, (priorities all)[j]? = some p → p ∉ priorities (untried all tried)) :
    (priorities (untried all tried))[tierIndex (j + 1) (priorities (untried all tried)).length]? =
      (priorities all)[j + 2]? := by
  have front : ((priorities all).take j).filter
      (fun p => decide (p ∈ priorities (untried all tried))) = (priorities all).take j := by
    refine List.filter_eq_self.mpr fun p mem => ?_
    obtain ⟨k, hk, same⟩ := List.mem_take_iff_getElem.mp mem
    refine decide_eq_true (left k p (by omega) (by omega) ?_)
    rw [List.getElem?_eq_getElem (by omega), same]
  have split : priorities (untried all tried) = (priorities all).take j ++
      ((priorities all)[j + 1] :: (priorities all)[j + 2] ::
        ((priorities all).drop (j + 3)).filter
          (fun p => decide (p ∈ priorities (untried all tried)))) := by
    conv_lhs => rw [priorities_untried, ← List.take_append_drop j (priorities all)]
    rw [List.filter_append, front, List.drop_eq_getElem_cons (by omega),
      List.drop_eq_getElem_cons (by omega), List.drop_eq_getElem_cons (by omega),
      List.filter_cons_of_neg (by simpa using gone _ (List.getElem?_eq_getElem _)),
      List.filter_cons_of_pos
        (by simpa using left (j + 1) _ (by omega) (by omega) (List.getElem?_eq_getElem _)),
      List.filter_cons_of_pos
        (by simpa using left (j + 2) _ (by omega) (by omega) (List.getElem?_eq_getElem _))]
  have taken : ((priorities all).take j).length = j := by
    rw [List.length_take]
    omega
  have length : j + 2 ≤ (priorities (untried all tried)).length := by
    rw [split, List.length_append, taken]
    simp only [List.length_cons]
    omega
  have index : tierIndex (j + 1) (priorities (untried all tried)).length = j + 1 := by
    rw [tierIndex]
    omega
  rw [index, split, List.getElem?_append_right (by rw [taken]; omega), taken,
    Nat.add_sub_cancel_left, List.getElem?_cons_succ, List.getElem?_cons_zero,
    List.getElem?_eq_getElem]

end Priorities

/-- The channels stay as they are during the run: they are the candidates, none
is open, each serves the request and has a key, and every attempt fails with an
error that is retried. -/
structure Steady (request : RetryRequest) (rounds : Nat → Round α) (all : List Candidate) :
    Prop where
  distinct : (all.map Candidate.channelId).Nodup
  candidates : ∀ i,
    candidatesFor (rounds i).selection.abilities request.group request.model = all
  healthy : ∀ i, ∀ c ∈ all, (rounds i).selection.isOpen c.channelId = false
  eligible : ∀ i k, ∃ channels, (rounds i).selection.channels k = .ok channels ∧
    ∀ c ∈ all, ∃ channel, channels.find c.channelId = some channel ∧
      serves channel request.group request.model = true
  keyed : ∀ i, ∀ c ∈ all, ∀ skip, ∃ key,
    pickChannelKey (rounds i).keys c.channelId skip = .ok key
  failing : ∀ i context, ∃ thrown, (rounds i).attempt context = .error thrown ∧
    shouldRetryError (gatewayErrorFrom thrown) = true

/-- No abort and no deadline cuts the run short. -/
structure Uninterrupted (rounds : Nat → Round α) : Prop where
  alive : ∀ i, (rounds i).aborted = false
  starts : ∀ i, (rounds i).remainingAtStart ≠ 0
  continues : ∀ i, (rounds i).remainingAfter ≠ 0
  awake : ∀ i, (rounds i).sleepAborted = false

/-- The tier attempt `n` is to be made on. -/
def wantedTier (all : List Candidate) (n : Nat) : List Candidate :=
  ((tiersOf all)[tierIndex n (tiersOf all).length]?).getD []

/-- A call is on the wanted tier, as long as that has a channel not yet tried. -/
def OnWantedTier (all : List Candidate) (past : List (RetryEvent α)) (context : AttemptContext) :
    Prop :=
  (∃ c ∈ wantedTier all (calls past).length,
      c.channelId ∉ (calls past).map (fun call => call.1.channel.id)) →
    ∃ c ∈ wantedTier all (calls past).length, c.channelId = context.channel.id

/-- Every attempt of a run is on the wanted tier. -/
def WalksTiers (all : List Candidate) (events : List (RetryEvent α)) : Prop :=
  ∀ past context outcome later, events = past ++ .call context outcome :: later →
    OnWantedTier all past context

/-- No tier before the last two that the attempts walk through has a single channel. -/
def TiersLast (all : List Candidate) (limit : Int) : Prop :=
  ∀ j tier, (tiersOf all)[j]? = some tier → j + 2 < (tiersOf all).length →
    (j : Int) + 1 < limit → 2 ≤ tier.length

section Steady

variable {request : RetryRequest} {rounds : Nat → Round α} {all : List Candidate}

theorem wantedTier_eq {n : Nat} {p : ℚ}
    (h : (priorities all)[tierIndex n (priorities all).length]? = some p) :
    wantedTier all n = tierAt all p := by
  rw [wantedTier, tiersOf_eq, List.length_map, List.getElem?_map, h]
  rfl

theorem eq_of_channelId (steady : Steady request rounds all) {c d : Candidate} (hc : c ∈ all)
    (hd : d ∈ all) (same : c.channelId = d.channelId) : c = d :=
  List.inj_on_of_nodup_map steady.distinct hc hd same

theorem healthyCandidates_steady (steady : Steady request rounds all) (i : Nat) (s : RetryState) :
    healthyCandidates (rounds i).selection (selectionRequest request i s) =
      untried all s.triedChannels := by
  rw [healthyCandidates, selectionRequest, steady.candidates, untried]
  refine List.filter_eq_self.mpr fun c hc => ?_
  rw [steady.healthy i c (List.mem_filter.mp hc).1]
  rfl

/-- The first election is final: what it elects is loaded and serves. -/
theorem electAndVerify_steady (steady : Steady request rounds all) {i fuel k : Nat}
    {r : SelectionRequest} (hr : r.group = request.group ∧ r.model = request.model)
    {affinity : Option String} {pool : List Candidate} (sub : ∀ c ∈ pool, c ∈ all)
    (nonempty : pool ≠ []) :
    ∃ c ∈ pool, ∃ channel, electAndVerify (rounds i).selection r affinity (fuel + 1) k pool =
        .ok channel ∧ channel.id = c.channelId ∧
      (priorities pool)[tierIndex r.attempt (priorities pool).length]? = some c.priority := by
  obtain ⟨c, elected⟩ := exists_electFrom nonempty
    ⟨r.attempt, affinity, (rounds i).selection.random k⟩
  obtain ⟨hc, tier⟩ := electFrom_spec elected
  obtain ⟨channels, read, eligible⟩ := steady.eligible i k
  obtain ⟨channel, found, hserves⟩ := eligible c (sub c hc)
  refine ⟨c, hc, channel, ?_, Collection.key_of_find found, tier⟩
  simp only [electAndVerify, elected, read, found, hr, hserves, if_true]

/-- What is selected while an untried channel is left. -/
theorem selectChannel_steady (steady : Steady request rounds all) {i : Nat} {s : RetryState}
    (left : untried all s.triedChannels ≠ []) :
    ∃ c ∈ untried all s.triedChannels, ∃ selection,
      selectChannel (rounds i).selection (selectionRequest request i s) = .ok selection ∧
        selection.channel.id = c.channelId ∧
        (priorities (untried all s.triedChannels))[tierIndex i
          (priorities (untried all s.triedChannels)).length]? = some c.priority := by
  obtain ⟨c, hc, channel, elected, same, tier⟩ :=
    @electAndVerify_steady α request rounds all steady i 7 0 (selectionRequest request i s)
      ⟨rfl, rfl⟩ (if (selectionRequest request i s).affinityHash.isSome then
        (rounds i).selection.affinity else none)
      (untried all s.triedChannels) (fun d hd => (mem_untried.mp hd).1) left
  refine ⟨c, hc, ⟨channel, (rounds i).selection.resolveModel request.model channel,
    (untried all s.triedChannels).length⟩, ?_, same, tier⟩
  rw [selectChannel, healthyCandidates_steady steady, List.isEmpty_eq_false_iff.mpr left]
  simp only [Nat.reduceAdd] at elected
  simp only [Bool.false_eq_true, if_false, elected]
  rfl

/-- A selection among steady channels is the election among the untried ones. -/
theorem selected_steady (steady : Steady request rounds all) {i : Nat} {s : RetryState}
    {selection : Selection}
    (selected : selectChannel (rounds i).selection (selectionRequest request i s) =
      .ok selection) :
    ∃ c ∈ untried all s.triedChannels, selection.channel.id = c.channelId ∧
      (priorities (untried all s.triedChannels))[tierIndex i
        (priorities (untried all s.triedChannels)).length]? = some c.priority := by
  have left : untried all s.triedChannels ≠ [] := by
    intro none
    rw [selectChannel, healthyCandidates_steady steady, none] at selected
    cases selected
  obtain ⟨c, hc, selection', selected', same, tier⟩ :=
    @selectChannel_steady α request rounds all steady i s left
  cases selected.symm.trans selected'
  exact ⟨c, hc, same, tier⟩

/-- The first `i` attempts were made on the first `i` tiers, one on each; past
the last tier it is only known which channels were tried. -/
structure Walked (all : List Candidate) (i : Nat) (s : RetryState) (past : List (RetryEvent α)) :
    Prop where
  tried : (calls past).map (fun call => call.1.channel.id) = s.triedChannels
  count : (calls past).length = i
  route : i < (priorities all).length → ∃ chosen : List Candidate, (∀ c ∈ chosen, c ∈ all) ∧
    chosen.map Candidate.channelId = s.triedChannels ∧
    chosen.map Candidate.priority = (priorities all).take i

variable {i : Nat} {s : RetryState} {past : List (RetryEvent α)}

theorem walked_start : Walked all 0 ⟨[], [], none⟩ ([] : List (RetryEvent α)) :=
  ⟨rfl, rfl, fun _ => ⟨[], by simp⟩⟩

theorem mem_priorities_untried {p : ℚ} :
    p ∈ priorities (untried all s.triedChannels) ↔
      ∃ c ∈ tierAt all p, c.channelId ∉ s.triedChannels := by
  simp only [mem_priorities, mem_untried, mem_tierAt]
  constructor
  · rintro ⟨c, ⟨hc, fresh⟩, same⟩
    exact ⟨c, ⟨hc, same⟩, fresh⟩
  · rintro ⟨c, ⟨hc, same⟩, fresh⟩
    exact ⟨c, ⟨hc, fresh⟩, same⟩

/-- The channels tried are the chosen ones. -/
theorem mem_chosen (steady : Steady request rounds all) {chosen : List Candidate}
    (sub : ∀ c ∈ chosen, c ∈ all) (tried : chosen.map Candidate.channelId = s.triedChannels)
    {c : Candidate} (hc : c ∈ all) (htried : c.channelId ∈ s.triedChannels) : c ∈ chosen := by
  rw [← tried] at htried
  obtain ⟨d, hd, same⟩ := List.mem_map.mp htried
  rwa [← eq_of_channelId steady (sub d hd) hc same]

theorem priorities_nodup (candidates : List Candidate) : (priorities candidates).Nodup :=
  (priorities_sorted candidates).imp ne_of_gt

/-- A tier that was not reached is untouched. -/
theorem untouched (steady : Steady request rounds all) (walked : Walked all i s past)
    (bound : i < (priorities all).length) {k : Nat} (later : i ≤ k) {p : ℚ}
    (hp : (priorities all)[k]? = some p) {c : Candidate} (hc : c ∈ tierAt all p) :
    c.channelId ∉ s.triedChannels := by
  intro htried
  obtain ⟨chosen, sub, tried, route⟩ := walked.route bound
  obtain ⟨hall, rfl⟩ := mem_tierAt.mp hc
  have mem := List.mem_map_of_mem (f := Candidate.priority) (mem_chosen steady sub tried hall htried)
  rw [route, List.mem_take_iff_getElem] at mem
  obtain ⟨m, hm, same⟩ := mem
  obtain ⟨hk, same'⟩ := List.getElem?_eq_some_iff.mp hp
  have index : m = k :=
    (List.Nodup.getElem_inj_iff (priorities_nodup all)).mp (same.trans same'.symm)
  omega

theorem untouched_left (steady : Steady request rounds all) (walked : Walked all i s past)
    (bound : i < (priorities all).length) {k : Nat} (later : i ≤ k) {p : ℚ}
    (hp : (priorities all)[k]? = some p) : p ∈ priorities (untried all s.triedChannels) := by
  obtain ⟨c, hc⟩ := List.exists_mem_of_ne_nil _ (tierAt_ne_nil (List.mem_of_getElem? hp))
  exact mem_priorities_untried.mpr ⟨c, hc, untouched steady walked bound later hp hc⟩

/-- Of two channels of one tier no more than one was chosen. -/
theorem chosen_once {chosen : List Candidate}
    (route : chosen.map Candidate.priority = (priorities all).take i)
    {c d : Candidate} (hc : c ∈ chosen) (hd : d ∈ chosen) (same : c.priority = d.priority) :
    c = d := by
  have distinct : (chosen.map Candidate.priority).Nodup := by
    rw [route]
    exact (priorities_nodup all).sublist (List.take_sublist _ _)
  exact List.inj_on_of_nodup_map distinct hc hd same

theorem passed_left (steady : Steady request rounds all) (walked : Walked all i s past)
    (bound : i < (priorities all).length) {p : ℚ} (several : 2 ≤ (tierAt all p).length) :
    p ∈ priorities (untried all s.triedChannels) := by
  obtain ⟨chosen, sub, tried, route⟩ := walked.route bound
  rw [mem_priorities_untried]
  by_contra none
  have taken : ∀ c ∈ tierAt all p, c ∈ chosen := by
    intro c hc
    refine mem_chosen steady sub tried (mem_tierAt.mp hc).1 (Classical.not_not.mp fun fresh => ?_)
    exact none ⟨c, hc, fresh⟩
  have distinct : (tierAt all p).Nodup :=
    (List.Nodup.of_map _ steady.distinct).sublist List.filter_sublist
  match h : tierAt all p with
  | [] | [_] => simp [h] at several
  | c :: d :: rest =>
      rw [h] at taken distinct
      have hc : c ∈ tierAt all p := h ▸ List.mem_cons_self
      have hd : d ∈ tierAt all p := h ▸ List.mem_cons_of_mem _ List.mem_cons_self
      have same := chosen_once route (taken c List.mem_cons_self)
        (taken d (List.mem_cons_of_mem _ List.mem_cons_self))
        ((mem_tierAt.mp hc).2.trans (mem_tierAt.mp hd).2.symm)
      exact (List.nodup_cons.mp distinct).1 (same ▸ List.mem_cons_self)

/-- A tier of a single channel is gone once it was passed. -/
theorem passed_gone (walked : Walked all i s past) (bound : i < (priorities all).length)
    {k : Nat} (earlier : k < i) {p : ℚ} (hp : (priorities all)[k]? = some p)
    (single : (tierAt all p).length < 2) : p ∉ priorities (untried all s.triedChannels) := by
  obtain ⟨chosen, sub, tried, route⟩ := walked.route bound
  rw [mem_priorities_untried]
  rintro ⟨c, hc, fresh⟩
  have mem : p ∈ chosen.map Candidate.priority := by
    rw [route]
    exact List.mem_of_getElem? ((List.getElem?_take_of_lt earlier).trans hp)
  obtain ⟨d, hd, same⟩ := List.mem_map.mp mem
  have hdt : d ∈ tierAt all p := mem_tierAt.mpr ⟨sub d hd, same⟩
  have only : c = d := by
    match h : tierAt all p with
    | [] => exact nomatch h ▸ hc
    | [e] =>
        rw [h, List.mem_singleton] at hc hdt
        exact hc.trans hdt.symm
    | _ :: _ :: _ =>
        rw [h] at single
        simp only [List.length_cons] at single
        omega
  exact fresh (tried ▸ only ▸ List.mem_map_of_mem hd)

/-- The attempt elects from its own tier while no tier passed was a single channel. -/
theorem elected_own (steady : Steady request rounds all) (walked : Walked all i s past)
    (bound : i + 1 < (priorities all).length)
    (several : ∀ k p, k < i → (priorities all)[k]? = some p → 2 ≤ (tierAt all p).length)
    {c : Candidate}
    (elected : (priorities (untried all s.triedChannels))[tierIndex i
      (priorities (untried all s.triedChannels)).length]? = some c.priority) :
    (priorities all)[i]? = some c.priority := by
  rw [← elected, eq_comm]
  refine elected_walk (Nat.lt_of_succ_lt bound) fun p mem => ?_
  obtain ⟨k, hk, same⟩ := List.mem_take_iff_getElem.mp mem
  have hp : (priorities all)[k]? = some p := by
    rw [List.getElem?_eq_getElem (by omega), same]
  rcases Nat.lt_or_ge k i with earlier | later
  · exact passed_left steady walked (Nat.lt_of_succ_lt bound) (several k p earlier hp)
  · exact untouched_left steady walked (Nat.lt_of_succ_lt bound) later hp

/-- The record after an attempt on the tier of its number. -/
theorem walked_called {limit : Nat} {s' : RetryState} {after : List (RetryEvent α)}
    {context : AttemptContext} {outcome : Except GatewayError α} (walked : Walked all i s past)
    (concluded : Concluded limit i s context outcome after (.next s')) {c : Candidate}
    (hc : c ∈ all) (same : context.channel.id = c.channelId)
    (own : i + 1 < (priorities all).length → (priorities all)[i]? = some c.priority) :
    Walked all (i + 1) s' (past ++ .call context outcome :: after) := by
  obtain ⟨failure, rfl, -, -, -, rfl⟩ := concluded.next s' rfl
  have added : calls (.call context (.error failure) :: after) = [(context, .error failure)] := by
    change (context, .error failure) :: calls after = _
    rw [concluded.quiet]
  refine ⟨?_, ?_, fun bound => ?_⟩
  · rw [calls_append, added, List.map_append, walked.tried]
    rfl
  · rw [calls_append, added, List.length_append, walked.count]
    rfl
  · obtain ⟨chosen, sub, tried, route⟩ := walked.route (Nat.lt_of_succ_lt bound)
    refine ⟨chosen ++ [c], ?_, ?_, ?_⟩
    · intro d hd
      rcases List.mem_append.mp hd with hd | hd
      · exact sub d hd
      · rwa [List.mem_singleton.mp hd]
    · rw [List.map_append, tried, List.map_singleton, same]
    · rw [List.map_append, route, List.map_singleton, List.take_add_one, own bound]
      rfl

theorem tierIndex_of_lt {n tiers : Nat} (h : n < tiers) : tierIndex n tiers = n := by
  rw [tierIndex]
  omega

/-- Every attempt from a state on stays on the wanted tiers. -/
theorem retryLoop_walks (steady : Steady request rounds all) {limit : Nat}
    (last : TiersLast all limit) (fuel i : Nat) (s : RetryState) (past : List (RetryEvent α))
    (left : fuel + i = limit) (walked : Walked all i s past) :
    EachCall (OnWantedTier all) past (retryLoop request limit rounds fuel i s).1 := by
  induction fuel generalizing i s past with
  | zero => trivial
  | succ fuel ih =>
      have cases := iterate_cases request limit i (rounds i) s
      rw [retryLoop]
      generalize iterate request limit i (rounds i) s = iteration at cases
      cases cases with
      | ended result => trivial
      | keyUnavailable selected failed =>
          obtain ⟨c, hc, same, -⟩ := selected_steady steady selected
          obtain ⟨key, picked⟩ := steady.keyed i c (mem_untried.mp hc).1 s.triedKeys
          rw [same, picked] at failed
          cases failed
      | @called context outcome after step reached concluded =>
          obtain ⟨selection, selected, channel⟩ := reached.selected
          obtain ⟨c, hc, same, elected⟩ := selected_steady steady selected
          rw [channel] at same
          have hall := (mem_untried.mp hc).1
          have own : i + 1 < (priorities all).length → (priorities all)[i]? = some c.priority := by
            intro bound
            refine elected_own steady walked bound (fun k p earlier hp => ?_) elected
            refine last k _ ?_ ?_ (by omega)
            · rw [tiersOf_eq, List.getElem?_map, hp]
              rfl
            · rw [tiersOf_eq, List.length_map]
              omega
          have onTier : OnWantedTier all past context := by
            rw [OnWantedTier, walked.count]
            rintro ⟨d, hd, fresh⟩
            refine ⟨c, ?_, same.symm⟩
            rcases Nat.lt_or_ge (i + 1) (priorities all).length with bound | passed
            · have index : (priorities all)[tierIndex i (priorities all).length]? =
                  some c.priority := by
                rw [tierIndex_of_lt (Nat.lt_of_succ_lt bound), own bound]
              rw [wantedTier_eq index]
              exact mem_tierAt.mpr ⟨hall, rfl⟩
            · have nonempty : priorities all ≠ [] :=
                List.ne_nil_of_mem (mem_priorities.mpr ⟨c, hall, rfl⟩)
              have index : (priorities all)[tierIndex i (priorities all).length]? =
                  some ((priorities all).getLast nonempty) := by
                have position : tierIndex i (priorities all).length =
                    (priorities all).length - 1 := by
                  rw [tierIndex]
                  omega
                rw [position, ← List.getLast?_eq_getElem?, List.getLast?_eq_some_getLast nonempty]
              rw [wantedTier_eq index] at hd ⊢
              rw [walked.tried] at fresh
              have elected' := elected_last passed (List.getLast?_eq_some_getLast nonempty)
                (mem_priorities_untried.mpr ⟨d, hd, fresh⟩)
              rw [elected'] at elected
              exact mem_tierAt.mpr ⟨hall, (Option.some.inj elected).symm⟩
          have single : EachCall (OnWantedTier all) past (.call context outcome :: after) :=
            eachCall_single onTier concluded.quiet
          cases step with
          | stop result => exact single
          | next s' =>
              exact eachCall_append single (ih (i + 1) s' _ (by omega)
                (walked_called walked concluded hall same own))

/-- An iteration that nothing interrupts reaches the callback, and goes on unless
it was the last one. -/
theorem iterate_uninterrupted (steady : Steady request rounds all) (free : Uninterrupted rounds)
    (limit : Nat) (left : untried all s.triedChannels ≠ []) :
    ∃ c ∈ all, ∃ context outcome after step,
      iterate request limit i (rounds i) s = (.call context outcome :: after, step) ∧
        Concluded limit i s context outcome after step ∧ context.channel.id = c.channelId ∧
        (priorities (untried all s.triedChannels))[tierIndex i
          (priorities (untried all s.triedChannels)).length]? = some c.priority ∧
        (i + 1 ≠ limit → ∃ s', step = .next s') := by
  obtain ⟨c, hc, selection, selected, same, elected⟩ :=
    @selectChannel_steady α request rounds all steady i s left
  have hall := (mem_untried.mp hc).1
  obtain ⟨key, picked⟩ := steady.keyed i c hall s.triedKeys
  rw [← same] at picked
  let context : AttemptContext :=
    ⟨i, selection.channel, selection.model, key, (rounds i).remainingAtCall⟩
  obtain ⟨thrown, failed, retry⟩ := steady.failing i context
  obtain ⟨after, step, events, concluded⟩ := afterFailure_concluded limit i (rounds i) s context
    (gatewayErrorFrom thrown)
  refine ⟨c, hall, context, .error (gatewayErrorFrom thrown), after, step, ?_, concluded, same,
    elected, fun more => ?_⟩
  · rw [iterate, free.alive i, if_neg (free.starts i)]
    simp only [Bool.false_eq_true, if_false, selected, picked]
    simp only [failed, context] at events ⊢
    exact events
  · rw [afterFailure] at events
    simp only [retry, Bool.not_true, Bool.false_eq_true, if_false, more, free.continues i, or_self,
      free.awake i] at events
    split at events
    · exact ⟨_, (Prod.mk.inj events).2.symm⟩
    · exact ⟨_, (Prod.mk.inj events).2.symm⟩

/-- In an uninterrupted run that stays on the wanted tiers every tier is reached
by the attempt of its number. -/
theorem run_reaches (steady : Steady request rounds all) (free : Uninterrupted rounds)
    {limit : Nat}
    (walks : WalksTiers all (retryLoop request limit rounds limit 0 ⟨[], [], none⟩).1) (i : Nat)
    (hlimit : i < limit) (htiers : i < (priorities all).length) :
    ∃ s past, Walked all i s past ∧
      (retryLoop request limit rounds limit 0 ⟨[], [], none⟩).1 =
        past ++ (retryLoop request limit rounds (limit - i) i s).1 := by
  induction i with
  | zero => exact ⟨_, _, walked_start, rfl⟩
  | succ i ih =>
      obtain ⟨s, past, walked, run⟩ := ih (Nat.lt_of_succ_lt hlimit) (Nat.lt_of_succ_lt htiers)
      have bound := Nat.lt_of_succ_lt htiers
      have hp : (priorities all)[i]? = some (priorities all)[i] := List.getElem?_eq_getElem bound
      obtain ⟨d, hd⟩ := List.exists_mem_of_ne_nil _ (tierAt_ne_nil (List.getElem_mem bound))
      have fresh := untouched steady walked bound (Nat.le_refl i) hp hd
      obtain ⟨c, hall, context, outcome, after, step, iterated, concluded, same, -, more⟩ :=
        iterate_uninterrupted steady free limit (i := i)
          (List.ne_nil_of_mem (mem_untried.mpr ⟨(mem_tierAt.mp hd).1, fresh⟩))
      obtain ⟨s', rfl⟩ := more (Nat.ne_of_lt hlimit)
      have unfolded : (retryLoop request limit rounds (limit - i) i s).1 =
          .call context outcome :: (after ++
            (retryLoop request limit rounds (limit - (i + 1)) (i + 1) s').1) := by
        obtain ⟨fuel, hfuel⟩ : ∃ fuel, limit - i = fuel + 1 := ⟨limit - i - 1, by omega⟩
        have hfuel' : limit - (i + 1) = fuel := by omega
        rw [hfuel, hfuel', retryLoop, iterated]
        rfl
      have onTier : OnWantedTier all past context := by
        rw [unfolded] at run
        exact walks past context outcome _ run
      rw [OnWantedTier, walked.count, wantedTier_eq (by rw [tierIndex_of_lt bound, hp]),
        walked.tried] at onTier
      obtain ⟨e, he, hid⟩ := onTier ⟨d, hd, fresh⟩
      have chosen : e = c := eq_of_channelId steady (mem_tierAt.mp he).1 hall (hid.trans same)
      have own : (priorities all)[i]? = some c.priority := by
        rw [hp, ← (mem_tierAt.mp he).2, chosen]
      refine ⟨s', _, walked_called walked concluded hall same (fun _ => own), ?_⟩
      rw [run, unfolded]
      simp

/-- An uninterrupted run that stays on the wanted tiers passes no tier of a
single channel before the last two. -/
theorem tiersLast_of_walks (steady : Steady request rounds all) (free : Uninterrupted rounds)
    {limit : Nat}
    (walks : WalksTiers all (retryLoop request limit rounds limit 0 ⟨[], [], none⟩).1) :
    TiersLast all limit := by
  intro j
  induction j using Nat.strong_induction_on with
  | _ j earlier =>
      intro tier htier bound hlimit
      rw [tiersOf_eq, List.getElem?_map, Option.map_eq_some_iff] at htier
      obtain ⟨p, hp, rfl⟩ := htier
      rw [tiersOf_eq, List.length_map] at bound
      by_contra single
      obtain ⟨s, past, walked, run⟩ := run_reaches steady free walks (j + 1) (by omega) (by omega)
      have reached : j + 1 < (priorities all).length := by omega
      have hp1 : (priorities all)[j + 1]? = some (priorities all)[j + 1] :=
        List.getElem?_eq_getElem reached
      obtain ⟨d, hd⟩ := List.exists_mem_of_ne_nil _ (tierAt_ne_nil (List.getElem_mem reached))
      have fresh := untouched steady walked reached (Nat.le_refl _) hp1 hd
      obtain ⟨c, hall, context, outcome, after, step, iterated, -, same, elected, -⟩ :=
        iterate_uninterrupted steady free limit (i := j + 1)
          (List.ne_nil_of_mem (mem_untried.mpr ⟨(mem_tierAt.mp hd).1, fresh⟩))
      have skipped : (priorities all)[j + 2]? = some c.priority := by
        rw [← elected, eq_comm]
        refine elected_skip bound (fun k q hk other hq => ?_) (fun q hq => ?_)
        · rcases Nat.lt_or_ge k j with before | later
          · refine passed_left steady walked reached (earlier k before _ ?_ ?_ (by omega))
            · rw [tiersOf_eq, List.getElem?_map, hq]
              rfl
            · rw [tiersOf_eq, List.length_map]
              omega
          · exact untouched_left steady walked reached (by omega) hq
        · cases hp.symm.trans hq
          exact passed_gone walked reached (Nat.lt_succ_self j) hp (by omega)
      obtain ⟨fuel, hfuel⟩ : ∃ fuel, limit - (j + 1) = fuel + 1 := ⟨limit - (j + 1) - 1, by omega⟩
      have onTier : OnWantedTier all past context := by
        rw [hfuel, retryLoop, iterated] at run
        cases step with
        | stop result => exact walks past context outcome after run
        | next s' => exact walks past context outcome _ run
      rw [OnWantedTier, walked.count, wantedTier_eq (by rw [tierIndex_of_lt reached, hp1]),
        walked.tried] at onTier
      obtain ⟨e, he, hid⟩ := onTier ⟨d, hd, fresh⟩
      have chosen : e = c := eq_of_channelId steady (mem_tierAt.mp he).1 hall (hid.trans same)
      obtain ⟨hj2, same2⟩ := List.getElem?_eq_some_iff.mp skipped
      have priority : (priorities all)[j + 1] = (priorities all)[j + 2] := by
        rw [same2, ← chosen]
        exact (mem_tierAt.mp he).2.symm
      have index := (List.Nodup.getElem_inj_iff (priorities_nodup all)).mp priority
      omega

end Steady

/-- The retries of a run over steady channels walk down the tiers when no tier
before the last two that the attempts pass has a single channel, and an
uninterrupted run does so in no other case. -/
theorem retries_walk_tiers (retryTimes : Int) {request : RetryRequest}
    {rounds : Nat → Round α} {all : List Candidate} (steady : Steady request rounds all) :
    (TiersLast all (attemptLimit retryTimes request) →
        WalksTiers all (withChannelRetry retryTimes request rounds).1) ∧
      (Uninterrupted rounds → WalksTiers all (withChannelRetry retryTimes request rounds).1 →
        TiersLast all (attemptLimit retryTimes request)) := by
  have positive : ((attemptLimit retryTimes request).toNat : Int) =
      attemptLimit retryTimes request := by
    rw [attemptLimit]
    omega
  rw [← positive]
  constructor
  · intro last past context outcome later split
    exact eachCall_split (retryLoop_walks steady last _ 0 ⟨[], [], none⟩ [] rfl walked_start) split
  · intro free walks
    exact tiersLast_of_walks steady free walks

section Populations

theorem steady_steadyRound {channels : Collection ChannelDoc} {keys : Collection ChannelKeyDoc}
    {request : RetryRequest} {all : List Candidate}
    (distinct : (all.map Candidate.channelId).Nodup)
    (candidates : candidatesFor ⟨none, none, some channels⟩ request.group request.model = all)
    (eligible : ∀ c ∈ all, (channels.find c.channelId).any
      (fun channel => serves channel request.group request.model) = true)
    (keyed : ∀ c ∈ all, listChannelKeys keys c.channelId ≠ []) :
    Steady request (fun _ => steadyRound channels keys) all where
  distinct := distinct
  candidates _ := candidates
  healthy _ _ _ := rfl
  eligible _ _ := ⟨channels, rfl, fun c hc => (Option.any_eq_true _ _).mp (eligible c hc)⟩
  keyed _ c hc skip := exists_pickChannelKey rfl (fun _ => ⟨_, rfl⟩) (keyed c hc) skip
  failing _ _ := ⟨_, rfl, by decide⟩

theorem uninterrupted_steadyRound (channels : Collection ChannelDoc)
    (keys : Collection ChannelKeyDoc) : Uninterrupted (fun _ => steadyRound channels keys) :=
  ⟨fun _ => rfl, fun _ => Nat.succ_ne_zero 999, fun _ => Nat.succ_ne_zero 999, fun _ => rfl⟩

def tierChannel (id : String) (priority : ℚ) : ChannelDoc :=
  ⟨id, .enabled, priority, 0, ["default"], ["gpt-4o"]⟩

def tierKeys : Collection ChannelKeyDoc :=
  ⟨["a", "b", "c", "d"].map (fun id => crowdedKey id id 0), by decide +kernel⟩

/-- One channel in each of three tiers. -/
def singleTiers : Collection ChannelDoc :=
  ⟨[tierChannel "a" 10, tierChannel "b" 5, tierChannel "c" 1], by decide⟩

def singleCandidates : List Candidate := [⟨"a", 10, 0⟩, ⟨"b", 5, 0⟩, ⟨"c", 1, 0⟩]

/-- The second attempt skips the tier of the second channel. -/
theorem tier_skipped :
    Steady crowdedRequest (fun _ => steadyRound singleTiers tierKeys) singleCandidates ∧
      ¬WalksTiers singleCandidates
        (withChannelRetry 2 crowdedRequest (fun _ => steadyRound singleTiers tierKeys)).1 := by
  have steady : Steady crowdedRequest (fun _ => steadyRound singleTiers tierKeys)
      singleCandidates :=
    steady_steadyRound (by decide) (by decide +kernel) (by decide +kernel) (by decide +kernel)
  refine ⟨steady, fun walks => ?_⟩
  have last : TiersLast singleCandidates (2 : Nat) :=
    tiersLast_of_walks steady (uninterrupted_steadyRound singleTiers tierKeys) walks
  exact absurd (last 0 [⟨"a", 10, 0⟩] (by decide +kernel) (by decide +kernel) (by decide))
    (by decide)

/-- Two channels in the first of three tiers. -/
def pairedTiers : Collection ChannelDoc :=
  ⟨[tierChannel "a" 10, tierChannel "b" 10, tierChannel "c" 5, tierChannel "d" 1], by decide⟩

def pairedCandidates : List Candidate :=
  [⟨"a", 10, 0⟩, ⟨"b", 10, 0⟩, ⟨"c", 5, 0⟩, ⟨"d", 1, 0⟩]

theorem paired_tiers_walked :
    WalksTiers pairedCandidates
      (withChannelRetry 2 crowdedRequest (fun _ => steadyRound pairedTiers tierKeys)).1 := by
  have steady : Steady crowdedRequest (fun _ => steadyRound pairedTiers tierKeys)
      pairedCandidates :=
    steady_steadyRound (by decide) (by decide +kernel) (by decide +kernel) (by decide +kernel)
  refine (retries_walk_tiers 2 steady).1 fun j tier htier bound _ => ?_
  have tiers : tiersOf pairedCandidates =
      [[⟨"a", 10, 0⟩, ⟨"b", 10, 0⟩], [⟨"c", 5, 0⟩], [⟨"d", 1, 0⟩]] := by decide +kernel
  rw [tiers] at htier bound
  obtain rfl : j = 0 := by
    simp only [List.length_cons, List.length_nil] at bound
    omega
  cases htier
  decide

end Populations

end Gateway
