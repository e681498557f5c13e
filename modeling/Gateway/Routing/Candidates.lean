import Gateway.Routing.Abilities

/-!
The ability table against the channels.

A pair is answered from the table as soon as one of its rows is stored. The
rows a rebuild stores are those of the channels that list the group and the
model by name, less the rows whose id an earlier row has taken; the answer is
complete when these are all the serving channels, or none of them.
-/

namespace Gateway

/-- The documented row limits: 500 enabled channels, 200 of which serve a pair. -/
structure WithinRowLimits (channels : Collection ChannelDoc) (group model : String) : Prop where
  enabled : (channels.docs.filter ChannelDoc.isEnabled).length ≤ 500
  serving : (channels.docs.filter (fun channel => serves channel group model)).length ≤ 200

/-- The candidates are the channels that serve the pair. -/
def CandidatesAgree (now : Int) (channels : Collection ChannelDoc) (group model : String) : Prop :=
  ∀ id, (∃ candidate ∈ candidatesFor (rebuiltStores now channels) group model,
      candidate.channelId = id) ↔
    ∃ channel ∈ channels.docs, channel.id = id ∧ serves channel group model = true

/-- The row of a channel for a pair is written, and first under its id. -/
def HasOwnRow (now : Int) (channels : Collection ChannelDoc) (group model : String)
    (channel : ChannelDoc) : Prop :=
  (rebuiltRows now channels).find? (fun row => decide (row.id = abilityId group model channel.id)) =
    some (abilityRow now channel group model)

instance (now : Int) (channels : Collection ChannelDoc) (group model : String)
    (channel : ChannelDoc) : Decidable (HasOwnRow now channels group model channel) :=
  inferInstanceAs (Decidable (_ = _))

section Rows

variable {now : Int} {channels : Collection ChannelDoc} {group model : String}

theorem serves_of_listed {channel : ChannelDoc} (enabled : channel.isEnabled = true)
    (hgroup : group ∈ channel.groups) (hmodel : model ∈ channel.models) :
    serves channel group model = true := by
  simp [serves, enabled, hgroup, hmodel]

theorem isEnabled_of_serves {channel : ChannelDoc} (h : serves channel group model = true) :
    channel.isEnabled = true := by
  rw [serves] at h
  split at h
  · contradiction
  · next enabled => simpa using enabled

theorem mem_abilityRows {channel : ChannelDoc} {row : AbilityDoc} :
    row ∈ abilityRows now channel ↔
      ∃ g ∈ channel.groups, ∃ m ∈ channel.models, row = abilityRow now channel g m := by
  rw [abilityRows]
  split
  · next none =>
      rw [Bool.or_eq_true, List.isEmpty_iff, List.isEmpty_iff] at none
      rcases none with none | none <;> simp [none]
  · simp [eq_comm]

/-- Which rows a rebuild writes. -/
theorem mem_rebuiltRows (limits : WithinRowLimits channels group model) {row : AbilityDoc} :
    row ∈ rebuiltRows now channels ↔
      ∃ channel ∈ channels.docs, channel.isEnabled = true ∧
        ∃ g ∈ channel.groups, ∃ m ∈ channel.models, row = abilityRow now channel g m := by
  rw [rebuiltRows, List.take_of_length_le (Nat.le_trans limits.enabled (by decide))]
  simp only [List.mem_flatMap, List.mem_filter, mem_abilityRows, and_assoc]

theorem mem_rebuilt {row : AbilityDoc} :
    row ∈ (rebuildAbilities now channels).2.docs ↔
      (rebuiltRows now channels).find? (fun r => decide (r.id = row.id)) = some row := by
  have stored : ∀ id, (rebuildAbilities now channels).2.find id =
      (rebuiltRows now channels).find? (fun r => decide (r.id = id)) := by
    intro id
    rw [rebuildAbilities, Collection.find_insertMany, Collection.find_empty, Option.none_or]
    simp only [AbilityDoc.key_eq]
  rw [← stored]
  refine ⟨fun mem => Collection.find_of_mem mem, fun found => (Collection.mem_of_find found).1⟩

/-- The stored rows of a pair are the own rows of channels that serve it. -/
theorem stored_of_pair (limits : WithinRowLimits channels group model) {row : AbilityDoc}
    (stored : row ∈ (rebuildAbilities now channels).2.docs) (hgroup : row.group = group)
    (hmodel : row.model = model) :
    ∃ channel ∈ channels.docs, row = abilityRow now channel group model ∧
      serves channel group model = true ∧ HasOwnRow now channels group model channel := by
  have found := mem_rebuilt.mp stored
  obtain ⟨channel, hchannel, enabled, g, hg, m, hm, rfl⟩ :=
    (mem_rebuiltRows limits).mp (List.mem_of_find?_eq_some found)
  cases hgroup
  cases hmodel
  exact ⟨channel, hchannel, rfl, serves_of_listed enabled hg hm, found⟩

theorem mem_matchingRows (limits : WithinRowLimits channels group model) {row : AbilityDoc} :
    row ∈ matchingRows (rebuildAbilities now channels).2 group model ↔
      ∃ channel ∈ channels.docs, HasOwnRow now channels group model channel ∧
        row = abilityRow now channel group model := by
  simp only [matchingRows, List.mem_filter, decide_eq_true_eq]
  constructor
  · rintro ⟨stored, hgroup, hmodel, -⟩
    obtain ⟨channel, hchannel, rfl, -, own⟩ := stored_of_pair limits stored hgroup hmodel
    exact ⟨channel, hchannel, own, rfl⟩
  · rintro ⟨channel, -, own, rfl⟩
    exact ⟨mem_rebuilt.mpr own, rfl, rfl, rfl⟩

/-- A pair has one row for a channel, so its rows are no more than its channels. -/
theorem length_matchingRows (limits : WithinRowLimits channels group model) :
    (matchingRows (rebuildAbilities now channels).2 group model).length ≤ 200 := by
  have ids : ((matchingRows (rebuildAbilities now channels).2 group model).map
      AbilityDoc.id).Nodup :=
    (rebuildAbilities now channels).2.distinct.sublist (List.filter_sublist.map _)
  have named : (matchingRows (rebuildAbilities now channels).2 group model).map AbilityDoc.id =
      ((matchingRows (rebuildAbilities now channels).2 group model).map
        AbilityDoc.channelId).map (abilityId group model) := by
    rw [List.map_map]
    apply List.map_congr_left
    intro row mem
    obtain ⟨channel, -, -, rfl⟩ := (mem_matchingRows limits).mp mem
    rfl
  rw [named] at ids
  have subset : (matchingRows (rebuildAbilities now channels).2 group model).map
      AbilityDoc.channelId ⊆
        (channels.docs.filter (fun channel => serves channel group model)).map ChannelDoc.id := by
    intro id mem
    obtain ⟨row, hrow, rfl⟩ := List.mem_map.mp mem
    obtain ⟨hstored, hpair⟩ := List.mem_filter.mp hrow
    rw [decide_eq_true_eq] at hpair
    obtain ⟨channel, hchannel, rfl, hserves, -⟩ := stored_of_pair limits hstored hpair.1 hpair.2.1
    exact List.mem_map.mpr ⟨channel, List.mem_filter.mpr ⟨hchannel, hserves⟩, rfl⟩
  have bound := (List.subperm_of_subset (List.Nodup.of_map _ ids) subset).length_le
  rw [List.length_map, List.length_map] at bound
  exact Nat.le_trans bound limits.serving

theorem mem_findAbilities (limits : WithinRowLimits channels group model) {candidate : Candidate} :
    candidate ∈ findAbilities (some (rebuildAbilities now channels).2) group model ↔
      ∃ channel ∈ channels.docs, HasOwnRow now channels group model channel ∧
        candidate = channel.toCandidate := by
  have short : (((matchingRows (rebuildAbilities now channels).2 group model).map
      AbilityDoc.toCandidate).insertionSort electedBefore).length ≤ 200 := by
    rw [List.length_insertionSort, List.length_map]
    exact length_matchingRows limits
  rw [findAbilities, List.take_of_length_le short, List.mem_insertionSort, List.mem_map]
  constructor
  · rintro ⟨row, mem, rfl⟩
    obtain ⟨channel, hchannel, own, rfl⟩ := (mem_matchingRows limits).mp mem
    exact ⟨channel, hchannel, own, rfl⟩
  · rintro ⟨channel, hchannel, own, rfl⟩
    exact ⟨_, (mem_matchingRows limits).mpr ⟨channel, hchannel, own, rfl⟩, rfl⟩

theorem mem_deriveCandidates (limits : WithinRowLimits channels group model)
    {candidate : Candidate} :
    candidate ∈ deriveCandidates (some channels) group model ↔
      ∃ channel ∈ channels.docs, serves channel group model = true ∧
        candidate = channel.toCandidate := by
  rw [deriveCandidates, List.mem_insertionSort, List.take_of_length_le limits.enabled]
  simp only [List.mem_map, List.mem_filter]
  constructor
  · rintro ⟨channel, ⟨⟨hchannel, -⟩, hserves⟩, rfl⟩
    exact ⟨channel, hchannel, hserves, rfl⟩
  · rintro ⟨channel, hchannel, hserves, rfl⟩
    exact ⟨channel, ⟨⟨hchannel, isEnabled_of_serves hserves⟩, hserves⟩, rfl⟩

theorem eq_of_id {a b : ChannelDoc} (ha : a ∈ channels.docs) (hb : b ∈ channels.docs)
    (same : a.id = b.id) : a = b := by
  have found : channels.find a.id = some a := Collection.find_of_mem ha
  rw [same] at found
  exact Option.some.inj (found.symm.trans (Collection.find_of_mem hb))

theorem serves_of_hasOwnRow (limits : WithinRowLimits channels group model) {channel : ChannelDoc}
    (hchannel : channel ∈ channels.docs) (own : HasOwnRow now channels group model channel) :
    serves channel group model = true := by
  have stored : abilityRow now channel group model ∈ (rebuildAbilities now channels).2.docs :=
    mem_rebuilt.mpr own
  obtain ⟨other, hother, same, hserves, -⟩ := stored_of_pair limits stored rfl rfl
  have ids : channel.id = other.id := congrArg AbilityDoc.channelId same
  rwa [eq_of_id hchannel hother ids]

theorem candidatesFor_rebuilt (now : Int) (channels : Collection ChannelDoc)
    (group model : String) :
    candidatesFor (rebuiltStores now channels) group model =
      if (findAbilities (some (rebuildAbilities now channels).2) group model).isEmpty then
        deriveCandidates (some channels) group model
      else findAbilities (some (rebuildAbilities now channels).2) group model := rfl

end Rows

/-- The candidates of a pair are the channels that serve it exactly when all of
these have a row of their own, or none. -/
theorem rebuilt_candidates_agree_iff (now : Int) (channels : Collection ChannelDoc)
    (group model : String) (limits : WithinRowLimits channels group model) :
    CandidatesAgree now channels group model ↔
      (∀ channel ∈ channels.docs, serves channel group model = true →
        ¬HasOwnRow now channels group model channel) ∨
      (∀ channel ∈ channels.docs, serves channel group model = true →
        HasOwnRow now channels group model channel) := by
  rw [CandidatesAgree, candidatesFor_rebuilt]
  split
  · next none =>
      rw [List.isEmpty_iff] at none
      have derived : ∀ id, (∃ candidate ∈ deriveCandidates (some channels) group model,
          candidate.channelId = id) ↔
          ∃ channel ∈ channels.docs, channel.id = id ∧ serves channel group model = true := by
        intro id
        constructor
        · rintro ⟨candidate, mem, rfl⟩
          obtain ⟨channel, hchannel, hserves, rfl⟩ := (mem_deriveCandidates limits).mp mem
          exact ⟨channel, hchannel, rfl, hserves⟩
        · rintro ⟨channel, hchannel, rfl, hserves⟩
          exact ⟨_, (mem_deriveCandidates limits).mpr ⟨channel, hchannel, hserves, rfl⟩, rfl⟩
      refine iff_of_true derived (.inl ?_)
      intro channel hchannel _ own
      have mem := (mem_findAbilities limits).mpr ⟨channel, hchannel, own, rfl⟩
      rw [none] at mem
      exact nomatch mem
  · next some =>
      rw [List.isEmpty_iff] at some
      obtain ⟨first, hfirst⟩ := List.exists_mem_of_ne_nil _ some
      obtain ⟨owner, howner, hown, rfl⟩ := (mem_findAbilities limits).mp hfirst
      constructor
      · intro agree
        refine .inr fun channel hchannel hserves => ?_
        obtain ⟨candidate, mem, same⟩ := (agree channel.id).mpr ⟨channel, hchannel, rfl, hserves⟩
        obtain ⟨other, hother, own, rfl⟩ := (mem_findAbilities limits).mp mem
        rwa [← eq_of_id hother hchannel same]
      · intro own id
        have owns : ∀ channel ∈ channels.docs, serves channel group model = true →
            HasOwnRow now channels group model channel := by
          rcases own with noneOwn | allOwn
          · exact absurd hown (noneOwn owner howner (serves_of_hasOwnRow limits howner hown))
          · exact allOwn
        constructor
        · rintro ⟨candidate, mem, rfl⟩
          obtain ⟨channel, hchannel, own, rfl⟩ := (mem_findAbilities limits).mp mem
          exact ⟨channel, hchannel, rfl, serves_of_hasOwnRow limits hchannel own⟩
        · rintro ⟨channel, hchannel, rfl, hserves⟩
          exact ⟨_, (mem_findAbilities limits).mpr ⟨channel, hchannel, owns channel hchannel hserves,
            rfl⟩, rfl⟩

/-- One channel lists the pair by name, the other serves it as a catch-all of
every group. -/
def mixedChannels : Collection ChannelDoc :=
  ⟨[⟨"named", .enabled, 0, 0, ["default"], ["gpt-4o"]⟩, ⟨"any", .enabled, 0, 0, ["*"], []⟩],
    by decide⟩

theorem mixed_within_limits : WithinRowLimits mixedChannels "default" "gpt-4o" :=
  ⟨by decide, by decide⟩

/-- The catch-all channel serves the pair and is no candidate for it. -/
theorem catch_all_missed :
    WithinRowLimits mixedChannels "default" "gpt-4o" ∧
      ¬CandidatesAgree 0 mixedChannels "default" "gpt-4o" := by
  refine ⟨mixed_within_limits, fun agree => ?_⟩
  obtain ⟨candidate, mem, same⟩ := (agree "any").mpr ⟨_, .tail _ (.head _), rfl, by decide⟩
  have only : candidatesFor (rebuiltStores 0 mixedChannels) "default" "gpt-4o" =
      [⟨"named", 0, 0⟩] := by decide +kernel
  rw [only, List.mem_singleton] at mem
  subst mem
  exact absurd same (by decide)

/-- Of a pair that no channel lists by name the candidates are the catch-all. -/
theorem rebuilt_candidates_agree_fallback :
    CandidatesAgree 0 mixedChannels "vip" "gpt-4o" := by
  refine (rebuilt_candidates_agree_iff 0 mixedChannels "vip" "gpt-4o"
    ⟨by decide, by decide⟩).mpr (.inl ?_)
  decide +kernel

end Gateway
