import Gateway.Admin.Channels
import Gateway.Lib.Machine

/-!
Edits of channels, each with the rebuild of the ability table that follows it.

A call is a chain of operations on the database, and calls overlap. A rebuild reads
the channels, empties the table and fills it again in three operations of its own,
so rows may be written that were read before a later edit. The table is right in the
end when the last rebuild that empties it, and every one that fills it after that,
has read the channels as they are then stored.
-/

namespace Gateway

section Calls

/-- The channel that a request creates, once its keys have been looked at. -/
def newChannel (limits : JsonLimits) (now : Int) (id : String) (input : Record) :
    Checked StoredChannel := do
  let secrets ← stringList (input.field "keys") "keys"
  if secrets = [] then rejected "at least one key is required" "keys"
  let name ← requireText (input.field "name") "name" 120
  let _ ← requireText (input.field "type") "type" 40
  let baseUrl ← requireText (input.field "baseUrl") "baseUrl" 500
  let status ← asStatus (input.field "status") .enabled
  let priority ← optionalNumber (input.field "priority") "priority" 0
  let weight ← optionalNumber (input.field "weight") "weight" 0
  let groups ← stringList (input.field "groups") "groups"
  let models ← stringList (input.field "models") "models"
  let modelMapping ← asMapping (input.field "modelMapping")
  let headers ← asHeaders (input.field "headers")
  let config ← channelConfig limits (input.field "config")
  let testModel := match input.field "testModel" with
    | some (.str text) => if jsTrim text = "" then none else some (jsTrim text)
    | _ => none
  return {
    id := id, status := status, priority := priority, weight := weight
    groups := if groups = [] then ["default"] else groups
    models := models, name := name, baseUrl := baseUrl, modelMapping := modelMapping
    headers := headers, testModel := testModel, autoDisabled := false, failCount := 0
    rpmLimit := none, config := config, updatedAt := now }

/-- A call, with the values that are drawn for it and the answer to the sealing of its keys. -/
inductive ChannelCall where
  | create (id : String) (input : Record) (sealed : Checked Unit) (now : Int)
  | update (id : String) (patch : Record) (now : Int)
  | delete (id : String)

def ChannelCall.id : ChannelCall → String
  | .create id _ _ _ | .update id _ _ | .delete id => id

inductive ChannelWrite where
  | insert (channel : StoredChannel)
  | set (id : String) (update : ChannelUpdate)
  | remove (id : String)

/-- The next operation of a call, with what it has read so far. -/
inductive CallStage where
  | reading
  | writing (write : ChannelWrite)
  | scanning
  | emptying (rows : List AbilityDoc)
  | filling (rows : List AbilityDoc)
  | rereading
  | ended (result : Checked Unit)

structure RunningCall where
  call : ChannelCall
  stage : CallStage

structure ChannelStores where
  channels : Collection StoredChannel
  abilities : Collection AbilityDoc
  generation : Nat
  calls : List RunningCall

/-- Creation reads nothing; the checks of its input end it, or leave the document to write. -/
def firstStage (limits : JsonLimits) : ChannelCall → CallStage
  | .create id input sealed now =>
      match newChannel limits now id input with
      | .error e => .ended (.error e)
      | .ok channel =>
          match sealed with
          | .error e => .ended (.error e)
          | .ok () => .writing (.insert channel)
  | .update _ _ _ | .delete _ => .reading

/-- What is written, from the channel that was read. -/
def afterReading (limits : JsonLimits) (channel : StoredChannel) : ChannelCall → CallStage
  | .create _ _ _ _ => .ended (.error .fault)
  | .update id patch now =>
      match channelUpdate limits now channel patch with
      | .ok update => .writing (.set id update)
      | .error e => .ended (.error e)
  | .delete id => .writing (.remove id)

/-- Two channels are not stored under one name. -/
def nameTaken (channels : Collection StoredChannel) (id name : String) : Bool :=
  channels.docs.any fun other => other.id != id && other.name == name

/-- The write of a channel, unless an index refuses it. -/
def ChannelWrite.apply (channels : Collection StoredChannel) :
    ChannelWrite → Option (Collection StoredChannel)
  | .insert channel =>
      if nameTaken channels channel.id channel.name then none else channels.insertOne channel
  | .set id update =>
      if update.name.any (nameTaken channels id) && (channels.find id).isSome then none
      else some (channels.updateOne id (fun _ => true) update.toUpdate)
  | .remove id => some (channels.deleteOne id)

/-- The channels, as far as routing reads them. -/
def routed (channels : Collection StoredChannel) : Collection ChannelDoc where
  docs := channels.docs.map StoredChannel.toChannelDoc
  distinct := by
    rw [List.map_map]
    exact channels.distinct

def afterRebuild : ChannelCall → CallStage
  | .update _ _ _ => .rereading
  | _ => .ended (.ok ())

/-- One operation of a call on the database. -/
def operate (limits : JsonLimits) (now : Int) (s : ChannelStores) (call : ChannelCall) :
    CallStage → CallStage × ChannelStores
  | .reading =>
      match s.channels.find call.id with
      | none => (.ended (.error (.gateway channelNotFound)), s)
      | some channel => (afterReading limits channel call, s)
  | .writing write =>
      match write.apply s.channels with
      | none => (.ended (.error .fault), s)
      | some channels => (.scanning, { s with channels := channels })
  | .scanning => (.emptying (rebuiltRows now (routed s.channels)), s)
  | .emptying rows => (.filling rows, { s with abilities := .empty })
  | .filling rows =>
      -- the rebuild and the edit each raise the generation
      (afterRebuild call,
        { s with abilities := s.abilities.insertMany rows, generation := s.generation + 2 })
  | .rereading =>
      match s.channels.find call.id with
      | none => (.ended (.error (.gateway channelNotFound)), s)
      | some _ => (.ended (.ok ()), s)
  | .ended result => (.ended result, s)

inductive ChannelAction where
  | start (call : ChannelCall)
  | advance (i : Nat) (now : Int)

def channelStep (limits : JsonLimits) (s : ChannelStores) : ChannelAction → ChannelStores × Unit
  | .start call => ({ s with calls := s.calls ++ [⟨call, firstStage limits call⟩] }, ())
  | .advance i now =>
      match s.calls[i]? with
      | none => (s, ())
      | some running =>
          let (stage, s) := operate limits now s running.call running.stage
          ({ s with calls := s.calls.set i ⟨running.call, stage⟩ }, ())

end Calls

section Join

/-- A row of an enabled channel, for a group and a model that it lists. -/
def InJoin (channels : Collection StoredChannel) (row : AbilityDoc) : Prop :=
  ∃ channel ∈ channels.docs, channel.isEnabled = true ∧ ∃ group ∈ channel.groups,
    ∃ model ∈ channel.models, row = abilityRow row.updatedAt channel.toChannelDoc group model

/-- Rows that differ in the time of their writing only. -/
def SameGrant (row row' : AbilityDoc) : Prop := { row with updatedAt := row'.updatedAt } = row'

/-- The rows are those of the join. -/
structure Joined (channels : Collection StoredChannel) (rows : List AbilityDoc) : Prop where
  sound : ∀ row ∈ rows, InJoin channels row
  complete : ∀ row, InJoin channels row → ∃ stored ∈ rows, SameGrant stored row

/-- No two rows of the join have one id. -/
def DistinctIds (channels : Collection StoredChannel) : Prop :=
  ∀ row row', InJoin channels row → InJoin channels row' → row.id = row'.id → SameGrant row row'

def CallStage.willEmpty : CallStage → Bool
  | .scanning | .emptying _ => true
  | _ => false

def CallStage.rows : CallStage → List AbilityDoc
  | .filling rows => rows
  | _ => []

/-- The rows that are still to be filled in. -/
def pending (calls : List RunningCall) : List AbilityDoc := calls.flatMap fun c => c.stage.rows

/-- No other call is still to empty the table. -/
def LastToEmpty (s : ChannelStores) (i : Nat) : Prop :=
  ∀ j c, j ≠ i → s.calls[j]? = some c → c.stage.willEmpty = false

/-- The last rebuild to empty the table, and those that fill it later, have read the channels as
they are stored now; and no row of theirs takes the id of another. -/
def ReadAsStored (s : ChannelStores) : ChannelAction → Prop
  | .start _ => True
  | .advance i _ => ∀ call rows, s.calls[i]? = some ⟨call, .emptying rows⟩ → LastToEmpty s i →
      Joined s.channels (rows ++ pending s.calls) ∧ DistinctIds s.channels

end Join

section Rows

theorem SameGrant.id {row row' : AbilityDoc} (h : SameGrant row row') : row.id = row'.id := by
  rw [SameGrant] at h
  rw [← h]

theorem SameGrant.symm {row row' : AbilityDoc} (h : SameGrant row row') : SameGrant row' row := by
  rw [SameGrant, ← h]

theorem SameGrant.trans {row row' row'' : AbilityDoc} (h : SameGrant row row')
    (h' : SameGrant row' row'') : SameGrant row row'' := by
  rw [SameGrant, ← h', ← h]

theorem mem_pending {calls : List RunningCall} {row : AbilityDoc} :
    row ∈ pending calls ↔ ∃ c ∈ calls, row ∈ c.stage.rows := List.mem_flatMap

/-- The rows of a call, and those of the others. -/
theorem mem_pending_of_get {calls : List RunningCall} {i : Nat} {c : RunningCall}
    (here : calls[i]? = some c) {row : AbilityDoc} :
    row ∈ pending calls ↔
      row ∈ c.stage.rows ∨ ∃ j d, j ≠ i ∧ calls[j]? = some d ∧ row ∈ d.stage.rows := by
  rw [mem_pending]
  constructor
  · rintro ⟨d, mem, among⟩
    obtain ⟨j, at_j⟩ := List.mem_iff_getElem?.mp mem
    by_cases same : j = i
    · subst same
      obtain rfl := Option.some.inj (here.symm.trans at_j)
      exact .inl among
    · exact .inr ⟨j, d, same, at_j, among⟩
  · rintro (among | ⟨j, d, -, at_j, among⟩)
    · exact ⟨c, List.mem_of_getElem? here, among⟩
    · exact ⟨d, List.mem_of_getElem? at_j, among⟩

theorem mem_pending_set {calls : List RunningCall} {i : Nat} {c c' : RunningCall}
    (here : calls[i]? = some c) {row : AbilityDoc} :
    row ∈ pending (calls.set i c') ↔
      row ∈ c'.stage.rows ∨ ∃ j d, j ≠ i ∧ calls[j]? = some d ∧ row ∈ d.stage.rows := by
  obtain ⟨inside, -⟩ := List.getElem?_eq_some_iff.mp here
  rw [mem_pending_of_get (List.getElem?_set_self inside)]
  refine or_congr_right ⟨?_, ?_⟩
  · rintro ⟨j, d, other, at_j, among⟩
    rw [List.getElem?_set_ne (Ne.symm other)] at at_j
    exact ⟨j, d, other, at_j, among⟩
  · rintro ⟨j, d, other, at_j, among⟩
    refine ⟨j, d, other, ?_, among⟩
    rwa [List.getElem?_set_ne (Ne.symm other)]

/-- Filling the table keeps the rows that are there or pending, as far as they are the join. -/
theorem joined_insertMany {channels : Collection StoredChannel} {abilities : Collection AbilityDoc}
    {rows others : List AbilityDoc} (joined : Joined channels (abilities.docs ++ (rows ++ others)))
    (distinct : DistinctIds channels) :
    Joined channels ((abilities.insertMany rows).docs ++ others) := by
  have inserted {row : AbilityDoc} (mem : row ∈ (abilities.insertMany rows).docs) :
      row ∈ abilities.docs ∨ row ∈ rows := by
    have found := Collection.find_of_mem mem
    rw [Collection.find_insertMany, Option.or_eq_some_iff] at found
    rcases found with there | ⟨-, new⟩
    · exact .inl (Collection.mem_of_find there).1
    · exact .inr (List.mem_of_find?_eq_some new)
  have sound : ∀ row ∈ (abilities.insertMany rows).docs ++ others, InJoin channels row := by
    intro row mem
    refine joined.sound row ?_
    rcases List.mem_append.mp mem with stored | other
    · rcases inserted stored with there | new
      · exact List.mem_append_left _ there
      · exact List.mem_append_right _ (List.mem_append_left _ new)
    · exact List.mem_append_right _ (List.mem_append_right _ other)
  refine ⟨sound, fun row join => ?_⟩
  obtain ⟨stored, mem, same⟩ := joined.complete row join
  have taken {row : AbilityDoc} (there : row ∈ abilities.docs ∨ row ∈ rows) :
      ∃ kept ∈ (abilities.insertMany rows).docs, kept.id = row.id := by
    have found : ((abilities.insertMany rows).find row.id).isSome = true := by
      rw [Collection.find_insertMany, Option.isSome_or, Bool.or_eq_true]
      rcases there with there | new
      · have known := Collection.find_of_mem there
        rw [AbilityDoc.key_eq] at known
        rw [known]
        exact .inl rfl
      · right
        rw [List.find?_isSome]
        exact ⟨row, new, decide_eq_true rfl⟩
    obtain ⟨kept, at_id⟩ := Option.isSome_iff_exists.mp found
    obtain ⟨mem, id⟩ := Collection.mem_of_find at_id
    exact ⟨kept, mem, id⟩
  rw [← List.append_assoc, List.mem_append, List.mem_append] at mem
  rcases mem with there | other
  · obtain ⟨kept, mem, id⟩ := taken there
    refine ⟨kept, List.mem_append_left _ mem, ?_⟩
    have first := sound kept (List.mem_append_left _ mem)
    exact distinct kept row first join (id.trans same.id)
  · exact ⟨stored, List.mem_append_right _ other, same⟩

/-- A table that has the join has room for it: no two of its rows have one id. -/
theorem distinctIds_of_joined {channels : Collection StoredChannel}
    {abilities : Collection AbilityDoc} (joined : Joined channels abilities.docs) :
    DistinctIds channels := by
  intro row row' join join' ids
  obtain ⟨stored, mem, same⟩ := joined.complete row join
  obtain ⟨stored', mem', same'⟩ := joined.complete row' join'
  have id : stored.id = stored'.id := same.id.trans (ids.trans same'.id.symm)
  have found := Collection.find_of_mem mem
  have found' := Collection.find_of_mem mem'
  rw [AbilityDoc.key_eq] at found found'
  rw [id, found'] at found
  obtain rfl := Option.some.inj found
  exact same.symm.trans same'

end Rows

section Settling

/-- The table is still to be emptied, or it has the rows of the join and gets no others. -/
def Settling (s : ChannelStores) : Prop :=
  (∃ c ∈ s.calls, c.stage.willEmpty = true) ∨
    Joined s.channels (s.abilities.docs ++ pending s.calls) ∧ DistinctIds s.channels

theorem Joined.congr {channels : Collection StoredChannel} {rows rows' : List AbilityDoc}
    (same : ∀ row, row ∈ rows ↔ row ∈ rows') (h : Joined channels rows) :
    Joined channels rows' := by
  refine ⟨fun row mem => h.sound row ((same row).mpr mem), fun row join => ?_⟩
  obtain ⟨stored, mem, grant⟩ := h.complete row join
  exact ⟨stored, (same stored).mp mem, grant⟩

/-- A call that has still to empty the table does so whatever the others do. -/
theorem settling_of_other {s : ChannelStores} {i j : Nat} {c c' : RunningCall}
    (other : j ≠ i) (there : s.calls[j]? = some c) (will : c.stage.willEmpty = true)
    {t : ChannelStores} (calls : t.calls = s.calls.set i c') : Settling t := by
  refine .inl ⟨c, ?_, will⟩
  rw [calls]
  refine @List.mem_of_getElem? _ _ j _ ?_
  rwa [List.getElem?_set_ne (Ne.symm other)]

theorem settling_of_willEmpty {s t : ChannelStores} {i : Nat} {c c' : RunningCall}
    (here : s.calls[i]? = some c) (will : c'.stage.willEmpty = true)
    (calls : t.calls = s.calls.set i c') : Settling t := by
  obtain ⟨inside, -⟩ := List.getElem?_eq_some_iff.mp here
  refine .inl ⟨c', ?_, will⟩
  rw [calls]
  exact List.mem_of_getElem? (List.getElem?_set_self inside)

/-- An operation that neither reads nor writes for a rebuild. -/
theorem settling_of_quiet {s t : ChannelStores} {i : Nat} {c c' : RunningCall}
    (h : Settling s) (here : s.calls[i]? = some c) (calls : t.calls = s.calls.set i c')
    (channels : t.channels = s.channels) (abilities : t.abilities = s.abilities)
    (before : c.stage.willEmpty = false ∧ c.stage.rows = []) (after : c'.stage.rows = []) :
    Settling t := by
  rcases h with ⟨d, mem, will⟩ | ⟨joined, distinct⟩
  · obtain ⟨j, at_j⟩ := List.mem_iff_getElem?.mp mem
    have other : j ≠ i := by
      rintro rfl
      obtain rfl := Option.some.inj (here.symm.trans at_j)
      rw [before.1] at will
      cases will
    exact settling_of_other other at_j will calls
  · refine .inr ⟨?_, channels ▸ distinct⟩
    rw [channels, abilities, calls]
    refine joined.congr fun row => ?_
    rw [List.mem_append, List.mem_append, mem_pending_of_get here, mem_pending_set here,
      before.2, after]

theorem firstStage_quiet (limits : JsonLimits) (call : ChannelCall) :
    (firstStage limits call).rows = [] := by
  cases call with
  | create id input sealed now =>
      rw [firstStage]
      cases newChannel limits now id input with
      | error e => rfl
      | ok channel => cases sealed <;> rfl
  | update _ _ _ | delete _ => rfl

theorem afterReading_quiet (limits : JsonLimits) (channel : StoredChannel) (call : ChannelCall) :
    (afterReading limits channel call).rows = [] := by
  cases call with
  | update id patch now =>
      rw [afterReading]
      split <;> rfl
  | create _ _ _ _ | delete _ => rfl

theorem afterRebuild_quiet (call : ChannelCall) : (afterRebuild call).rows = [] := by
  cases call <;> rfl

theorem settling_start {limits : JsonLimits} {s : ChannelStores} (h : Settling s)
    (call : ChannelCall) : Settling (channelStep limits s (.start call)).1 := by
  rcases h with ⟨c, mem, will⟩ | ⟨joined, distinct⟩
  · exact .inl ⟨c, List.mem_append_left _ mem, will⟩
  · refine .inr ⟨joined.congr fun row => ?_, distinct⟩
    have none_pending :
        pending (s.calls ++ [⟨call, firstStage limits call⟩]) = pending s.calls := by
      rw [pending, List.flatMap_append, List.flatMap_singleton, firstStage_quiet, List.append_nil]
      rfl
    rw [channelStep, none_pending]

/-- The table is emptied: either another call does so later, or all have read what is stored. -/
theorem settling_empty {s t : ChannelStores} {i : Nat} {call : ChannelCall}
    {rows : List AbilityDoc} (here : s.calls[i]? = some ⟨call, .emptying rows⟩)
    (read : LastToEmpty s i → Joined s.channels (rows ++ pending s.calls) ∧ DistinctIds s.channels)
    (calls : t.calls = s.calls.set i ⟨call, .filling rows⟩) (channels : t.channels = s.channels)
    (abilities : t.abilities = .empty) : Settling t := by
  by_cases last : LastToEmpty s i
  · obtain ⟨joined, distinct⟩ := read last
    refine .inr ⟨?_, channels ▸ distinct⟩
    rw [channels, abilities, calls]
    refine joined.congr fun row => ?_
    rw [List.mem_append, List.mem_append, mem_pending_of_get here, mem_pending_set here]
    simp [CallStage.rows, Collection.empty]
  · rw [LastToEmpty] at last
    simp only [not_forall, Bool.not_eq_false] at last
    obtain ⟨j, c, other, at_j, will⟩ := last
    exact settling_of_other other at_j will calls

theorem settling_fill {s t : ChannelStores} {i : Nat} {call : ChannelCall}
    {rows : List AbilityDoc} {stage : CallStage} (h : Settling s)
    (here : s.calls[i]? = some ⟨call, .filling rows⟩)
    (calls : t.calls = s.calls.set i ⟨call, stage⟩) (channels : t.channels = s.channels)
    (abilities : t.abilities = s.abilities.insertMany rows) (after : stage.rows = []) :
    Settling t := by
  rcases h with ⟨d, mem, will⟩ | ⟨joined, distinct⟩
  · obtain ⟨j, at_j⟩ := List.mem_iff_getElem?.mp mem
    have other : j ≠ i := by
      rintro rfl
      obtain rfl := Option.some.inj (here.symm.trans at_j)
      cases will
    exact settling_of_other other at_j will calls
  · refine .inr ⟨?_, channels ▸ distinct⟩
    rw [channels, abilities, calls]
    have split : Joined s.channels
        (s.abilities.docs ++ (rows ++ pending (s.calls.set i ⟨call, stage⟩))) := by
      refine joined.congr fun row => ?_
      rw [List.mem_append, List.mem_append, List.mem_append, mem_pending_of_get here,
        mem_pending_set here, after]
      simp [CallStage.rows]
    exact joined_insertMany split distinct

/-- A step keeps the table settling when what is read is as it is stored. -/
theorem settling_step {limits : JsonLimits} {s : ChannelStores} {a : ChannelAction}
    (read : ReadAsStored s a) (h : Settling s) : Settling (channelStep limits s a).1 := by
  cases a with
  | start call => exact settling_start h call
  | advance i now =>
      rw [channelStep]
      cases here : s.calls[i]? with
      | none => exact h
      | some running =>
          obtain ⟨call, stage⟩ := running
          dsimp only
          cases stage with
          | reading =>
              rw [operate]
              cases s.channels.find call.id with
              | none => exact settling_of_quiet h here rfl rfl rfl ⟨rfl, rfl⟩ rfl
              | some channel =>
                  exact settling_of_quiet h here rfl rfl rfl ⟨rfl, rfl⟩
                    (afterReading_quiet limits channel call)
          | writing write =>
              rw [operate]
              cases write.apply s.channels with
              | none => exact settling_of_quiet h here rfl rfl rfl ⟨rfl, rfl⟩ rfl
              | some channels => exact settling_of_willEmpty here rfl rfl
          | scanning => exact settling_of_willEmpty here rfl rfl
          | emptying rows => exact settling_empty here (read call rows here) rfl rfl rfl
          | filling rows => exact settling_fill h here rfl rfl rfl (afterRebuild_quiet call)
          | rereading =>
              rw [operate]
              cases s.channels.find call.id with
              | none => exact settling_of_quiet h here rfl rfl rfl ⟨rfl, rfl⟩ rfl
              | some channel => exact settling_of_quiet h here rfl rfl rfl ⟨rfl, rfl⟩ rfl
          | ended result => exact settling_of_quiet h here rfl rfl rfl ⟨rfl, rfl⟩ rfl

end Settling

section Runs

def CallStage.isEnded : CallStage → Bool
  | .ended _ => true
  | _ => false

theorem CallStage.quiet_of_isEnded {stage : CallStage} (h : stage.isEnded = true) :
    stage.willEmpty = false ∧ stage.rows = [] := by
  cases stage with
  | ended _ => exact ⟨rfl, rfl⟩
  | _ => cases h

/-- All calls have come to their end. -/
def AllEnded (s : ChannelStores) : Prop := ∀ c ∈ s.calls, c.stage.isEnded = true

/-- The stages of a call that has not written, and does not go on to a rebuild. -/
def CallStage.beforeWrite : CallStage → Bool
  | .reading | .writing _ | .ended (.error _) => true
  | _ => false

/-- No call has written a channel. -/
def Untouched (s : ChannelStores) : Prop := ∀ c ∈ s.calls, c.stage.beforeWrite = true

theorem firstStage_beforeWrite (limits : JsonLimits) (call : ChannelCall) :
    (firstStage limits call).beforeWrite = true := by
  cases call with
  | create id input sealed now =>
      rw [firstStage]
      cases newChannel limits now id input with
      | error e => rfl
      | ok channel => cases sealed <;> rfl
  | update _ _ _ | delete _ => rfl

theorem afterReading_beforeWrite (limits : JsonLimits) (channel : StoredChannel)
    (call : ChannelCall) : (afterReading limits channel call).beforeWrite = true := by
  cases call with
  | update id patch now =>
      rw [afterReading]
      split <;> rfl
  | create _ _ _ _ | delete _ => rfl

theorem untouched_set {s t : ChannelStores} (h : Untouched s) {i : Nat} {c : RunningCall}
    (calls : t.calls = s.calls.set i c) (stage : c.stage.beforeWrite = true) : Untouched t := by
  intro d mem
  rw [calls] at mem
  rcases List.mem_or_eq_of_mem_set mem with old | rfl
  · exact h d old
  · exact stage

/-- The first write of all makes the table one that is still to be emptied. -/
theorem untouched_step {limits : JsonLimits} {s : ChannelStores} (a : ChannelAction)
    (h : Untouched s) :
    Settling (channelStep limits s a).1 ∨ Untouched (channelStep limits s a).1 := by
  cases a with
  | start call =>
      refine .inr fun c mem => ?_
      rcases List.mem_append.mp mem with old | new
      · exact h c old
      · obtain rfl := List.mem_singleton.mp new
        exact firstStage_beforeWrite limits call
  | advance i now =>
      rw [channelStep]
      cases here : s.calls[i]? with
      | none => exact .inr h
      | some running =>
          obtain ⟨call, stage⟩ := running
          have before := h _ (List.mem_of_getElem? here)
          dsimp only
          cases stage with
          | reading =>
              rw [operate]
              cases s.channels.find call.id with
              | none => exact .inr (untouched_set h rfl rfl)
              | some channel =>
                  exact .inr (untouched_set h rfl (afterReading_beforeWrite limits channel call))
          | writing write =>
              rw [operate]
              cases write.apply s.channels with
              | none => exact .inr (untouched_set h rfl rfl)
              | some channels => exact .inl (settling_of_willEmpty here rfl rfl)
          | ended result => exact .inr (untouched_set h rfl before)
          | scanning | emptying _ | filling _ | rereading => cases before

theorem joined_of_settling {s : ChannelStores} (settled : Settling s) (completed : AllEnded s) :
    Joined s.channels s.abilities.docs := by
  rcases settled with ⟨c, mem, will⟩ | ⟨joined, -⟩
  · rw [(CallStage.quiet_of_isEnded (completed c mem)).1] at will
    cases will
  · refine joined.congr fun row => ?_
    rw [List.mem_append, or_iff_left]
    rw [mem_pending]
    rintro ⟨c, mem, among⟩
    rw [(CallStage.quiet_of_isEnded (completed c mem)).2] at among
    cases among

theorem abilities_reflect_channels {limits : JsonLimits} {s : ChannelStores}
    {actions : List ChannelAction} (idle : s.calls = [])
    (initial : Joined s.channels s.abilities.docs ∨
      ∃ c ∈ (Machine.run (channelStep limits) s actions).calls, c.stage = .ended (.ok ()))
    (read : ∀ e ∈ Machine.trace (channelStep limits) s actions, ReadAsStored e.before e.action)
    (completed : AllEnded (Machine.run (channelStep limits) s actions)) :
    Joined (Machine.run (channelStep limits) s actions).channels
      (Machine.run (channelStep limits) s actions).abilities.docs := by
  rcases initial with joined | ⟨c, mem, succeeded⟩
  · have start : Settling s := by
      refine .inr ⟨?_, distinctIds_of_joined joined⟩
      rw [idle, pending, List.flatMap_nil, List.append_nil]
      exact joined
    have settled := Machine.run_invariant_where (fun _ _ => settling_step) start actions read
    exact joined_of_settling settled completed
  · have start : Untouched s := by
      intro c mem
      rw [idle] at mem
      cases mem
    have preserved : ∀ t a, ReadAsStored t a → Settling t ∨ Untouched t →
        Settling (channelStep limits t a).1 ∨ Untouched (channelStep limits t a).1 := by
      intro t a read either
      rcases either with settling | untouched
      · exact .inl (settling_step read settling)
      · exact untouched_step a untouched
    rcases Machine.run_invariant_where preserved (.inr start) actions read with settled | untouched
    · exact joined_of_settling settled completed
    · have stage := untouched c mem
      rw [succeeded] at stage
      cases stage

/-- What a rebuild reads of no more channels than it may. -/
theorem joined_rebuiltRows {channels : Collection StoredChannel} (now : Int)
    (few : ((routed channels).docs.filter ChannelDoc.isEnabled).length ≤ 10000) :
    Joined channels (rebuiltRows now (routed channels)) := by
  have member {row : AbilityDoc} : row ∈ rebuiltRows now (routed channels) ↔
      ∃ channel ∈ channels.docs, channel.isEnabled = true ∧
        row ∈ abilityRows now channel.toChannelDoc := by
    rw [rebuiltRows, List.take_of_length_le few]
    simp [routed, and_assoc]
  have rows {channel : ChannelDoc} {row : AbilityDoc} : row ∈ abilityRows now channel ↔
      ∃ group ∈ channel.groups, ∃ model ∈ channel.models,
        row = abilityRow now channel group model := by
    rw [abilityRows]
    split
    · next none_there =>
        rw [Bool.or_eq_true, List.isEmpty_iff, List.isEmpty_iff] at none_there
        rcases none_there with none_there | none_there <;> simp [none_there]
    · simp [eq_comm]
  constructor
  · intro row mem
    obtain ⟨channel, stored, enabled, among⟩ := member.mp mem
    obtain ⟨group, hgroup, model, hmodel, whole⟩ := rows.mp among
    refine ⟨channel, stored, enabled, group, hgroup, model, hmodel, ?_⟩
    rw [whole]
    rfl
  · rintro row ⟨channel, stored, enabled, group, hgroup, model, hmodel, whole⟩
    refine ⟨abilityRow now channel.toChannelDoc group model, member.mpr ⟨channel, stored, enabled,
      rows.mpr ⟨group, hgroup, model, hmodel, rfl⟩⟩, ?_⟩
    rw [SameGrant]
    conv_rhs => rw [whole]
    rfl

theorem distinctIds_of_nodup {channels : Collection StoredChannel} {rows : List AbilityDoc}
    (joined : Joined channels rows) (ids : (rows.map AbilityDoc.id).Nodup) :
    DistinctIds channels :=
  @distinctIds_of_joined channels ⟨rows, ids⟩ joined

def sampleChannel (id : String) (groups : List String) : StoredChannel where
  id := id
  status := .enabled
  priority := 0
  weight := 1
  groups := groups
  models := ["gpt-4o"]
  name := id
  baseUrl := "https://upstream.example"
  modelMapping := []
  headers := []
  testModel := none
  autoDisabled := false
  failCount := 0
  rpmLimit := none
  config := []
  updatedAt := 0

def sampleChannels : Collection StoredChannel :=
  ⟨[sampleChannel "c1" ["default", "vip"], sampleChannel "c2" ["default"]], by decide +kernel⟩

/-- Two channels, with the table as a rebuild leaves it. -/
def sampleStores : ChannelStores :=
  ⟨sampleChannels, ⟨rebuiltRows 0 (routed sampleChannels), by decide +kernel⟩, 1, []⟩

theorem joined_sampleStores : Joined sampleStores.channels sampleStores.abilities.docs :=
  joined_rebuiltRows 0 (by decide +kernel)

theorem readAsStored_of_stage {s : ChannelStores} {i : Nat} {c : RunningCall}
    (here : s.calls[i]? = some c) (other : ∀ rows, c.stage ≠ .emptying rows) (now : Int) :
    ReadAsStored s (.advance i now) := by
  intro call rows emptying
  obtain rfl := Option.some.inj (here.symm.trans emptying)
  exact absurd rfl (other rows)

def removal : List ChannelAction := .start (.delete "c2") :: List.replicate 5 (.advance 0 1)

theorem abilities_reflect_channels_removal :
    Joined (Machine.run (channelStep ⟨8, 100⟩) sampleStores removal).channels
      (Machine.run (channelStep ⟨8, 100⟩) sampleStores removal).abilities.docs := by
  refine abilities_reflect_channels rfl (.inl joined_sampleStores) ?_ ?_
  · rw [removal]
    simp only [List.replicate, Machine.trace, List.forall_mem_cons]
    refine ⟨trivial, ?_, ?_, ?_, ?_, ?_, fun _ mem => absurd mem List.not_mem_nil⟩
    · exact readAsStored_of_stage rfl (fun rows same => by cases same) 1
    · exact readAsStored_of_stage rfl (fun rows same => by cases same) 1
    · exact readAsStored_of_stage rfl (fun rows same => by cases same) 1
    · intro call rows here _
      cases here
      have joined := @joined_rebuiltRows (sampleChannels.deleteOne "c2") 1 (by decide +kernel)
      refine ⟨joined.congr fun row => ?_, distinctIds_of_nodup joined (by decide +kernel)⟩
      rw [List.mem_append, or_iff_left]
      · rfl
      · exact fun mem => absurd mem List.not_mem_nil
    · exact readAsStored_of_stage rfl (fun rows same => by cases same) 1
  · rw [AllEnded]
    decide +kernel

/-- An edit of nothing that has read the channels before another takes a group from one. -/
def overtaken : List ChannelAction :=
  .start (.update "c1" [] 1) :: List.replicate 3 (.advance 0 1) ++
    .start (.update "c1" [("groups", .arr [.str "default"])] 2) ::
      List.replicate 6 (.advance 1 2) ++ List.replicate 3 (.advance 0 3)

theorem removed_grant_returns :
    ¬ ∀ (s : ChannelStores) (actions : List ChannelAction), s.calls = [] →
      (Joined s.channels s.abilities.docs ∨
        ∃ c ∈ (Machine.run (channelStep ⟨8, 100⟩) s actions).calls, c.stage = .ended (.ok ())) →
      AllEnded (Machine.run (channelStep ⟨8, 100⟩) s actions) →
      Joined (Machine.run (channelStep ⟨8, 100⟩) s actions).channels
        (Machine.run (channelStep ⟨8, 100⟩) s actions).abilities.docs := by
  intro reflect
  have joined := reflect sampleStores overtaken rfl (.inl joined_sampleStores)
    (by rw [AllEnded]; decide +kernel)
  have stale : abilityRow 1 (sampleChannel "c1" []).toChannelDoc "vip" "gpt-4o" ∈
      (Machine.run (channelStep ⟨8, 100⟩) sampleStores overtaken).abilities.docs := by
    decide +kernel
  obtain ⟨channel, mem, -, group, among, model, -, row⟩ := joined.sound _ stale
  have named : "vip" = group := congrArg AbilityDoc.group row
  have groups :
      ∀ channel ∈ (Machine.run (channelStep ⟨8, 100⟩) sampleStores overtaken).channels.docs,
        "vip" ∉ channel.groups := by decide +kernel
  exact groups channel mem (named ▸ among)

end Runs

end Gateway
