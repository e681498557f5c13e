import Gateway.Db.Types
import Mathlib.Data.List.Sort
import Mathlib.Data.Rat.Defs

/-!
Which channels can serve a given group and model.

The ability table is a join of the channels with their groups and models. A
lookup is exact, and the channels themselves are only asked when it finds
nothing, so what the table leaves out (wildcards, catch-all channels, a row
whose id was taken) is missing as soon as any other channel is found.
-/

namespace Gateway

/-- A channel, as far as routing reads it. -/
structure ChannelDoc where
  id : String
  status : EntityStatus
  priority : ℚ
  weight : ℚ
  groups : List String
  models : List String
deriving DecidableEq, Repr

structure AbilityDoc where
  id : String
  group : String
  model : String
  channelId : String
  enabled : Bool
  priority : ℚ
  weight : ℚ
  updatedAt : Int
deriving DecidableEq, Repr

instance : Document ChannelDoc String := ⟨ChannelDoc.id⟩

instance : Document AbilityDoc String := ⟨AbilityDoc.id⟩

@[simp]
theorem ChannelDoc.key_eq (d : ChannelDoc) : Document.key d = d.id := rfl

@[simp]
theorem AbilityDoc.key_eq (d : AbilityDoc) : Document.key d = d.id := rfl

structure Candidate where
  channelId : String
  priority : ℚ
  weight : ℚ
deriving DecidableEq, Repr

def AbilityDoc.toCandidate (doc : AbilityDoc) : Candidate :=
  ⟨doc.channelId, doc.priority, doc.weight⟩

def ChannelDoc.toCandidate (channel : ChannelDoc) : Candidate :=
  ⟨channel.id, channel.priority, channel.weight⟩

def ChannelDoc.isEnabled (channel : ChannelDoc) : Bool := decide (channel.status = .enabled)

/-- An empty model list means any model; an empty group list offers the channel
to no one. -/
def serves (channel : ChannelDoc) (group model : String) : Bool :=
  if !channel.isEnabled then false
  else if !channel.groups.contains group && !channel.groups.contains "*" then false
  else if channel.models.isEmpty then true
  else channel.models.contains model || channel.models.contains "*"

/-- The order of both lookups: by priority, then by weight, highest first. -/
def electedBefore (a b : Candidate) : Prop :=
  b.priority < a.priority ∨ (a.priority = b.priority ∧ b.weight ≤ a.weight)

instance : DecidableRel electedBefore := fun a b =>
  inferInstanceAs
    (Decidable (b.priority < a.priority ∨ (a.priority = b.priority ∧ b.weight ≤ a.weight)))

/-- The uncached fallback: a scan of the enabled channels. -/
def deriveCandidates (channels : Option (Collection ChannelDoc)) (group model : String) :
    List Candidate :=
  match channels with
  | none => []
  | some channels =>
      ((((channels.docs.filter ChannelDoc.isEnabled).take 500).filter
        (fun channel => serves channel group model)).map ChannelDoc.toCandidate).insertionSort
          electedBefore

/-- What a lookup reads: the cached entry of the pair, and the two collections.
What is missing or cannot be read is `none`. -/
structure AbilityStores where
  cached : Option (List Candidate)
  abilities : Option (Collection AbilityDoc)
  channels : Option (Collection ChannelDoc)

/-- The rows the filter of a lookup matches. -/
def matchingRows (abilities : Collection AbilityDoc) (group model : String) : List AbilityDoc :=
  abilities.docs.filter (fun doc => doc.group = group ∧ doc.model = model ∧ doc.enabled = true)

def findAbilities (abilities : Option (Collection AbilityDoc)) (group model : String) :
    List Candidate :=
  match abilities with
  | none => []
  | some abilities =>
      (((matchingRows abilities group model).map AbilityDoc.toCandidate).insertionSort
        electedBefore).take 200

def candidatesFor (stores : AbilityStores) (group model : String) : List Candidate :=
  match stores.cached with
  | some cached => cached
  | none =>
      let found := findAbilities stores.abilities group model
      if found.isEmpty then deriveCandidates stores.channels group model else found

def abilityId (group model channelId : String) : String := group ++ ":" ++ model ++ ":" ++ channelId

def abilityRow (now : Int) (channel : ChannelDoc) (group model : String) : AbilityDoc :=
  ⟨abilityId group model channel.id, group, model, channel.id, true, channel.priority,
    channel.weight, now⟩

/-- The rows of a channel: one for each group and model it lists. -/
def abilityRows (now : Int) (channel : ChannelDoc) : List AbilityDoc :=
  if channel.groups.isEmpty || channel.models.isEmpty then []
  else channel.groups.flatMap fun group => channel.models.map (abilityRow now channel group)

/-- The rows a rebuild writes, in order. -/
def rebuiltRows (now : Int) (channels : Collection ChannelDoc) : List AbilityDoc :=
  ((channels.docs.filter ChannelDoc.isEnabled).take 10000).flatMap (abilityRows now)

/-- The table is emptied and written anew; the answer counts the rows that were
to be written. -/
def rebuildAbilities (now : Int) (channels : Collection ChannelDoc) :
    Nat × Collection AbilityDoc :=
  ((rebuiltRows now channels).length, Collection.empty.insertMany (rebuiltRows now channels))

/-- What a lookup reads right after a rebuild. -/
def rebuiltStores (now : Int) (channels : Collection ChannelDoc) : AbilityStores :=
  ⟨none, some (rebuildAbilities now channels).2, some channels⟩

end Gateway
