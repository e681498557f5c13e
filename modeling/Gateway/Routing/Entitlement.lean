import Gateway.Routing.Abilities
import Gateway.Util.Utf16
import Mathlib.Data.List.Dedup

/-!
Which channels and models a group is offered.

The decision is written three times: `serves` grants a group what its channels
list, a task takes any channel without groups for its own, and the catalogue of
models reads the group list like a task and the model list without wildcards.
-/

namespace Gateway

/-- A channel with what a task and the catalogue read besides. -/
structure PlatformChannel extends ChannelDoc where
  type : String
  autoDisabled : Bool
deriving DecidableEq, Repr

section Rules

/-- The group rule of `serves`. -/
def ChannelDoc.admits (channel : ChannelDoc) (group : String) : Bool :=
  channel.groups.contains group || channel.groups.contains "*"

/-- The model rule of `serves`. -/
def ChannelDoc.answers (channel : ChannelDoc) (model : String) : Bool :=
  channel.models.isEmpty || channel.models.contains model || channel.models.contains "*"

theorem serves_eq (channel : ChannelDoc) (group model : String) :
    serves channel group model =
      (channel.isEnabled && channel.admits group && channel.answers model) := by
  rw [serves, ChannelDoc.admits, ChannelDoc.answers]
  cases channel.isEnabled with
  | false => rfl
  | true =>
      cases channel.groups.contains group <;> cases channel.groups.contains "*" <;>
        cases channel.models.isEmpty <;> rfl

/-- The channels a task of a platform reads: the first fifty by priority. -/
def platformChannels (channels : List PlatformChannel) (platform : String) :
    List PlatformChannel :=
  ((channels.filter fun row => row.type = platform ∧ row.isEnabled).insertionSort
    fun a b => b.priority ≤ a.priority).take 50

def candidateChannels (channels : List PlatformChannel) (platform group : String) :
    List PlatformChannel :=
  (platformChannels channels platform).filter fun row =>
    if row.autoDisabled then false else row.groups.isEmpty || row.groups.contains group

/-- Enabled and not taken out of service. -/
def PlatformChannel.isLive (channel : PlatformChannel) : Bool :=
  channel.isEnabled && !channel.autoDisabled

/-- The names a channel puts into the catalogue of a group. -/
def PlatformChannel.advertised (channel : PlatformChannel) (group : String) : List String :=
  if !channel.groups.isEmpty && !channel.groups.contains group then []
  else channel.models.filter (· ≠ "")

/-- The order of `sort()`: by code units. -/
def unitsBefore (a b : String) : Prop :=
  ¬List.Lex (· < ·) ((Units.ofString b).map UInt16.toNat) ((Units.ofString a).map UInt16.toNat)

instance : DecidableRel unitsBefore := fun _ _ => inferInstanceAs (Decidable (¬_))

/-- `aliases` are the names that mappings start from. -/
def listModelsForGroup (channels : List PlatformChannel) (aliases : List String) (group : String) :
    List String :=
  ((((channels.filter PlatformChannel.isLive).flatMap fun channel => channel.advertised group) ++
    aliases.filter (· ≠ "")).dedup).insertionSort unitsBefore

end Rules

section Agreement

variable {channels : List PlatformChannel} {aliases : List String} {platform group model : String}

/-- Some channel in service would serve the model to the group. -/
def Served (channels : List PlatformChannel) (group model : String) : Prop :=
  ∃ c ∈ channels, c.isLive = true ∧ serves c.toChannelDoc group model = true

/-- A task takes only channels whose group rule admits the group, and the catalogue
lists an advertised model exactly when it is served. -/
def OneEntitlement (channels : List PlatformChannel) (aliases : List String)
    (platform group : String) : Prop :=
  (∀ c ∈ candidateChannels channels platform group, c.admits group = true) ∧
    ∀ c ∈ channels, ∀ model ∈ c.models,
      model ∈ listModelsForGroup channels aliases group ↔ Served channels group model

/-- A channel in service lists both the group and the model. -/
def Granted (channels : List PlatformChannel) (group model : String) : Prop :=
  ∃ c ∈ channels, c.isLive = true ∧ group ∈ c.groups ∧ model ∈ c.models

/-- The model is on offer without a grant: by a channel without groups, or as an alias. -/
def OfferedToAll (channels : List PlatformChannel) (aliases : List String) (model : String) : Prop :=
  (∃ c ∈ channels, c.isLive = true ∧ c.groups = [] ∧ model ∈ c.models) ∨ model ∈ aliases

/-- A channel in service serves the model to the group through a wildcard or an empty
list of models. -/
def ServedByWildcard (channels : List PlatformChannel) (group model : String) : Prop :=
  ∃ c ∈ channels, c.isLive = true ∧ c.admits group = true ∧ c.answers model = true ∧
    ¬(group ∈ c.groups ∧ model ∈ c.models)

/-- What each of the three rules treats in its own way does not matter. -/
def Unambiguous (channels : List PlatformChannel) (aliases : List String)
    (platform group : String) : Prop :=
  (∀ c ∈ platformChannels channels platform, c.autoDisabled = false → c.groups ≠ []) ∧
    ∀ c ∈ channels, ∀ model ∈ c.models,
      if model = "" then ¬Granted channels group model ∧ ¬ServedByWildcard channels group model
      else Granted channels group model ∨
        (OfferedToAll channels aliases model ↔ ServedByWildcard channels group model)

theorem served_iff :
    Served channels group model ↔
      Granted channels group model ∨ ServedByWildcard channels group model := by
  constructor
  · rintro ⟨c, mem, live, served⟩
    rw [serves_eq, Bool.and_eq_true, Bool.and_eq_true] at served
    by_cases listed : group ∈ c.groups ∧ model ∈ c.models
    · exact .inl ⟨c, mem, live, listed⟩
    · exact .inr ⟨c, mem, live, served.1.2, served.2, listed⟩
  · intro some_channel
    cases some_channel with
    | inl granted =>
        obtain ⟨c, mem, live, in_groups, in_models⟩ := granted
        have enabled : c.isEnabled = true := (Bool.and_eq_true_iff.mp live).1
        refine ⟨c, mem, live, ?_⟩
        simp [serves_eq, ChannelDoc.admits, ChannelDoc.answers, enabled, in_groups, in_models]
    | inr wild =>
        obtain ⟨c, mem, live, admits, answers, -⟩ := wild
        have enabled : c.isEnabled = true := (Bool.and_eq_true_iff.mp live).1
        exact ⟨c, mem, live, by simp [serves_eq, enabled, admits, answers]⟩

theorem mem_advertised {c : PlatformChannel} :
    model ∈ c.advertised group ↔
      model ≠ "" ∧ model ∈ c.models ∧ (c.groups = [] ∨ group ∈ c.groups) := by
  rw [PlatformChannel.advertised]
  cases groups : c.groups with
  | nil => simp [and_comm]
  | cons g gs =>
      by_cases listed : group ∈ g :: gs
      · simp [listed, and_comm]
      · simp [listed]

theorem mem_listModelsForGroup :
    model ∈ listModelsForGroup channels aliases group ↔
      model ≠ "" ∧ (Granted channels group model ∨ OfferedToAll channels aliases model) := by
  rw [listModelsForGroup, List.mem_insertionSort, List.mem_dedup, List.mem_append, List.mem_flatMap,
    List.mem_filter, decide_eq_true_iff]
  constructor
  · intro listed
    cases listed with
    | inl by_channel =>
        obtain ⟨c, live, shown⟩ := by_channel
        rw [List.mem_filter] at live
        obtain ⟨filled, in_models, no_groups | in_groups⟩ := mem_advertised.mp shown
        · exact ⟨filled, .inr (.inl ⟨c, live.1, live.2, no_groups, in_models⟩)⟩
        · exact ⟨filled, .inl ⟨c, live.1, live.2, in_groups, in_models⟩⟩
    | inr by_alias => exact ⟨by_alias.2, .inr (.inr by_alias.1)⟩
  · rintro ⟨filled, ⟨c, mem, live, in_groups, in_models⟩ |
      ⟨c, mem, live, no_groups, in_models⟩ | by_alias⟩
    · exact .inl ⟨c, List.mem_filter.mpr ⟨mem, live⟩,
        mem_advertised.mpr ⟨filled, in_models, .inr in_groups⟩⟩
    · exact .inl ⟨c, List.mem_filter.mpr ⟨mem, live⟩,
        mem_advertised.mpr ⟨filled, in_models, .inl no_groups⟩⟩
    · exact .inr ⟨by_alias, filled⟩

theorem candidateChannels_admitted_iff :
    (∀ c ∈ candidateChannels channels platform group, c.admits group = true) ↔
      ∀ c ∈ platformChannels channels platform, c.autoDisabled = false → c.groups ≠ [] := by
  constructor
  · intro admitted c mem in_service no_groups
    have taken : c ∈ candidateChannels channels platform group := by
      simp [candidateChannels, mem, in_service, no_groups]
    have refused := admitted c taken
    simp [ChannelDoc.admits, no_groups] at refused
  · intro grouped c taken
    rw [candidateChannels, List.mem_filter] at taken
    cases in_service : c.autoDisabled with
    | true => simp [in_service] at taken
    | false =>
        have groups := grouped c taken.1 in_service
        simp [in_service, groups] at taken
        simp [ChannelDoc.admits, taken.2]

/-- The three places agree exactly where none of their special cases decides. -/
theorem one_entitlement_iff :
    OneEntitlement channels aliases platform group ↔
      Unambiguous channels aliases platform group := by
  rw [OneEntitlement, Unambiguous, candidateChannels_admitted_iff]
  refine and_congr_right fun _ => forall₂_congr fun c _ => forall₂_congr fun model _ => ?_
  rw [mem_listModelsForGroup, served_iff]
  split
  · next empty => simp [empty]
  · next filled =>
      simp only [ne_eq, filled, not_false_eq_true, true_and]
      by_cases granted : Granted channels group model
      · simp [granted]
      · simp [granted]

/-- A channel without groups, and one that is offered to every group. -/
def openAndShared : List PlatformChannel :=
  [⟨⟨"c1", .enabled, 0, 0, [], ["suno-v4"]⟩, "suno", false⟩,
    ⟨⟨"c2", .enabled, 0, 0, ["*"], ["gpt-4o"]⟩, "openai", false⟩]

/-- The channel without groups takes tasks and is listed though it serves nobody;
what is served to everyone is not listed. -/
theorem entitlements_differ :
    ¬OneEntitlement openAndShared [] "suno" "default" ∧
      "suno-v4" ∈ listModelsForGroup openAndShared [] "default" ∧
      ¬Served openAndShared "default" "suno-v4" ∧
      "gpt-4o" ∉ listModelsForGroup openAndShared [] "default" ∧
      Served openAndShared "default" "gpt-4o" := by
  refine ⟨fun agree => ?_, ?_⟩
  · have admitted := agree.1 ⟨⟨"c1", .enabled, 0, 0, [], ["suno-v4"]⟩, "suno", false⟩
      (by decide +kernel)
    cases admitted
  · simp only [mem_listModelsForGroup, Granted, OfferedToAll, Served]
    decide +kernel

end Agreement

end Gateway
