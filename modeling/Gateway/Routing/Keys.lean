import Gateway.Http.Errors
import Gateway.Routing.Abilities

/-!
Choosing a credential of a channel.

The enabled keys of a channel are listed up to a limit, and those whose
fingerprint has failed in the request are skipped while any other is listed.
-/

namespace Gateway

/-- A sealed credential; the envelope is opened by `openSecret`. -/
structure ChannelKeyDoc where
  id : String
  channelId : String
  cipher : String
  iv : String
  authTag : String
  keyVersion : Nat
  fingerprint : String
  status : EntityStatus
  index : Nat
deriving DecidableEq, Repr

instance : Document ChannelKeyDoc String := ⟨ChannelKeyDoc.id⟩

structure SelectedKey where
  keyId : String
  secret : String
  index : Nat
  fingerprint : String
deriving DecidableEq, Repr

/-- The enabled keys of a channel, however many there are. -/
def enabledKeys (keys : Collection ChannelKeyDoc) (channelId : String) : List ChannelKeyDoc :=
  keys.docs.filter (fun key => key.channelId = channelId ∧ key.status = .enabled)

def listChannelKeys (keys : Collection ChannelKeyDoc) (channelId : String) : List ChannelKeyDoc :=
  ((enabledKeys keys channelId).insertionSort (fun a b => a.index ≤ b.index)).take 100

/-- What picking a credential reads: the keys (`none` when the store fails), the
shared counter (`none` when it cannot be read), and what opening a key gives. -/
structure KeyStores where
  keys : Option (Collection ChannelKeyDoc)
  nextKey : Option Nat
  openSecret : ChannelKeyDoc → Except Thrown String

def noEnabledKeys (channelId : String) : GatewayError :=
  configurationError ("channel " ++ channelId ++ " has no enabled keys")

/-- The keys the rotation runs over: all of them once every one has been tried. -/
def keyPool (all : List ChannelKeyDoc) (skipFingerprints : List String) : List ChannelKeyDoc :=
  let usable := all.filter (fun key => !skipFingerprints.contains key.fingerprint)
  if usable.isEmpty then all else usable

def pickChannelKey (stores : KeyStores) (channelId : String) (skipFingerprints : List String) :
    Except Thrown SelectedKey :=
  match stores.keys with
  | none => .error .fault
  | some keys =>
      let pool := keyPool (listChannelKeys keys channelId) skipFingerprints
      match pool[(stores.nextKey.getD 0) % pool.length]? with
      | none => .error (.gateway (noEnabledKeys channelId))
      | some chosen =>
          match stores.openSecret chosen with
          | .error e => .error e
          | .ok secret => .ok ⟨chosen.id, secret, chosen.index, chosen.fingerprint⟩

/-- A skipped fingerprint is used only when every key listed has one. -/
theorem all_skipped_of_pick {stores : KeyStores} {channelId : String} {skip : List String}
    {key : SelectedKey} (picked : pickChannelKey stores channelId skip = .ok key)
    (reused : key.fingerprint ∈ skip) :
    ∃ keys, stores.keys = some keys ∧
      ∀ doc ∈ listChannelKeys keys channelId, doc.fingerprint ∈ skip := by
  rw [pickChannelKey] at picked
  split at picked
  · exact nomatch picked
  · next keys stored =>
      refine ⟨keys, stored, ?_⟩
      simp only at picked
      split at picked
      · exact nomatch picked
      · next chosen found =>
          have mem := List.mem_of_getElem? found
          split at picked
          · exact nomatch picked
          · cases picked
            rw [keyPool] at mem
            split at mem
            · next none =>
                rw [List.isEmpty_iff, List.filter_eq_nil_iff] at none
                intro doc hdoc
                simpa using none doc hdoc
            · exact absurd reused (by simpa using (List.mem_filter.mp mem).2)

theorem exists_pickChannelKey {stores : KeyStores} {keys : Collection ChannelKeyDoc}
    {channelId : String} (stored : stores.keys = some keys)
    (opens : ∀ doc, ∃ secret, stores.openSecret doc = .ok secret)
    (listed : listChannelKeys keys channelId ≠ []) (skip : List String) :
    ∃ key, pickChannelKey stores channelId skip = .ok key := by
  have nonempty : keyPool (listChannelKeys keys channelId) skip ≠ [] := by
    rw [keyPool]
    split
    · exact listed
    · next usable => simpa using usable
  have bound : stores.nextKey.getD 0 % (keyPool (listChannelKeys keys channelId) skip).length <
      (keyPool (listChannelKeys keys channelId) skip).length :=
    Nat.mod_lt _ (List.length_pos_iff.mpr nonempty)
  let chosen := (keyPool (listChannelKeys keys channelId) skip)[stores.nextKey.getD 0 %
    (keyPool (listChannelKeys keys channelId) skip).length]
  obtain ⟨secret, opened⟩ := opens chosen
  refine ⟨⟨chosen.id, secret, chosen.index, chosen.fingerprint⟩, ?_⟩
  simp only [pickChannelKey, stored, List.getElem?_eq_getElem bound, chosen, opened]

end Gateway
