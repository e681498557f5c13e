import Gateway.Admin.Console
import Gateway.Routing.Rotation

/-!
The credentials of a channel, from where they are typed in to where they are used.

They are sealed one by one, in the order in which they are given, and written in place
of those that the channel had.
-/

namespace Gateway.Admin

section Sealed

/-- What is drawn for a key. -/
structure KeyDraw where
  idBytes : List UInt8
  iv : List UInt8

variable (platform : SealingPlatform) (master : String) (keyVersion : Nat) (channelId : String)
  (draw : Nat → KeyDraw)

def sealKey (entry : Json × Nat) : Checked ChannelKeyDoc := do
  let plaintext ← requireText (some entry.1) "key" 4096
  let stored ← sealSecret platform (draw entry.2).iv plaintext master keyVersion
  return {
    id := bytesToHex (draw entry.2).idBytes, channelId := channelId, cipher := stored.cipher
    iv := stored.iv, authTag := stored.authTag, keyVersion := stored.keyVersion
    fingerprint := stored.fingerprint, status := .enabled, index := entry.2 }

def sealKeysFor (secrets : List Json) : Checked (List ChannelKeyDoc) :=
  if master = "" then
    .error (.gateway (invalidRequest
      "CHANNEL_KEY_MASTER is not configured, so keys cannot be sealed"))
  else secrets.zipIdx.mapM (sealKey platform master keyVersion channelId draw)

/-- A credential as it is stored: without the space around it. -/
def credentialText (secret : Json) : String := jsTrim (asString (some secret))

end Sealed

section Stored

variable {platform : SealingPlatform} {master : String} {keyVersion : Nat} {channelId : String}
  {draw : Nat → KeyDraw}

theorem requireText_ok {value : Json} {field text : String} {max : Nat}
    (checked : requireText (some value) field max = .ok text) :
    text = credentialText value := by
  rw [requireText.eq_def] at checked
  split at checked
  · next given same =>
      cases same
      split at checked
      · cases checked
      · split at checked
        · cases checked
        · cases checked
          rfl
  · cases checked

/-- The space that is trimmed includes the mark that a decoder drops. -/
theorem unmarked_jsTrim (text : String) :
    (jsTrim text).toList.head? ≠ some (Char.ofNat 0xFEFF) := by
  intro mark
  have trimmed := dropWhile_reverse_dropWhile isJsSpace text.toList
  rw [jsTrim, String.toList_ofList, ← trimmed] at mark
  have first := List.head?_dropWhile_not isJsSpace
    (((text.toList.dropWhile isJsSpace).reverse.dropWhile isJsSpace).reverse)
  rw [mark] at first
  exact absurd first (by decide)

/-- Keys that were sealed from these: each opens as what was typed in, in its place. -/
structure SealedFrom (platform : SealingPlatform) (master channelId : String)
    (entries : List (Json × Nat)) (keys : List ChannelKeyDoc) : Prop where
  owned : ∀ key ∈ keys, key.channelId = channelId ∧ key.status = .enabled
  places : keys.map ChannelKeyDoc.index = entries.map Prod.snd
  opens : keys.map (fun key => openSecret platform key.envelope master) =
    entries.map fun entry => .ok (credentialText entry.1)

theorem sealedFrom_mapM (standard : platform.Standard) (configured : master ≠ "")
    {entries : List (Json × Nat)} {keys : List ChannelKeyDoc}
    (stored : entries.mapM (sealKey platform master keyVersion channelId draw) = .ok keys) :
    SealedFrom platform master channelId entries keys := by
  induction entries generalizing keys with
  | nil =>
      cases stored
      exact ⟨List.forall_mem_nil _, rfl, rfl⟩
  | cons entry entries ih =>
      rw [List.mapM_cons] at stored
      obtain ⟨key, first, stored⟩ := Fallible.bind_ok stored
      obtain ⟨rest, later, stored⟩ := Fallible.bind_ok stored
      cases stored
      obtain ⟨text, checked, first⟩ := Fallible.bind_ok first
      obtain rfl := requireText_ok checked
      obtain ⟨envelope, written, -, -, opens⟩ := exists_sealed standard (draw entry.2).iv
        (unmarked_jsTrim (asString (some entry.1))) configured keyVersion
      rw [credentialText, written] at first
      cases first
      have tail := ih later
      refine ⟨List.forall_mem_cons.mpr ⟨⟨rfl, rfl⟩, tail.owned⟩, ?_, ?_⟩
      · rw [List.map_cons, List.map_cons, tail.places]
      · rw [List.map_cons, List.map_cons, tail.opens]
        exact congrArg (· :: _) opens

/-- The keys of a channel, where those in the list are all that it has. -/
theorem listChannelKeys_of_sealed {secrets : List Json} {stored : Collection ChannelKeyDoc}
    {others keys : List ChannelKeyDoc} (docs : stored.docs = others ++ keys)
    (apart : ∀ key ∈ others, key.channelId ≠ channelId)
    (are : SealedFrom platform master channelId secrets.zipIdx keys) :
    listChannelKeys stored channelId = keys.take 100 := by
  have enabled : enabledKeys stored channelId = keys := by
    rw [enabledKeys, docs, List.filter_append, List.filter_eq_nil_iff.mpr, List.nil_append,
      List.filter_eq_self.mpr]
    · intro key mem
      exact decide_eq_true (are.owned key mem)
    · intro key mem both
      exact apart key mem (of_decide_eq_true both).1
  have sorted : keys.Pairwise fun a b => a.index ≤ b.index := by
    have places : (keys.map ChannelKeyDoc.index).Pairwise (· ≤ ·) := by
      rw [are.places, List.zipIdx_map_snd]
      exact (List.pairwise_lt_range' (s := 0)).imp Nat.le_of_lt
    exact List.pairwise_map.mp places
  rw [listChannelKeys, enabled, List.Pairwise.insertionSort_eq sorted]

theorem docs_replaceChannelKeys (standard : platform.Standard) {secrets : List Json}
    {db db' : AdminDb} {count : Nat}
    (replaced : replaceChannelKeys
      (sealKeysFor platform master keyVersion channelId draw secrets) channelId secrets db =
        (.ok count, db')) :
    secrets ≠ [] ∧ ∃ keys, db'.channelKeys.docs = (withoutKeys channelId db.channelKeys).docs ++ keys ∧
      SealedFrom platform master channelId secrets.zipIdx keys := by
  unfold replaceChannelKeys at replaced
  split at replaced
  · cases replaced
  split at replaced
  · cases replaced
  next given =>
  split at replaced
  · cases replaced
  next keys written =>
  split at replaced
  · cases replaced
  next stored inserted =>
  cases replaced
  rw [sealKeysFor] at written
  split at written
  · cases written
  next configured =>
  refine ⟨fun none => given (none ▸ rfl), keys, Collection.docs_insertInOrder inserted, ?_⟩
  exact sealedFrom_mapM standard configured written

/-- The credentials of a channel that are in use: a listing stops at a hundred. -/
def credentialsInUse (secrets : List Json) : List String :=
  (secrets.map credentialText).take 100

/-- What a pick opens on a turn. -/
theorem pickOn_sealed {secrets : List Json} {stored : Collection ChannelKeyDoc}
    {keys : List ChannelKeyDoc} (listed : listChannelKeys stored channelId = keys.take 100)
    (are : SealedFrom platform master channelId secrets.zipIdx keys) {turn : Nat} {text : String}
    (next : (credentialsInUse secrets)[turn % (credentialsInUse secrets).length]? = some text) :
    (pickOn platform master stored channelId turn).map SelectedKey.secret = .ok text := by
  have opens : (keys.take 100).map (fun key => openSecret platform key.envelope master) =
      (credentialsInUse secrets).map .ok := by
    have texts : secrets.zipIdx.map (fun entry => credentialText entry.1) =
        secrets.map credentialText := by
      conv_rhs => rw [← List.zipIdx_map_fst 0 secrets, List.map_map]
      rfl
    rw [List.map_take, are.opens, credentialsInUse, ← texts, List.map_take, List.map_map]
    rfl
  have length : (keys.take 100).length = (credentialsInUse secrets).length := by
    have lengths := congrArg List.length opens
    rwa [List.length_map, List.length_map] at lengths
  have found := congrArg (fun list => list[turn % (credentialsInUse secrets).length]?) opens
  beta_reduce at found
  rw [List.getElem?_map, List.getElem?_map, next, Option.map_some] at found
  obtain ⟨key, place, opened⟩ := Option.map_eq_some_iff.mp found
  rw [pickOn, pickChannelKey]
  simp only [keyPool_nil, listed, Option.getD_some, length, place, opened]
  rfl

def sampleKeysDb : AdminDb where
  users := .empty
  tokens := .empty
  codes := .empty
  channels := sampleChannels
  channelKeys := .empty
  abilities := .empty
  pricing := ⟨.empty, .empty⟩
  mappings := noMappings
  groupRatios := .empty
  settings := .empty
  trail := []

def sampleDraw (index : Nat) : KeyDraw := ⟨[.ofNat index], List.replicate 12 0⟩

def sampleReplaced : Checked Nat × AdminDb :=
  replaceChannelKeys (sealKeysFor standardSealing "m" 1 "c1" sampleDraw [.str "a", .str " b"]) "c1"
    [.str "a", .str " b"] sampleKeysDb

end Stored

end Gateway.Admin
