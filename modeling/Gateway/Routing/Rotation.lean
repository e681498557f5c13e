import Gateway.Lib.Machine
import Gateway.Redis.Keys
import Gateway.Redis.Scripts
import Gateway.Routing.Keys
import Gateway.Util.Sealing
import Mathlib.Data.List.Rotate

/-!
The credentials of a channel in turn.

A counter in the coordination store is shared by all who pick. Each pick takes the next
turn, and a turn names a place in the list of the keys that the pick chooses from.
-/

namespace Gateway

open Redis

section Picks

/-- The cursor of a channel in the pool of its keys. -/
def channelKeyIndex (channelId : String) : String := "chkey:" ++ seg channelId ++ ":idx"

structure PickCall where
  clock : Int
  skipFingerprints : List String

/-- The turn that the script answers, if it is a number from zero on. -/
def turnOf (result : List ℚ) : Option Nat :=
  (result.head?.filter fun n => decide (0 ≤ n)).map fun n => ⌊n⌋.toNat

def ChannelKeyDoc.envelope (key : ChannelKeyDoc) : SealedSecret :=
  ⟨key.cipher, key.iv, key.authTag, key.keyVersion, key.fingerprint⟩

/-- `pickChannelKey`, with the counter that it takes its turn from. -/
def pickStep (platform : SealingPlatform) (master : String) (keys : Collection ChannelKeyDoc)
    (channelId : String) (store : Store) (call : PickCall) : Store × Except Thrown SelectedKey :=
  let pool := keyPool (listChannelKeys keys channelId) call.skipFingerprints
  let (result, store) :=
    nextKey (command call.clock) (channelKeyIndex channelId) pool.length store
  (store, pickChannelKey
    ⟨some keys, turnOf result, fun key => openSecret platform key.envelope master⟩ channelId
    call.skipFingerprints)

end Picks

section Turns

/-- How many turns have been taken, as far as the counter tells. -/
inductive Turned : Option Entry → Nat → Prop
  | fresh : Turned none 0
  | counted (n : Nat) (expiresAt : Option Int) :
      Turned (some ⟨.scalar (.number (.finite n)), expiresAt⟩) n

theorem turned_live {entry : Option Entry} {n : Nat} (turned : Turned entry n) (clock : Int) :
    ∃ m, Turned (live clock entry) m := by
  cases turned with
  | fresh => exact ⟨0, .fresh⟩
  | counted n expiresAt =>
      rw [live, Option.filter_some]
      split
      · exact ⟨n, .counted n expiresAt⟩
      · exact ⟨0, .fresh⟩

/-- A turn is the number of those before it, and the counter lasts for another day. -/
theorem nextKey_turned {store : Store} {key : String} {clock : Int} {n size : Nat}
    (turned : Turned (live clock (store key)) n) (positive : 0 < size) :
    nextKey (command clock) key size store =
      ([((n % size : Nat) : ℚ)],
        Function.update store key
          (some ⟨.scalar (.number (.finite (n + 1 : Nat))), some (clock + 86400 * 1000)⟩)) := by
  have on : ¬((size : Int) ≤ 0) := by omega
  have counted : ∃ expiresAt, Op.run clock (live clock (store key)) (.incrBy 1) =
      (.number (.finite (n + 1 : Nat)),
        some ⟨.scalar (.number (.finite (n + 1 : Nat))), expiresAt⟩) ∧
      live clock (some ⟨.scalar (.number (.finite (n + 1 : Nat))), expiresAt⟩) =
        some ⟨.scalar (.number (.finite (n + 1 : Nat))), expiresAt⟩ := by
    cases found : live clock (store key) with
    | none =>
        rw [found] at turned
        cases turned
        exact ⟨none, by simp [Op.run, str, JsNumber.add, JsNumber.ofInt], rfl⟩
    | some entry =>
        rw [found] at turned
        cases turned with
        | counted n expiresAt =>
            refine ⟨expiresAt, ?_, live_of_found found⟩
            simp [Op.run, str, Datum.toNumber, JsNumber.add, JsNumber.ofInt]
  obtain ⟨expiresAt, added, alive⟩ := counted
  have turn : jsMod (⌊(Reply.number (.finite (n + 1 : Nat))).toRat⌋ - 1) size =
      ((n % size : Nat) : Int) := by
    change jsMod (⌊((n + 1 : Nat) : ℚ)⌋ - 1) size = _
    rw [Int.floor_natCast]
    push_cast
    rw [Int.add_sub_cancel]
    rfl
  rw [nextKey, if_neg on, command_on, added]
  dsimp only
  rw [command_on, Function.update_self, alive, turn, Function.update_idem]
  rfl

theorem turned_nextKey {store : Store} {key : String} {n : Nat} (turned : Turned (store key) n)
    (clock size : Int) : ∃ m, Turned ((nextKey (command clock) key size store).2 key) m := by
  by_cases off : size ≤ 0
  · rw [nextKey, if_pos off]
    exact ⟨n, turned⟩
  · obtain ⟨m, counted⟩ := turned_live turned clock
    have natural : ((size.toNat : Nat) : Int) = size := Int.toNat_of_nonneg (by omega)
    rw [← natural, nextKey_turned counted (by omega)]
    dsimp only
    rw [Function.update_self]
    exact ⟨m + 1, .counted _ _⟩

/-- Whatever turns were taken before, and out of pools of whatever size. -/
theorem exists_turned (key : String) (earlier : List (Int × Int)) :
    ∃ n, Turned ((earlier.foldl (fun store call =>
      (nextKey (command call.1) key call.2 store).2) Store.empty) key) n := by
  suffices run : ∀ store n, Turned (store key) n → ∃ n, Turned ((earlier.foldl (fun store call =>
      (nextKey (command call.1) key call.2 store).2) store) key) n from run _ 0 .fresh
  induction earlier with
  | nil => exact fun _ n turned => ⟨n, turned⟩
  | cons call earlier ih =>
      intro store n turned
      obtain ⟨m, next⟩ := turned_nextKey turned call.1 call.2
      exact ih _ m next

end Turns

section Rounds

variable {platform : SealingPlatform} {master : String} {keys : Collection ChannelKeyDoc}
  {channelId : String}

/-- What a pick answers on the turn `n`. -/
def pickOn (platform : SealingPlatform) (master : String) (keys : Collection ChannelKeyDoc)
    (channelId : String) (n : Nat) : Except Thrown SelectedKey :=
  pickChannelKey ⟨some keys, some n, fun key => openSecret platform key.envelope master⟩
    channelId []

theorem keyPool_nil (all : List ChannelKeyDoc) : keyPool all [] = all := by
  have usable : all.filter (fun key => !([] : List String).contains key.fingerprint) = all :=
    List.filter_eq_self.mpr fun _ _ => rfl
  rw [keyPool, usable]
  split <;> rfl

theorem pickStep_turned {store : Store} {clock : Int} {n : Nat}
    (turned : Turned (live clock (store (channelKeyIndex channelId))) n)
    (listed : listChannelKeys keys channelId ≠ []) :
    (pickStep platform master keys channelId store ⟨clock, []⟩).2 =
        pickOn platform master keys channelId (n % (listChannelKeys keys channelId).length) ∧
      (pickStep platform master keys channelId store ⟨clock, []⟩).1 (channelKeyIndex channelId) =
        some ⟨.scalar (.number (.finite (n + 1 : Nat))), some (clock + 86400 * 1000)⟩ := by
  have positive := List.length_pos_iff.mpr listed
  rw [pickStep, keyPool_nil, nextKey_turned turned positive]
  dsimp only
  have turn : turnOf [((n % (listChannelKeys keys channelId).length : Nat) : ℚ)] =
      some (n % (listChannelKeys keys channelId).length) := by
    rw [turnOf, List.head?_cons, Option.filter_some, if_pos (by simp), Option.map_some,
      Int.floor_natCast, Int.toNat_natCast]
  rw [turn, Function.update_self]
  exact ⟨rfl, rfl⟩

/-- Picks that follow each other within a day take one turn after the other. -/
theorem picks_in_turn (listed : listChannelKeys keys channelId ≠ []) {clocks : List Int}
    {store : Store} {n : Nat}
    (turned : ∀ clock ∈ clocks.head?, Turned (live clock (store (channelKeyIndex channelId))) n)
    (steady : clocks.IsChain fun t t' => t' < t + 86400 * 1000) :
    (Machine.trace (pickStep platform master keys channelId) store
        (clocks.map (⟨·, []⟩))).map Machine.Event.reply =
      (List.range clocks.length).map fun i =>
        pickOn platform master keys channelId
          ((n + i) % (listChannelKeys keys channelId).length) := by
  induction clocks generalizing store n with
  | nil => rfl
  | cons clock clocks ih =>
      obtain ⟨answer, counter⟩ :=
        @pickStep_turned platform master keys channelId store clock n (turned clock rfl) listed
      have later := @ih (pickStep platform master keys channelId store ⟨clock, []⟩).1 (n + 1)
        (fun next head => ?_) steady.of_cons
      · rw [List.map_cons, Machine.trace, List.map_cons, later, answer, List.length_cons,
          List.range_succ_eq_map, List.map_cons, List.map_map, Nat.add_zero]
        congr 1
        refine List.map_congr_left fun i _ => ?_
        rw [Function.comp_apply, Nat.succ_eq_add_one, Nat.add_assoc, Nat.add_comm 1 i]
      · have soon : next < clock + 86400 * 1000 := by
          cases clocks with
          | nil => cases head
          | cons c clocks =>
              cases head
              exact (List.isChain_cons_cons.mp steady).1
        rw [counter, live_of_lt soon]
        exact .counted _ _

end Rounds

end Gateway
