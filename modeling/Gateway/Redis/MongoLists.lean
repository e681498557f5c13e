import Gateway.Lib.Segment
import Gateway.Redis.Mongo
import Gateway.Redis.Server

/-!
Lists over MongoDB are lists of Redis.

The items of the current generation of a list lie on the positions from its head
to its tail. Items of other generations are leftovers of a list that has expired;
they are never read again, because a generation is drawn once. Every operation is
compared with the operation of the server on the list that the items spell.
-/

namespace Gateway.Redis.Mongo

open Segment

/-- The document of a value at a position. -/
def itemAt (key generation : String) (expiresAt : Option Int) (p : Int × Datum) : ListItem :=
  ⟨key, generation, p.1, p.2, expiresAt⟩

/-- The items of a generation are exactly the positions from the head on. -/
def LaidOut (items : List ListItem) (key generation : String) (expiresAt : Option Int) (head : Int)
    (values : List Datum) : Prop :=
  (items.filter (isItem key generation)).Perm
    ((place head values).map (itemAt key generation expiresAt))

/-- A database that holds the same under a key. -/
def SameKey (db db' : MongoDb) (key : String) : Prop :=
  db'.keys key = db.keys key ∧
    ∀ generation, db'.items.filter (isItem key generation) =
      db.items.filter (isItem key generation)

section Items

variable {items : List ListItem} {key generation : String} {expiresAt : Option Int} {head : Int}
  {values : List Datum}

theorem isItem_itemAt (p : Int × Datum) :
    isItem key generation (itemAt key generation expiresAt p) = true := by
  simp [isItem, itemAt]

theorem map_value_itemAt (xs : List Datum) :
    ((place head xs).map (itemAt key generation expiresAt)).map (some ·.value) = xs.map some := by
  rw [List.map_map, ← map_snd_place head xs, List.map_map, map_snd_place]
  rfl

theorem LaidOut.mem (h : LaidOut items key generation expiresAt head values) {i : ListItem}
    (mem : i ∈ items) (mine : isItem key generation i = true) :
    head ≤ i.position ∧ i.position < head + values.length ∧ i.expiresAt = expiresAt := by
  obtain ⟨p, placed, rfl⟩ := List.mem_map.mp (h.mem_iff.mp (List.mem_filter.mpr ⟨mem, mine⟩))
  have := mem_place placed
  exact ⟨this.1, this.2, rfl⟩

/-- What remains of a generation when some positions are kept. -/
theorem LaidOut.keep (h : LaidOut items key generation expiresAt head values)
    (p : Int → Bool) :
    (items.filter fun i => isItem key generation i && p i.position).Perm
      (((place head values).filter fun q => p q.1).map (itemAt key generation expiresAt)) := by
  have kept := h.filter fun i => p i.position
  rw [List.filter_filter, List.filter_map] at kept
  refine (List.Perm.of_eq (List.filter_congr fun i _ => ?_)).trans kept
  exact Bool.and_comm _ _

/-- The rows between two positions, in order. -/
theorem LaidOut.find {db : MongoDb} (h : LaidOut db.items key generation expiresAt head values)
    {m n : Nat} (le : n ≤ values.length) {p : ListItem → Bool} {limit : Int}
    (between : ∀ i, p i = true ↔
      isItem key generation i = true ∧ head + m ≤ i.position ∧ i.position < head + n)
    (size : ((n - m : Nat) : Int) = limit) :
    db.find p limit =
      (place (head + m) ((values.take n).drop m)).map (itemAt key generation expiresAt) := by
  have kept := h.keep fun x => decide (head + m ≤ x ∧ x < head + n)
  rw [filter_between_place] at kept
  have sorted := insertionSort_place ListItem.position (fun _ => rfl) kept
  have same (i : ListItem) : p i =
      (isItem key generation i && decide (head + m ≤ i.position ∧ i.position < head + n)) := by
    rw [Bool.eq_iff_iff, between, Bool.and_eq_true, decide_eq_true_iff]
  rw [MongoDb.find, List.filter_congr fun i _ => same i, sorted]
  refine List.take_of_length_le ?_
  rw [List.length_map, length_place, List.length_drop, List.length_take]
  omega

theorem LaidOut.grow (h : LaidOut items key generation expiresAt head values) (front : Bool)
    (value : Datum) :
    LaidOut (items ++ [itemAt key generation expiresAt
        (if front then head - 1 else head + values.length, value)]) key generation expiresAt
      (if front then head - 1 else head) (if front then value :: values else values ++ [value]) := by
  rw [LaidOut, List.filter_append, List.filter_cons_of_pos (isItem_itemAt _), List.filter_nil]
  cases front with
  | true =>
      have shift : head - 1 + 1 = head := by omega
      simp only [if_true, place, shift, List.map_cons]
      exact (h.append_right _).trans List.perm_append_comm
  | false =>
      simp only [Bool.false_eq_true, if_false, place_append, List.map_append]
      exact h.append_right _

/-- What is left when all positions but those from `m` on, before `n`, are deleted. -/
theorem LaidOut.delete {db : MongoDb} (h : LaidOut db.items key generation expiresAt head values)
    {m n : Nat} {p : ListItem → Bool}
    (outside : ∀ i ∈ db.items, isItem key generation i = true →
      (p i = false ↔ head + m ≤ i.position ∧ i.position < head + n)) :
    LaidOut (db.deleteMany p).items key generation expiresAt (head + m)
      ((values.take n).drop m) := by
  have kept := h.keep fun x => decide (head + m ≤ x ∧ x < head + n)
  rw [filter_between_place] at kept
  refine (List.Perm.of_eq ?_).trans kept
  rw [MongoDb.deleteMany, List.filter_filter]
  refine List.filter_congr fun i mem => ?_
  cases mine : isItem key generation i with
  | false => rfl
  | true =>
      rw [Bool.true_and, Bool.true_and, Bool.eq_iff_iff, decide_eq_true_iff, Bool.not_eq_true']
      exact outside i mem mine

theorem deleteMany_elsewhere (db : MongoDb) {p : ListItem → Bool}
    (mine : ∀ i, p i = true → i.key = key) {k : String} (other : k ≠ key) :
    SameKey db (db.deleteMany p) k := by
  refine ⟨rfl, fun g => ?_⟩
  rw [MongoDb.deleteMany, List.filter_filter]
  refine List.filter_congr fun i _ => ?_
  cases deleted : p i with
  | false => exact Bool.and_true _
  | true => simp [isItem, mine i deleted, Ne.symm other]

/-- An expiry is written into every item of the generation, and into no other. -/
theorem LaidOut.expire {db : MongoDb} (h : LaidOut db.items key generation expiresAt head values)
    (t : Option Int) :
    LaidOut (db.updateMany (isItem key generation) t).items key generation t head values := by
  have same (i : ListItem) : isItem key generation
      (if isItem key generation i then { i with expiresAt := t } else i) =
        isItem key generation i := by
    cases mine : isItem key generation i with
    | true => exact mine
    | false => exact mine
  have written := h.map fun i => { i with expiresAt := t }
  rw [List.map_map] at written
  refine (List.Perm.of_eq ?_).trans written
  rw [MongoDb.updateMany, List.filter_map]
  refine (List.map_congr_left fun i mem => if_pos ?_).trans (congrArg _ ?_)
  · simpa [same] using (List.mem_filter.mp mem).2
  · exact List.filter_congr fun i _ => same i

theorem updateMany_elsewhere (db : MongoDb) (t : Option Int) {k : String} (other : k ≠ key) :
    SameKey db (db.updateMany (isItem key generation) t) k := by
  have apart (i : ListItem) (g : String) (theirs : isItem k g i = true) :
      isItem key generation i = false := by
    have at' : i.key = k := by simpa using (Bool.and_eq_true_iff.mp theirs).1
    simp [isItem, at', other]
  refine ⟨rfl, fun g => ?_⟩
  have same (i : ListItem) : isItem k g
      (if isItem key generation i then { i with expiresAt := t } else i) = isItem k g i := by
    cases isItem key generation i with
    | true => rfl
    | false => rfl
  rw [MongoDb.updateMany, List.filter_map]
  refine Eq.trans (congrArg _ (List.filter_congr fun i _ => same i)) ?_
  refine (List.map_congr_left fun i mem => ?_).trans (List.map_id _)
  rw [apart i g (List.mem_filter.mp mem).2]
  rfl

theorem insertItem_fresh {db : MongoDb}
    (h : LaidOut db.items key generation expiresAt head values) {position : Int}
    (outside : ¬ (head ≤ position ∧ position < head + values.length)) (value : Datum) :
    db.insertItem ⟨key, generation, position, value, expiresAt⟩ =
      .ok { db with items := db.items ++ [⟨key, generation, position, value, expiresAt⟩] } := by
  refine if_neg fun found => outside ?_
  obtain ⟨i, mem, same⟩ := List.any_eq_true.mp found
  simp only [Bool.and_eq_true, beq_iff_eq] at same
  obtain ⟨⟨sameKey, sameGeneration⟩, rfl⟩ := same
  have within := h.mem mem (by simp [isItem, sameKey, sameGeneration])
  exact ⟨within.1, within.2.1⟩

/-- Pushing one value after the other. -/
theorem push_spec (front : Bool) (pushed : List Datum) {tail : Int} {db : MongoDb}
    (h : LaidOut db.items key generation expiresAt head values)
    (last : tail + 1 = head + values.length)
    (safe : ∀ i < pushed.length,
      isSafeInteger (if front then head - 1 - i else tail + 1 + i) = true) :
    ∃ head' tail' db', push key generation expiresAt front pushed head tail db =
        .ok (head', tail', db') ∧
      LaidOut db'.items key generation expiresAt head'
        (if front then pushed.reverse ++ values else values ++ pushed) ∧
      tail' + 1 = head' + (values.length + pushed.length : Nat) ∧ db'.keys = db.keys ∧
      (∀ k ≠ key, ∀ g, db'.items.filter (isItem k g) = db.items.filter (isItem k g)) ∧
      ∀ i ∈ db'.items, i ∈ db.items ∨ i.generation = generation := by
  induction pushed generalizing head tail values db with
  | nil =>
      refine ⟨head, tail, db, rfl, ?_, last, rfl, fun _ _ _ => rfl, fun i mem => .inl mem⟩
      cases front with
      | true => exact h
      | false => rwa [List.append_nil]
  | cons value pushed ih =>
      have room : isSafeInteger (if front then head - 1 else tail + 1) = true := by
        simpa using safe 0 (Nat.succ_pos pushed.length)
      have outside : ¬ (head ≤ (if front then head - 1 else tail + 1) ∧
          (if front then head - 1 else tail + 1) < head + values.length) := by
        cases front with
        | true => simp
        | false =>
            simp
            omega
      have inserted := insertItem_fresh h outside value
      have grown := h.grow front value
      rw [← last] at grown
      obtain ⟨head', tail', db', run, laid, last', keys, others, known⟩ :=
        @ih (if front then head - 1 else head) (if front then value :: values else values ++ [value])
          (if front then tail else tail + 1)
          { db with items := db.items ++ [⟨key, generation,
            if front then head - 1 else tail + 1, value, expiresAt⟩] } grown
          (by cases front <;> simp <;> omega)
          (fun i lt => by
            have next := safe (i + 1) (Nat.succ_lt_succ lt)
            cases front with
            | true => rwa [if_pos rfl, Int.natCast_succ, Int.add_comm, ← Int.sub_sub] at next
            | false => rwa [if_neg Bool.false_ne_true, Int.natCast_succ, Int.add_comm (i : Int),
                ← Int.add_assoc] at next)
      refine ⟨head', tail', db', ?_, ?_, ?_, keys, fun k other g => ?_, fun i mem => ?_⟩
      · rw [push, room]
        simp only [Bool.true_eq_false, if_false, inserted]
        cases front with
        | true => exact run
        | false => exact run
      · cases front with
        | true => simpa using laid
        | false => simpa using laid
      · have count : (if front then value :: values else values ++ [value]).length =
            values.length + 1 := by
          cases front <;> simp
        rw [last', count, List.length_cons]
        omega
      · have elsewhere : isItem k g ⟨key, generation, if front then head - 1 else tail + 1, value,
            expiresAt⟩ = false := by
          simp [isItem, Ne.symm other]
        rw [others k other g, List.filter_append, List.filter_cons_of_neg (by simp [elsewhere]),
          List.filter_nil, List.append_nil]
      · rcases known i mem with old | new
        · rcases List.mem_append.mp old with old | new
          · exact .inl old
          · obtain rfl := List.mem_singleton.mp new
            exact .inr rfl
        · exact .inr new

end Items

section Operations

/-- What the documents of a key spell when nothing about it has expired. -/
def Spells (items : List ListItem) (key : String) (entry : Option Entry) : Option KeyDoc → Prop
  | none => entry = none
  | some ⟨.value snapshot, expiresAt⟩ => entry = some snapshot ∧
      snapshot.expiresAt = expiresAt ∧ Server.asList snapshot.value = none
  | some ⟨.list head tail generation, expiresAt⟩ => ∃ values, values ≠ [] ∧
      entry = some ⟨.list values, expiresAt⟩ ∧ tail + 1 = head + values.length ∧
      LaidOut items key generation expiresAt head values

/-- A list while a command works on it. A list without items has no document. -/
structure Layout (db : MongoDb) (key drawn generation : String) (expiresAt : Option Int)
    (head tail : Int) (values : List Datum) : Prop where
  last : tail + 1 = head + values.length
  laid : LaidOut db.items key generation expiresAt head values
  missing : values = [] → db.keys key = none ∧ expiresAt = none
  present : values ≠ [] → db.keys key = some ⟨.list head tail generation, expiresAt⟩
  known : generation = drawn ∨ ∃ i ∈ db.items, i.generation = generation

/-- What a step on one key leaves: an entry under the key, everything else as it was,
and no generation but the one that was drawn is new. -/
structure Became (key drawn : String) (db : MongoDb) (entry : Option Entry) (db' : MongoDb) :
    Prop where
  spells : Spells db'.items key entry (db'.keys key)
  others : ∀ k ≠ key, SameKey db db' k
  known : ∀ i ∈ db'.items, i.generation = drawn ∨ ∃ j ∈ db.items, j.generation = i.generation

/-- Both fail, or both answer and leave related states; whether they answer alike. -/
def Agree {α β : Type} (alike : Prop) (Q : α → β → Prop) :
    Except ServerError (Reply × α) → Except MongoError (Reply × β) → Prop
  | .ok (r, next), .ok (r', next') => (r = r' ↔ alike) ∧ Q next next'
  | .error _, .error _ => alike
  | _, _ => False

theorem Agree.alike {α β : Type} {a b : Prop} {Q : α → β → Prop}
    {x : Except ServerError (Reply × α)} {y : Except MongoError (Reply × β)} (h : Agree a Q x y)
    (same : a ↔ b) : Agree b Q x y :=
  propext same ▸ h

variable {round : Int → Int} {now : Int} {db : MongoDb} {key drawn generation : String}
  {expiresAt : Option Int} {head tail : Int} {values : List Datum}

theorem Layout.spells (lay : Layout db key drawn generation expiresAt head tail values) :
    Spells db.items key (Server.listEntry values expiresAt) (db.keys key) := by
  cases values with
  | nil =>
      rw [(lay.missing rfl).1]
      rfl
  | cons v vs =>
      rw [lay.present (List.cons_ne_nil v vs)]
      exact ⟨v :: vs, List.cons_ne_nil v vs, rfl, lay.last, lay.laid⟩

theorem Layout.unchanged (lay : Layout db key drawn generation expiresAt head tail values) :
    Became key drawn db (Server.listEntry values expiresAt) db :=
  ⟨lay.spells, fun _ _ => ⟨rfl, fun _ => rfl⟩, fun i mem => .inr ⟨i, mem, rfl⟩⟩

theorem Layout.length (lay : Layout db key drawn generation expiresAt head tail values) :
    max 0 (tail - head + 1) = values.length := by
  have := lay.last
  omega

theorem typed_listEntry (values : List Datum) (expiresAt : Option Int) :
    Server.typed Server.asList (Server.listEntry values expiresAt) =
      .ok (if values = [] then none else some (values, expiresAt)) := by
  cases values with
  | nil => rfl
  | cons v vs => rfl

theorem getD_listEntry (forever : values = [] → expiresAt = none) :
    (if values = [] then none else some (values, expiresAt)).getD ([], none) =
      (values, expiresAt) := by
  cases values with
  | nil => rw [if_pos rfl, forever rfl]; rfl
  | cons v vs => rfl

theorem remove_became {db' : MongoDb} (others : ∀ k ≠ key, SameKey db db' k)
    (known : ∀ i ∈ db'.items, i.generation = drawn ∨
      ∃ j ∈ db.items, j.generation = i.generation) :
    Became key drawn db none (db'.remove key) := by
  have gone : (db'.remove key).keys key = none := by simp [MongoDb.remove]
  refine ⟨by rw [gone]; rfl, fun k other => ⟨?_, fun g => ?_⟩,
    fun i mem => known i (List.mem_of_mem_filter mem)⟩
  · exact (Function.update_of_ne other _ _).trans (others k other).1
  · rw [← (others k other).2, MongoDb.remove, List.filter_filter]
    refine List.filter_congr fun i _ => ?_
    by_cases mine : i.key = k
    · simp [isItem, mine, other]
    · simp [isItem, mine]

/-- Saving the head and the tail of what the items spell. -/
theorem save_became {db' : MongoDb} {head' tail' : Int} {values' : List Datum}
    (nonempty : values' ≠ []) (last : tail' + 1 = head' + values'.length)
    (laid : LaidOut db'.items key generation expiresAt head' values')
    (others : ∀ k ≠ key, SameKey db db' k)
    (known : ∀ i ∈ db'.items, i.generation = drawn ∨
      ∃ j ∈ db.items, j.generation = i.generation) :
    Became key drawn db (Server.listEntry values' expiresAt)
      (db'.save key ⟨.list head' tail' generation, expiresAt⟩) := by
  have saved : (db'.save key ⟨.list head' tail' generation, expiresAt⟩).keys key =
      some ⟨.list head' tail' generation, expiresAt⟩ := by
    simp [MongoDb.save]
  refine ⟨?_, fun k other => ⟨?_, (others k other).2⟩, known⟩
  · rw [saved]
    exact ⟨values', nonempty, if_neg nonempty, last, laid⟩
  · exact (Function.update_of_ne other _ _).trans (others k other).1

theorem pushAll_agrees (lay : Layout db key drawn generation expiresAt head tail values)
    (front : Bool) (pushed : List Datum)
    (safe : ∀ i < pushed.length,
      isSafeInteger (if front then head - 1 - i else tail + 1 + i) = true) :
    Agree True (Became key drawn db)
      (Server.serve round now (Server.listEntry values expiresAt)
        (if front then .lpush pushed else .rpush pushed))
      (pushAll key generation expiresAt front pushed head tail db) := by
  by_cases none' : pushed = []
  · subst none'
    cases front with
    | true => exact trivial
    | false => exact trivial
  obtain ⟨head', tail', db', run, laid, last, keys, others, known⟩ :=
    push_spec front pushed lay.laid lay.last safe
  have mongo : pushAll key generation expiresAt front pushed head tail db =
      .ok (.int (tail' - head' + 1), db'.save key ⟨.list head' tail' generation, expiresAt⟩) := by
    simp only [pushAll, if_neg none', run]
    rfl
  let next := if front then pushed.reverse ++ values else values ++ pushed
  have count : next.length = values.length + pushed.length := by
    cases front <;> simp [next, Nat.add_comm]
  have nonempty : next ≠ [] := by
    cases front <;> simp [next, none']
  have server : Server.serve round now (Server.listEntry values expiresAt)
      (if front then .lpush pushed else .rpush pushed) =
        .ok (.int next.length, Server.listEntry next expiresAt) := by
    cases front with
    | true =>
        simp only [if_true, Server.serve, if_neg none', typed_listEntry, bind, Except.bind, pure,
          Except.pure, getD_listEntry fun none' => (lay.missing none').2, next]
    | false =>
        simp only [Bool.false_eq_true, if_false, Server.serve, if_neg none', typed_listEntry, bind,
          Except.bind, pure, Except.pure, getD_listEntry fun none' => (lay.missing none').2, next]
  rw [server, mongo]
  refine ⟨iff_of_true ?_ trivial, save_became nonempty (by rw [count]; exact last) laid
    (fun k other => ⟨by rw [keys], others k other⟩) fun i mem => ?_⟩
  · congr 1
    rw [count]
    omega
  · rcases known i mem with old | new
    · exact .inr ⟨i, old, rfl⟩
    · rw [new]
      exact lay.known

/-- What the positions of both sides select. -/
theorem range_spec (values : List Datum) (start stop : Int) :
    ((range values.length start stop).2 < (range values.length start stop).1 ∧
      Server.range values start stop = []) ∨
    ∃ m n : Nat, m < n ∧ n ≤ values.length ∧ range values.length start stop = ((m : Int), (n : Int) - 1) ∧
      Server.range values start stop = (values.take n).drop m := by
  let first := if start < 0 then values.length + start else start
  let last := if stop < 0 then values.length + stop else stop
  have mongo : range values.length start stop =
      (max 0 first, min ((values.length : Int) - 1) last) := rfl
  have server : Server.range values start stop =
      (values.take (last + 1).toNat).drop first.toNat := rfl
  rw [mongo, server]
  by_cases none' : min ((values.length : Int) - 1) last < max 0 first
  · refine .inl ⟨none', List.drop_eq_nil_of_le ?_⟩
    rw [List.length_take]
    omega
  · refine .inr ⟨first.toNat, min (last + 1).toNat values.length, by omega, by omega, ?_, ?_⟩
    · ext
      · show max 0 first = first.toNat
        omega
      · show min ((values.length : Int) - 1) last = (min (last + 1).toNat values.length : Nat) - 1
        omega
    · rw [List.take_eq_take_iff.mpr]
      omega

theorem readRange_agrees (lay : Layout db key drawn generation expiresAt head tail values)
    {start stop : Int} (safe : isSafeInteger start = true) (safe' : isSafeInteger stop = true)
    (size : (range values.length start stop).2 - (range values.length start stop).1 + 1 ≤
      maxListRead) :
    Agree True (Became key drawn db)
      (Server.serve round now (Server.listEntry values expiresAt) (.lrange start stop))
      (readRange key generation start stop head tail db) := by
  have server : Server.serve round now (Server.listEntry values expiresAt) (.lrange start stop) =
      .ok (.values ((Server.range values start stop).map some),
        Server.listEntry values expiresAt) := by
    simp only [Server.serve, typed_listEntry, bind, Except.bind, pure, Except.pure]
    cases values with
    | nil => rfl
    | cons v vs => rfl
  rw [server]
  rcases range_spec values start stop with ⟨empty, nothing⟩ | ⟨m, n, lt, le, mongo, some'⟩
  · have mongo : readRange key generation start stop head tail db = .ok (.values [], db) := by
      simp only [readRange, integer, safe, safe', if_true, lay.length, bind, Except.bind, pure,
        Except.pure, if_pos empty]
    rw [mongo, nothing]
    exact ⟨iff_of_true rfl trivial, lay.unchanged⟩
  · rw [mongo] at size
    have found : db.find (fun i => isItem key generation i &&
        decide (head + (m : Int) ≤ i.position ∧ i.position ≤ head + ((n : Int) - 1)))
        ((n : Int) - 1 - m + 1) = (place (head + m) ((values.take n).drop m)).map
          (itemAt key generation expiresAt) := by
      refine lay.laid.find le (fun i => ?_) (by omega)
      rw [Bool.and_eq_true, decide_eq_true_iff]
      refine and_congr_right fun _ => and_congr_right fun _ => ?_
      omega
    have mongo : readRange key generation start stop head tail db =
        .ok (.values (((values.take n).drop m).map some), db) := by
      have count : ((values.take n).drop m).length = (n : Int) - 1 - m + 1 := by
        rw [List.length_drop, List.length_take]
        omega
      have inside : ¬ (n : Int) - 1 < m := by omega
      simp only [readRange, integer, safe, safe', if_true, lay.length, bind, Except.bind, pure,
        Except.pure, mongo, if_neg inside, if_neg (Int.not_lt.mpr size), found, List.length_map,
        length_place, count, ne_eq, not_true_eq_false, if_false, map_value_itemAt]
    rw [mongo, some']
    exact ⟨iff_of_true rfl trivial, lay.unchanged⟩

theorem trim_agrees (lay : Layout db key drawn generation expiresAt head tail values)
    {start stop : Int} (safe : isSafeInteger start = true) (safe' : isSafeInteger stop = true) :
    Agree True (Became key drawn db)
      (Server.serve round now (Server.listEntry values expiresAt) (.ltrim start stop))
      (trim key generation expiresAt start stop head tail db) := by
  have server : Server.serve round now (Server.listEntry values expiresAt) (.ltrim start stop) =
      .ok (.ok, Server.listEntry (Server.range values start stop) expiresAt) := by
    simp only [Server.serve, typed_listEntry, bind, Except.bind, pure, Except.pure,
      getD_listEntry fun none' => (lay.missing none').2]
  rw [server]
  rcases range_spec values start stop with ⟨empty, nothing⟩ | ⟨m, n, lt, le, mongo, some'⟩
  · have mongo : trim key generation expiresAt start stop head tail db =
        .ok (.ok, db.remove key) := by
      simp only [trim, integer, safe, safe', if_true, lay.length, bind, Except.bind, pure,
        Except.pure, if_pos empty]
    rw [mongo, nothing]
    exact ⟨iff_of_true rfl trivial, remove_became (fun _ _ => ⟨rfl, fun _ => rfl⟩)
      fun i mem => .inr ⟨i, mem, rfl⟩⟩
  · let cut := fun i => isItem key generation i &&
      (decide (i.position < head + (m : Int)) || decide (head + ((n : Int) - 1) < i.position))
    have mongo : trim key generation expiresAt start stop head tail db =
        .ok (.ok, (db.deleteMany cut).save key
          ⟨.list (head + (m : Int)) (head + ((n : Int) - 1)) generation, expiresAt⟩) := by
      have inside : ¬ (n : Int) - 1 < m := by omega
      simp only [trim, integer, safe, safe', if_true, lay.length, bind, Except.bind, pure,
        Except.pure, mongo, if_neg inside, cut]
    have laid := lay.laid.delete (m := m) (n := n) (p := cut) fun i _ mine => by
      simp only [cut, mine, Bool.true_and, Bool.or_eq_false_iff, decide_eq_false_iff_not]
      omega
    have count : ((values.take n).drop m).length = n - m := by
      rw [List.length_drop, List.length_take]
      omega
    rw [mongo, some']
    refine ⟨iff_of_true rfl trivial, save_became (fun none' => ?_) (by rw [count]; omega) laid
      (fun k other => deleteMany_elsewhere db (fun i deleted => ?_) other) fun i mem => ?_⟩
    · rw [none', List.length_nil] at count
      omega
    · have mine : isItem key generation i = true := (Bool.and_eq_true_iff.mp deleted).1
      simpa [isItem] using (Bool.and_eq_true_iff.mp mine).1
    · exact .inr ⟨i, List.mem_of_mem_filter mem, rfl⟩

/-- Items that are wanted and there are taken from the front. -/
theorem pop_spec (lay : Layout db key drawn generation expiresAt head tail values)
    (nonempty : values ≠ []) {count : Option Int} {n : Nat}
    (wanted : count.elim (.ok 1) integer = .ok (n : Int))
    (positive : 0 < n) (small : (n : Int) ≤ maxListRead) :
    ∃ db', pop key generation expiresAt count head tail db =
        .ok (if count.isNone then (values.take n).head?.elim .null .value
          else .values ((values.take n).map some), db') ∧
      Became key drawn db (Server.listEntry (values.drop n) expiresAt) db' := by
  let cut := fun i => isItem key generation i &&
    decide (i.position < head + (min n values.length : Nat))
  have last := lay.last
  have size : 0 < values.length := List.length_pos_of_ne_nil nonempty
  have taken : min (n : Int) values.length = (min n values.length : Nat) := by omega
  have found : db.find (fun i => isItem key generation i &&
      decide (head ≤ i.position ∧ i.position < head + (min n values.length : Nat)))
      (min n values.length : Nat) =
        (place head (values.take n)).map (itemAt key generation expiresAt) := by
    have found := lay.laid.find (m := 0) (n := min n values.length) (Nat.min_le_right _ _)
      (p := fun i => isItem key generation i &&
        decide (head ≤ i.position ∧ i.position < head + (min n values.length : Nat)))
      (fun i => by rw [Bool.and_eq_true, decide_eq_true_iff]; simp) rfl
    rw [List.drop_zero, ← List.take_eq_take_min] at found
    simpa using found
  have mongo : pop key generation expiresAt count head tail db =
      .ok (if count.isNone then (values.take n).head?.elim .null .value
          else .values ((values.take n).map some),
        if tail < head + (min n values.length : Nat) then (db.deleteMany cut).remove key
        else (db.deleteMany cut).save key
          ⟨.list (head + (min n values.length : Nat)) tail generation, expiresAt⟩) := by
    have inside : ¬ ((n : Int) < 0 ∨ maxListRead < (n : Int)) := by omega
    have some' : ¬ ((values.length : Int) = 0 ∨ (n : Int) = 0) := by omega
    have first : ((place head (values.take n)).map (itemAt key generation expiresAt)).head?.elim
        Reply.null (.value ·.value) = (values.take n).head?.elim .null .value := by
      cases values.take n with
      | nil => rfl
      | cons v vs => rfl
    simp only [pop, wanted, lay.length, bind, Except.bind, pure, Except.pure, if_neg inside,
      if_neg some', taken, found, List.length_map, length_place, List.length_take, ne_eq,
      not_true_eq_false, if_false, map_value_itemAt, first, cut]
  have mine (i : ListItem) (deleted : cut i = true) : i.key = key := by
    have mine : isItem key generation i = true := (Bool.and_eq_true_iff.mp deleted).1
    simpa [isItem] using (Bool.and_eq_true_iff.mp mine).1
  refine ⟨_, mongo, ?_⟩
  by_cases all : values.length ≤ n
  · have beyond : tail < head + (min n values.length : Nat) := by omega
    rw [if_pos beyond, List.drop_eq_nil_of_le all]
    exact remove_became (fun k other => deleteMany_elsewhere db mine other)
      fun i mem => .inr ⟨i, List.mem_of_mem_filter mem, rfl⟩
  · have under : ¬ tail < head + (min n values.length : Nat) := by omega
    have laid := lay.laid.delete (m := n) (n := values.length) (p := cut) fun i mem mine => by
      have := lay.laid.mem mem mine
      simp only [cut, mine, Bool.true_and, decide_eq_false_iff_not]
      omega
    rw [List.take_length] at laid
    have least : min n values.length = n := by omega
    rw [if_neg under, least]
    refine save_became (fun none' => ?_) (by rw [List.length_drop]; omega) laid
      (fun k other => deleteMany_elsewhere db mine other)
      fun i mem => .inr ⟨i, List.mem_of_mem_filter mem, rfl⟩
    have := congrArg List.length none'
    rw [List.length_drop, List.length_nil] at this
    omega

theorem pop_agrees (lay : Layout db key drawn generation expiresAt head tail values)
    {count : Option Int} (safe : ∀ n ∈ count, isSafeInteger n = true ∧ n ≤ maxListRead) :
    Agree (¬ (values = [] ∧ ∃ n ∈ count, 0 ≤ n)) (Became key drawn db)
      (Server.serve round now (Server.listEntry values expiresAt) (.lpop count))
      (pop key generation expiresAt count head tail db) := by
  by_cases negative : ∃ n ∈ count, n < 0
  · obtain ⟨n, rfl, less⟩ := negative
    have server : Server.serve round now (Server.listEntry values expiresAt) (.lpop (some n)) =
        .error .outOfRange := by
      simp [Server.serve, less, bind, Except.bind, throw, throwThe, MonadExceptOf.throw]
    have mongo : pop key generation expiresAt (some n) head tail db = .error .popOutsideLimit := by
      simp [pop, integer, (safe n rfl).1, less, bind, Except.bind, throw, throwThe,
        MonadExceptOf.throw]
    rw [server, mongo]
    rintro ⟨_, m, given, least⟩
    obtain rfl := Option.some.inj given
    omega
  have least (n : Int) (given : n ∈ count) : 0 ≤ n := by
    by_contra less
    exact negative ⟨n, given, by omega⟩
  have fine : count.any (· < 0) = false := by
    cases count with
    | none => rfl
    | some n => simpa using least n rfl
  obtain ⟨n, wanted, small, given⟩ : ∃ n : Nat, count.elim (Except.ok 1) integer = .ok (n : Int) ∧
      (n : Int) ≤ maxListRead ∧ (count.getD 1).toNat = n := by
    cases count with
    | none => exact ⟨1, rfl, by decide, rfl⟩
    | some n =>
        have := least n rfl
        have cast : ((n.toNat : Nat) : Int) = n := by omega
        exact ⟨n.toNat, by rw [cast]; exact if_pos (safe n rfl).1, cast ▸ (safe n rfl).2, rfl⟩
  cases values with
  | nil =>
      have server : Server.serve round now (Server.listEntry [] expiresAt) (.lpop count) =
          .ok (.null, none) := by
        simp only [Server.serve, fine, bind, Except.bind, pure, Except.pure]
        rfl
      have mongo : pop key generation expiresAt count head tail db =
          .ok (if count.isNone then .null else .values [], db) := by
        have inside : ¬ ((n : Int) < 0 ∨ maxListRead < (n : Int)) := by omega
        simp only [pop, wanted, lay.length, bind, Except.bind, pure, Except.pure, if_neg inside,
          List.length_nil, Int.ofNat_zero, true_or, if_true]
      rw [server, mongo]
      refine ⟨?_, lay.unchanged⟩
      cases count with
      | none => simp
      | some m => simpa using least m rfl
  | cons v vs =>
      have server : Server.serve round now (Server.listEntry (v :: vs) expiresAt) (.lpop count) =
          .ok (if count.isNone then ((v :: vs).take n).head?.elim .null .value
              else .values (((v :: vs).take n).map some),
            Server.listEntry ((v :: vs).drop n) expiresAt) := by
        rw [← given]
        simp only [Server.serve, fine, bind, Except.bind, pure, Except.pure]
        rfl
      have alike : ¬ (v :: vs = [] ∧ ∃ n ∈ count, 0 ≤ n) := fun h => List.cons_ne_nil v vs h.1
      cases n with
      | zero =>
          have asked : count.isNone = false := by
            cases count with
            | none => cases given
            | some m => rfl
          have mongo : pop key generation expiresAt count head tail db =
              .ok (.values [], db) := by
            have inside : ¬ ((0 : Int) < 0 ∨ maxListRead < 0) := by decide
            simp only [pop, wanted, lay.length, bind, Except.bind, pure, Except.pure,
              if_neg inside, Int.ofNat_zero, or_true, if_true, asked, Bool.false_eq_true, if_false]
          rw [server, mongo, asked]
          exact ⟨iff_of_true rfl alike, lay.unchanged⟩
      | succ n =>
          obtain ⟨db', mongo, became⟩ := pop_spec lay (List.cons_ne_nil v vs) wanted
            (Nat.succ_pos n) small
          rw [server, mongo]
          exact ⟨iff_of_true rfl alike, became⟩

/-- Whether a command asks for a number of items off the front. -/
def popsCount : Op → Bool
  | .lpop (some n) => decide (0 ≤ n)
  | _ => false

/-- What the limits ask of a command on a list from `head` to `tail`. -/
def Fits (now head tail : Int) : Op → Prop
  | .rpush values => ∀ i < values.length, isSafeInteger (tail + 1 + i) = true
  | .lpush values => ∀ i < values.length, isSafeInteger (head - 1 - i) = true
  | .lpop count => ∀ n ∈ count, isSafeInteger n = true ∧ n ≤ maxListRead
  | .lrange start stop => isSafeInteger start = true ∧ isSafeInteger stop = true ∧
      (range (max 0 (tail - head + 1)) start stop).2 -
        (range (max 0 (tail - head + 1)) start stop).1 + 1 ≤ maxListRead
  | .ltrim start stop => isSafeInteger start = true ∧ isSafeInteger stop = true
  | .expire seconds => isSafeInteger seconds = true ∧
      (0 < seconds → isValidTime (now + seconds * 1000) = true)
  | .pexpire ms => isSafeInteger ms = true ∧ (0 < ms → isValidTime (now + ms) = true)
  | _ => True

instance decidableFits (now head tail : Int) (op : Op) : Decidable (Fits now head tail op) := by
  cases op <;> (unfold Fits; infer_instance)

theorem runList_agrees (lay : Layout db key drawn generation expiresAt head tail values) {op : Op}
    (listOp : isListOp op = true) (fits : Fits now head tail op) :
    Agree (¬ (values = [] ∧ popsCount op = true)) (Became key drawn db)
      (Server.serve round now (Server.listEntry values expiresAt) op)
      (runList key op head tail generation expiresAt db) := by
  have always (h : popsCount op = false) : (¬ (values = [] ∧ popsCount op = true)) = True := by
    simp [h]
  cases op with
  | rpush pushed =>
      rw [always rfl]
      exact pushAll_agrees lay false pushed fits
  | lpush pushed =>
      rw [always rfl]
      exact pushAll_agrees lay true pushed fits
  | lrange start stop =>
      obtain ⟨safe, safe', size⟩ := fits
      rw [lay.length] at size
      rw [always rfl]
      exact readRange_agrees lay safe safe' size
  | llen =>
      rw [always rfl]
      have server : Server.serve round now (Server.listEntry values expiresAt) .llen =
          .ok (.int values.length, Server.listEntry values expiresAt) := by
        simp only [Server.serve, typed_listEntry, bind, Except.bind, pure, Except.pure]
        cases values with
        | nil => rfl
        | cons v vs => rfl
      rw [server, runList, lay.length]
      exact ⟨iff_of_true rfl trivial, lay.unchanged⟩
  | ltrim start stop =>
      rw [always rfl]
      exact trim_agrees lay fits.1 fits.2
  | lpop count =>
      have same : (∃ n ∈ count, 0 ≤ n) ↔ popsCount (.lpop count) = true := by
        cases count with
        | none => simp [popsCount]
        | some n => simp [popsCount]
      rw [← same]
      exact pop_agrees lay fits
  | _ => cases listOp

/-- The positions of a list; a key that is missing is an empty list. -/
def positions : Option KeyDoc → Int × Int
  | some ⟨.list head tail _, _⟩ => (head, tail)
  | _ => (0, -1)

theorem serve_wrongType {e : Entry} (typed : Server.asList e.value = none) {op : Op}
    (listOp : isListOp op = true) : ∃ why, Server.serve round now (some e) op = .error why := by
  have wrong : Server.typed Server.asList (some e) = .error .wrongType := by
    simp only [Server.typed, typed]
  cases op with
  | rpush pushed =>
      by_cases none' : pushed = []
      · exact ⟨.arity, by rw [none']; rfl⟩
      · exact ⟨.wrongType, by
          simp only [Server.serve, if_neg none', wrong, bind, Except.bind]⟩
  | lpush pushed =>
      by_cases none' : pushed = []
      · exact ⟨.arity, by rw [none']; rfl⟩
      · exact ⟨.wrongType, by
          simp only [Server.serve, if_neg none', wrong, bind, Except.bind]⟩
  | lpop count =>
      cases negative : count.any (· < 0) with
      | true =>
          exact ⟨.outOfRange, by
            simp only [Server.serve, negative, if_true, bind, Except.bind, throw, throwThe,
              MonadExceptOf.throw]⟩
      | false =>
          exact ⟨.wrongType, by
            simp only [Server.serve, negative, Bool.false_eq_true, if_false, wrong, bind,
              Except.bind]⟩
  | lrange start stop =>
      exact ⟨.wrongType, by simp only [Server.serve, wrong, bind, Except.bind]⟩
  | llen => exact ⟨.wrongType, by simp only [Server.serve, wrong, bind, Except.bind]⟩
  | ltrim start stop =>
      exact ⟨.wrongType, by simp only [Server.serve, wrong, bind, Except.bind]⟩
  | _ => cases listOp

theorem list_agrees {entry : Option Entry} (h : Spells db.items key entry (db.keys key))
    (fresh : ∀ i ∈ db.items, i.generation ≠ drawn) {op : Op} (listOp : isListOp op = true)
    (fits : Fits now (positions (db.keys key)).1 (positions (db.keys key)).2 op) :
    Agree (¬ (entry = none ∧ popsCount op = true)) (Became key drawn db)
      (Server.serve round now entry op) (list key op (db.keys key) drawn db) := by
  cases doc : db.keys key with
  | none =>
      rw [doc] at h fits
      obtain rfl : entry = none := h
      have lay : Layout db key drawn drawn none 0 (-1) [] := by
        refine ⟨rfl, ?_, fun _ => ⟨doc, rfl⟩, fun nonempty => absurd rfl nonempty, .inl rfl⟩
        refine List.Perm.of_eq (List.filter_eq_nil_iff.mpr fun i mem mine => fresh i mem ?_)
        simpa [isItem] using (Bool.and_eq_true_iff.mp mine).2
      exact (runList_agrees lay listOp fits).alike (by simp)
  | some d =>
      obtain ⟨body, expiresAt⟩ := d
      rw [doc] at h fits
      cases body with
      | value snapshot =>
          obtain ⟨rfl, _, typed⟩ := h
          obtain ⟨why, server⟩ := serve_wrongType typed listOp
          rw [server]
          exact fun missing => absurd missing.1 (Option.some_ne_none _)
      | list head tail generation =>
          obtain ⟨values, nonempty, rfl, last, laid⟩ := h
          have known : ∃ i ∈ db.items, i.generation = generation := by
            obtain ⟨v, vs, rfl⟩ := List.exists_cons_of_ne_nil nonempty
            have mem := laid.mem_iff.mpr (List.mem_cons_self (a := itemAt key generation expiresAt
              (head, v)))
            obtain ⟨mem, mine⟩ := List.mem_filter.mp mem
            exact ⟨_, mem, rfl⟩
          have lay : Layout db key drawn generation expiresAt head tail values :=
            ⟨last, laid, fun none' => absurd none' nonempty, fun _ => doc, .inr known⟩
          have agree := @runList_agrees round now db key drawn generation expiresAt head tail values lay
            op listOp fits
          rw [Server.listEntry, if_neg nonempty] at agree
          exact agree.alike (by simp [nonempty])

/-- `EXPIRE` and `PEXPIRE`. -/
theorem expire_agrees {entry : Option Entry} (h : Spells db.items key entry (db.keys key))
    {amount unit : Int} (positive : 0 < unit) (safe : isSafeInteger amount = true)
    (valid : 0 < amount → isValidTime (now + amount * unit) = true) :
    Agree True (Became key drawn db)
      (entry.elim (.ok (.int 0, none)) fun e =>
        .ok (.int 1, Server.expireAt now (now + amount * unit) e))
      (expire now key amount unit (db.keys key) db) := by
  have passed (e : Entry) (le : amount ≤ 0) : Server.expireAt now (now + amount * unit) e = none := by
    have := Int.mul_nonpos_of_nonpos_of_nonneg le (Int.le_of_lt positive)
    exact if_pos (by omega)
  have future (e : Entry) (lt : 0 < amount) : Server.expireAt now (now + amount * unit) e =
      some { e with expiresAt := some (now + amount * unit) } := by
    have := Int.mul_pos lt positive
    exact if_neg (by omega)
  cases doc : db.keys key with
  | none =>
      rw [doc] at h
      obtain rfl : entry = none := h
      refine ⟨iff_of_true rfl trivial, by rw [doc]; rfl, fun _ _ => ⟨rfl, fun _ => rfl⟩,
        fun i mem => .inr ⟨i, mem, rfl⟩⟩
  | some d =>
      obtain ⟨body, expiresAt⟩ := d
      rw [doc] at h
      have there : ∃ e, entry = some e := by
        cases body with
        | value snapshot => exact ⟨_, h.1⟩
        | list head tail generation =>
            obtain ⟨values, _, eq, _⟩ := h
            exact ⟨_, eq⟩
      obtain ⟨e, rfl⟩ := there
      by_cases le : amount ≤ 0
      · have beyond : amount * unit ≤ 0 :=
          Int.mul_nonpos_of_nonpos_of_nonneg le (Int.le_of_lt positive)
        have mongo : expire now key amount unit (some ⟨body, expiresAt⟩) db =
            .ok (.int 1, db.remove key) := by
          simp only [expire, integer, safe, if_true, bind, Except.bind, if_pos beyond, pure,
            Except.pure]
        rw [mongo]
        show Agree True _ (.ok (.int 1, Server.expireAt now (now + amount * unit) e)) _
        rw [passed e le]
        exact ⟨iff_of_true rfl trivial, remove_became (fun _ _ => ⟨rfl, fun _ => rfl⟩)
          fun i mem => .inr ⟨i, mem, rfl⟩⟩
      · have lt : 0 < amount := by omega
        have under : ¬ amount * unit ≤ 0 := by
          have := Int.mul_pos lt positive
          omega
        show Agree True _ (.ok (.int 1, Server.expireAt now (now + amount * unit) e)) _
        rw [future e lt]
        cases body with
        | value snapshot =>
            have mongo : expire now key amount unit (some ⟨.value snapshot, expiresAt⟩) db =
                .ok (.int 1, db.save key
                  ⟨.value { snapshot with expiresAt := some (now + amount * unit) },
                    some (now + amount * unit)⟩) := by
              simp only [expire, integer, safe, if_true, bind, Except.bind, if_neg under, pure,
                Except.pure, valid lt, Bool.true_eq_false, if_false]
            rw [mongo]
            obtain ⟨eq, _, typed⟩ := h
            obtain rfl := Option.some.inj eq
            exact ⟨iff_of_true rfl trivial, by simp [MongoDb.save, Spells, typed],
              fun k other => ⟨Function.update_of_ne other _ _, fun _ => rfl⟩,
              fun i mem => .inr ⟨i, mem, rfl⟩⟩
        | list head tail generation =>
            have mongo : expire now key amount unit
                (some ⟨.list head tail generation, expiresAt⟩) db =
                .ok (.int 1, (db.save key
                  ⟨.list head tail generation, some (now + amount * unit)⟩).updateMany
                    (isItem key generation) (some (now + amount * unit))) := by
              simp only [expire, integer, safe, if_true, bind, Except.bind, if_neg under, pure,
                Except.pure, valid lt, Bool.true_eq_false, if_false]
            rw [mongo]
            obtain ⟨values, nonempty, eq, last, laid⟩ := h
            obtain rfl := Option.some.inj eq
            refine ⟨iff_of_true rfl trivial, ?_, fun k other => ?_, fun i mem => ?_⟩
            · simp only [MongoDb.updateMany, MongoDb.save, Function.update_self]
              exact ⟨values, nonempty, rfl, last, laid.expire _⟩
            · have ⟨_, rows⟩ := @updateMany_elsewhere key generation db
                (some (now + amount * unit)) k other
              exact ⟨Function.update_of_ne other _ _, rows⟩
            · obtain ⟨j, mem', rfl⟩ := List.mem_map.mp mem
              refine .inr ⟨j, mem', ?_⟩
              cases isItem key generation j with
              | true => rfl
              | false => rfl

end Operations

end Gateway.Redis.Mongo
