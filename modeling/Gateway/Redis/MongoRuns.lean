import Gateway.Lib.Simulation
import Gateway.Redis.MongoLists
import Mathlib.Data.Finset.Card

/-!
Runs of the coordinator next to a Redis.

A key holds in the database what it holds on the server, as long as nothing of it
has expired. The cleanup of expired documents keeps that, whatever it deletes.
-/

namespace Gateway.Redis.Mongo

open Segment

section Keys

/-- The document of a key that has not expired. -/
def liveDoc (now : Int) (doc : Option KeyDoc) : Option KeyDoc :=
  doc.filter fun d => !expired now d.expiresAt

theorem isLive_eq (now : Int) (e : Entry) : e.isLive now = !expired now e.expiresAt := by
  cases expires : e.expiresAt with
  | none => simp [Entry.isLive, expired, expires]
  | some t =>
      rw [Entry.isLive, expired, expires, Option.all_some, Option.any_some, Bool.eq_iff_iff,
        Bool.not_eq_true', decide_eq_true_iff, decide_eq_false_iff_not, Int.not_le]

variable {now : Int} {items : List ListItem} {key drawn : String} {entry : Option Entry}
  {db db' db'' : MongoDb} {doc : Option KeyDoc}

theorem Spells.expiresAt (h : Spells items key entry doc) :
    entry.map Entry.expiresAt = doc.map KeyDoc.expiresAt := by
  cases doc with
  | none =>
      rw [show entry = none from h]
      rfl
  | some d =>
      obtain ⟨body, expiresAt⟩ := d
      cases body with
      | value snapshot =>
          obtain ⟨rfl, rfl, _⟩ := h
          rfl
      | list head tail generation =>
          obtain ⟨values, _, rfl, _⟩ := h
          rfl

/-- Both sides lose a key at the same time. -/
theorem Spells.live (h : Spells items key entry doc) (now : Int) :
    Spells items key (live now entry) (liveDoc now doc) := by
  have same := h.expiresAt
  cases doc with
  | none =>
      rw [show entry = none from h]
      rfl
  | some d =>
      cases entry with
      | none => cases same
      | some e =>
          have expires : e.expiresAt = d.expiresAt := Option.some.inj same
          rw [Redis.live, liveDoc, Option.filter_some, Option.filter_some, isLive_eq, expires]
          cases expired now d.expiresAt with
          | true => rfl
          | false => exact h

theorem Spells.congr {items' : List ListItem} (h : Spells items key entry doc)
    (same : ∀ g, items'.filter (isItem key g) = items.filter (isItem key g)) :
    Spells items' key entry doc := by
  cases doc with
  | none => exact h
  | some d =>
      obtain ⟨body, expiresAt⟩ := d
      cases body with
      | value snapshot => exact h
      | list head tail generation =>
          obtain ⟨values, nonempty, eq, last, laid⟩ := h
          exact ⟨values, nonempty, eq, last, by rwa [LaidOut, same]⟩

theorem Became.trans {entry' : Option Entry} (first : Became key drawn db entry db')
    (second : Became key drawn db' entry' db'') : Became key drawn db entry' db'' := by
  refine ⟨second.spells, fun k other => ?_, fun i mem => ?_⟩
  · obtain ⟨doc, rows⟩ := first.others k other
    obtain ⟨doc', rows'⟩ := second.others k other
    exact ⟨doc'.trans doc, fun g => (rows' g).trans (rows g)⟩
  · rcases second.known i mem with new | ⟨j, mem', same⟩
    · exact .inl new
    · rw [← same]
      exact first.known j mem'

theorem load_subset (now : Int) (db : MongoDb) (key : String) :
    ∀ i ∈ (db.load now key).2.items, i ∈ db.items := by
  intro i mem
  cases found : db.keys key with
  | none => simpa only [MongoDb.load, found] using mem
  | some doc =>
      cases gone : expired now doc.expiresAt with
      | true =>
          simp only [MongoDb.load, found, gone, if_true] at mem
          exact List.mem_of_mem_filter mem
      | false => simpa only [MongoDb.load, found, gone, Bool.false_eq_true, if_false] using mem

/-- Looking a key up leaves the document that is found. -/
theorem load_became (drawn : String) (h : Spells db.items key entry (liveDoc now (db.keys key))) :
    Became key drawn db entry (db.load now key).2 ∧
      (db.load now key).1 = (db.load now key).2.keys key := by
  cases found : db.keys key with
  | none =>
      rw [found] at h
      simp only [MongoDb.load, found]
      exact ⟨⟨by rw [found]; exact h, fun _ _ => ⟨rfl, fun _ => rfl⟩,
        fun i mem => .inr ⟨i, mem, rfl⟩⟩, trivial⟩
  | some doc =>
      cases gone : expired now doc.expiresAt with
      | true =>
          have missing : entry = none := by
            have none' : liveDoc now (some doc) = none := by
              simp [liveDoc, Option.filter, gone]
            rwa [found, none'] at h
          simp only [MongoDb.load, found, gone, if_true]
          subst missing
          exact ⟨remove_became (fun _ _ => ⟨rfl, fun _ => rfl⟩) fun i mem => .inr ⟨i, mem, rfl⟩,
            by simp [MongoDb.remove]⟩
      | false =>
          have same : liveDoc now (db.keys key) = db.keys key := by
            simp [found, liveDoc, Option.filter, gone]
          rw [same] at h
          simp only [MongoDb.load, found, gone, Bool.false_eq_true, if_false]
          exact ⟨⟨h, fun _ _ => ⟨rfl, fun _ => rfl⟩, fun i mem => .inr ⟨i, mem, rfl⟩⟩, trivial⟩

end Keys

section Related

/-- Every key holds on both sides the same. -/
def Related (now : Int) (db : MongoDb) (s : Store) : Prop :=
  ∀ key, Spells db.items key (live now (s key)) (liveDoc now (db.keys key))

variable {now now' : Int} {db db' : MongoDb} {s : Store} {key drawn : String}

theorem liveDoc_later (le : now ≤ now') (doc : Option KeyDoc) :
    liveDoc now' (liveDoc now doc) = liveDoc now' doc := by
  cases doc with
  | none => rfl
  | some d =>
      have stays : expired now d.expiresAt = true → expired now' d.expiresAt = true := by
        cases expires : d.expiresAt with
        | none => exact id
        | some t =>
            intro gone
            have := of_decide_eq_true gone
            exact decide_eq_true (Int.le_trans this le)
      cases gone : expired now d.expiresAt with
      | true => simp [liveDoc, Option.filter, gone, stays gone]
      | false => simp [liveDoc, Option.filter, gone]

theorem Related.later (le : now ≤ now') (h : Related now db s) : Related now' db s := by
  intro key
  have held := (h key).live now'
  rwa [live_later le, liveDoc_later le] at held

theorem Related.step (h : Related now db s) {entry : Option Entry}
    (became : Became key drawn db entry db') : Related now db' (Function.update s key entry) := by
  intro k
  by_cases here : k = key
  · subst here
    rw [Function.update_self]
    exact became.spells.live now
  · rw [Function.update_of_ne here, (became.others k here).1]
    exact (h k).congr (became.others k here).2

/-- Deleting documents that have expired, any of them. -/
def MongoDb.cleanup (now : Int) (keys : String → Bool) (items : ListItem → Bool) (db : MongoDb) :
    MongoDb :=
  ⟨fun key => (db.keys key).filter fun d => !(keys key && expired now d.expiresAt),
    db.items.filter fun i => !(items i && expired now i.expiresAt)⟩

theorem Related.cleanup (h : Related now db s) (keys : String → Bool) (items : ListItem → Bool) :
    Related now (db.cleanup now keys items) s := by
  intro key
  have same : liveDoc now ((db.cleanup now keys items).keys key) = liveDoc now (db.keys key) := by
    cases found : db.keys key with
    | none => simp [MongoDb.cleanup, found, liveDoc]
    | some d =>
        cases gone : expired now d.expiresAt with
        | true =>
            cases chosen : keys key with
            | true => simp [MongoDb.cleanup, found, liveDoc, Option.filter, gone, chosen]
            | false => simp [MongoDb.cleanup, found, liveDoc, Option.filter, gone, chosen]
        | false => simp [MongoDb.cleanup, found, liveDoc, Option.filter, gone]
  have held := h key
  rw [same]
  cases doc : liveDoc now (db.keys key) with
  | none => rwa [doc] at held
  | some d =>
      obtain ⟨body, expiresAt⟩ := d
      rw [doc] at held
      cases body with
      | value snapshot => exact held
      | list head tail generation =>
          obtain ⟨values, nonempty, eq, last, laid⟩ := held
          refine ⟨values, nonempty, eq, last, ?_⟩
          have alive : expired now expiresAt = false := by
            simpa using (Option.filter_eq_some_iff.mp doc).2
          rw [LaidOut, MongoDb.cleanup, List.filter_filter]
          refine (List.Perm.of_eq (List.filter_congr fun i mem => ?_)).trans laid
          cases mine : isItem key generation i with
          | false => rfl
          | true => rw [(laid.mem mem mine).2.2, alive, Bool.and_false, Bool.not_false, Bool.and_true]

/-- What a whole command leaves: related states, and no new generation but the drawn one. -/
structure Followed (now : Int) (drawn : String) (db : MongoDb) (s : Store) (db' : MongoDb) :
    Prop where
  related : Related now db' s
  known : ∀ i ∈ db'.items, i.generation = drawn ∨ ∃ j ∈ db.items, j.generation = i.generation

theorem Related.followed (h : Related now db s) {entry : Option Entry}
    (became : Became key drawn db entry db') :
    Followed now drawn db (Function.update s key entry) db' :=
  ⟨h.step became, became.known⟩

theorem Followed.trans {db'' : MongoDb} {s' : Store} (first : Followed now drawn db s db')
    (second : Followed now drawn db' s' db'') : Followed now drawn db s' db'' := by
  refine ⟨second.related, fun i mem => ?_⟩
  rcases second.known i mem with new | ⟨j, mem', same⟩
  · exact .inl new
  · rw [← same]
    exact first.known j mem'

theorem countKeys_followed (h : Related now db s) (drawn : String) (delete : Bool)
    (keys : List String) :
    (countKeys now delete keys db).1 =
        (Redis.countKeys now (fun s key => if delete then Function.update s key none else s)
          keys s).1 ∧
      Followed now drawn db
        (Redis.countKeys now (fun s key => if delete then Function.update s key none else s)
          keys s).2 (countKeys now delete keys db).2 := by
  induction keys generalizing db s with
  | nil => exact ⟨rfl, h, fun i mem => .inr ⟨i, mem, rfl⟩⟩
  | cons key keys ih =>
      obtain ⟨loaded, record⟩ := load_became drawn (h key)
      have looked : Followed now drawn db (evict now s key) (db.load now key).2 := h.followed loaded
      have found : (db.load now key).1.isSome = (live now (s key)).isSome := by
        have same := congrArg Option.isSome loaded.spells.expiresAt
        rw [Option.isSome_map, Option.isSome_map] at same
        rw [record, same]
      have removed : Followed now drawn db
          (if delete then Function.update (evict now s key) key none else evict now s key)
          (if delete then (db.load now key).2.remove key else (db.load now key).2) := by
        cases delete with
        | false => exact looked
        | true =>
            exact looked.trans (looked.related.followed
              (remove_became (fun _ _ => ⟨rfl, fun _ => rfl⟩) fun i mem => .inr ⟨i, mem, rfl⟩))
      obtain ⟨count, followed⟩ := ih removed.related
      refine ⟨?_, removed.trans followed⟩
      have mongo : (countKeys now delete (key :: keys) db).1 =
          (if (db.load now key).1.isSome then 1 else 0) + (countKeys now delete keys
            (if delete then (db.load now key).2.remove key else (db.load now key).2)).1 := rfl
      rw [mongo, found, count]
      rfl

end Related

section Counting

/-- A key that is named again is not there any more. -/
theorem countKeys_del (now : Int) (keys : List String) (s : Store) :
    Redis.countKeys now (fun s key => Function.update s key none) keys s =
      ((keys.toFinset.filter fun key => (live now (s key)).isSome).card,
        fun key => if key ∈ keys then none else s key) := by
  induction keys generalizing s with
  | nil => simp [Redis.countKeys]
  | cons key keys ih =>
      have erased : (keys.toFinset.filter fun k =>
          (live now ((Function.update (evict now s key) key none) k)).isSome) =
          (keys.toFinset.filter fun k => (live now (s k)).isSome).erase key := by
        ext k
        by_cases here : k = key
        · simp [here]
        · simp [here, evict]
      rw [Redis.countKeys, ih, erased]
      refine Prod.ext ?_ (funext fun k => ?_)
      · simp only [List.toFinset_cons, Finset.filter_insert]
        cases found : (live now (s key)).isSome with
        | true =>
            rw [if_pos rfl, if_pos rfl, ← Finset.erase_insert_eq_erase,
              ← Finset.card_erase_add_one (Finset.mem_insert_self key _), Nat.add_comm]
        | false =>
            rw [Finset.erase_eq_of_notMem fun mem => ?_]
            · simp
            · simp [found] at mem
      · by_cases here : k = key
        · simp [here]
        · simp [here, evict]

theorem countKeys_dedup (now : Int) (keys : List String) (s : Store) :
    Redis.countKeys now (fun s key => Function.update s key none) keys.dedup s =
      Redis.countKeys now (fun s key => Function.update s key none) keys s := by
  have same : keys.dedup.toFinset = keys.toFinset := by
    ext key
    simp
  rw [countKeys_del, countKeys_del, same]
  simp

end Counting

section Commands

variable {round : Int → Int} {limits : Limits} {now : Int} {drawn key : String} {db : MongoDb}
  {s : Store} {op : Op} {c : Command}

/-- The commands of lists, `DEL` and the commands that set an expiry. -/
def listCommand : Command → Bool
  | .on _ (.expire _) => true
  | .on _ (.pexpire _) => true
  | .on _ op => isListOp op
  | .del _ => true
  | .existsKeys _ => false

def WithinLimits (limits : Limits) (now : Int) (db : MongoDb) (c : Command) : Prop :=
  limits.command c = true ∧
    match c with
    | .on key op =>
        Fits now (positions (db.load now key).1).1 (positions (db.load now key).1).2 op
    | _ => True

instance decidableWithinLimits (limits : Limits) (now : Int) (db : MongoDb) (c : Command) :
    Decidable (WithinLimits limits now db c) := by
  cases c <;> (unfold WithinLimits; infer_instance)

/-- `LPOP` with a count, of a key that is not there. -/
def popsMissing (now : Int) (db : MongoDb) : Command → Bool
  | .on key op => (db.load now key).1.isNone && popsCount op
  | _ => false

/-- A step on the documents of one key is a step of the whole keyspace. -/
theorem Agree.followed {alike : Prop} {db' : MongoDb} {entry : Option Entry}
    (h : Related now db s) (loaded : Became key drawn db entry db')
    {x : Except ServerError (Reply × Option Entry)} {y : Outcome}
    (agree : Agree alike (Became key drawn db') x y) :
    Agree alike (Followed now drawn db)
      (x.map fun (reply, entry) => (reply, Function.update s key entry)) y := by
  cases x with
  | error why =>
      cases y with
      | error why' => exact agree
      | ok next => exact agree
  | ok next =>
      cases y with
      | error why' => exact agree
      | ok next' => exact ⟨agree.1, h.followed (loaded.trans agree.2)⟩

theorem command_list (small : limits.command (.on key op) = true) (listOp : isListOp op = true) :
    command limits now drawn (.on key op) db =
      list key op (db.load now key).1 drawn (db.load now key).2 := by
  rw [command, small, if_neg (by decide)]
  cases op with
  | rpush values => rfl
  | lpush values => rfl
  | lrange start stop => rfl
  | llen => rfl
  | ltrim start stop => rfl
  | lpop count => rfl
  | _ => cases listOp

/-- One command of the coordinator, next to the same command of the server. -/
theorem call_agrees (h : Related now db s) (fresh : ∀ i ∈ db.items, i.generation ≠ drawn)
    (lists : listCommand c = true) (within : WithinLimits limits now db c) :
    Agree (popsMissing now db c = false) (Followed now drawn db) (Server.command round now c s)
      (command limits now drawn c db) := by
  have small := within.1
  cases c with
  | existsKeys keys => cases lists
  | del keys =>
      obtain ⟨count, followed⟩ := countKeys_followed h drawn true keys.dedup
      simp only [if_true, countKeys_dedup] at count followed
      simp only [command, small, Bool.true_eq_false, if_false, Server.command]
      exact ⟨iff_of_true (by rw [count]) rfl, followed⟩
  | on key op =>
      have fits : Fits now (positions (db.load now key).1).1 (positions (db.load now key).1).2 op :=
        within.2
      obtain ⟨loaded, record⟩ := load_became drawn (h key)
      have unseen : ∀ i ∈ (db.load now key).2.items, i.generation ≠ drawn :=
        fun i mem => fresh i (load_subset now db key i mem)
      have missing : (live now (s key) = none ∧ popsCount op = true) ↔
          popsMissing now db (.on key op) = true := by
        have same := congrArg Option.isNone loaded.spells.expiresAt
        rw [Option.isNone_map, Option.isNone_map] at same
        rw [popsMissing, record, ← same, Bool.and_eq_true, Option.isNone_iff_eq_none]
      refine Agree.followed h loaded ?_
      have always (h : popsCount op = false) :
          (popsMissing now db (.on key op) = false) = True := by
        rw [popsMissing, h, Bool.and_false, eq_self]
      have listed (listOp : isListOp op = true) :
          Agree (popsMissing now db (.on key op) = false)
            (Became key drawn (db.load now key).2) (Server.serve round now (live now (s key)) op)
            (command limits now drawn (.on key op) db) := by
        rw [command_list small listOp]
        rw [record] at fits ⊢
        refine (list_agrees loaded.spells unseen listOp fits).alike ?_
        rw [missing, Bool.not_eq_true]
      cases op with
      | expire seconds =>
          have agree := @expire_agrees now (db.load now key).2 key drawn _ loaded.spells seconds 1000
            (by decide) fits.1 fits.2
          rw [← record] at agree
          simp only [command, small, Bool.true_eq_false, if_false, always rfl]
          cases entry : live now (s key) with
          | none => rwa [entry] at agree
          | some e => rwa [entry] at agree
      | pexpire ms =>
          have agree := @expire_agrees now (db.load now key).2 key drawn _ loaded.spells ms 1
            (by decide) fits.1 (by rw [Int.mul_one]; exact fits.2)
          rw [← record, Int.mul_one] at agree
          simp only [command, small, Bool.true_eq_false, if_false, always rfl]
          cases entry : live now (s key) with
          | none => rwa [entry] at agree
          | some e => rwa [entry] at agree
      | rpush values => exact listed rfl
      | lpush values => exact listed rfl
      | lpop count => exact listed rfl
      | lrange start stop => exact listed rfl
      | ltrim start stop => exact listed rfl
      | llen => exact listed rfl
      | _ => cases lists

end Commands

section Runs

/-- The database with the number of generations that were drawn. -/
structure Coordinator where
  db : MongoDb
  draws : Nat

inductive Action where
  | call (now : Int) (c : Command)
  /-- documents that have expired are deleted, whichever are chosen -/
  | cleanup (now : Int) (keys : String → Bool) (items : ListItem → Bool)

def Action.clock : Action → Int
  | .call now _ => now
  | .cleanup now _ _ => now

/-- A transaction of the coordinator, committed or rolled back. -/
def coordinate (limits : Limits) (draw : Nat → String) (c : Coordinator) :
    Action → Coordinator × Option (Except MongoError Reply)
  | .call now cmd =>
      match command limits now (draw c.draws) cmd c.db with
      | .ok (reply, db) => (⟨db, c.draws + 1⟩, some (.ok reply))
      | .error e => (⟨c.db, c.draws + 1⟩, some (.error e))
  | .cleanup now keys items => (⟨c.db.cleanup now keys items, c.draws⟩, none)

def serverStep (round : Int → Int) (s : Store) : Action → Store × Option (Except ServerError Reply)
  | .call now cmd =>
      match Server.command round now cmd s with
      | .ok (reply, s) => (s, some (.ok reply))
      | .error e => (s, some (.error e))
  | .cleanup _ _ _ => (s, none)

/-- Both answer the same, or both fail. -/
def SameReply (_ : Action) :
    Option (Except MongoError Reply) → Option (Except ServerError Reply) → Prop
  | some (.ok r), some (.ok r') => r = r'
  | some (.error _), some (.error _) => True
  | none, none => True
  | _, _ => False

/-- A list command within the limits, or a cleanup. -/
def ListAction (limits : Limits) (c : Coordinator) : Action → Prop
  | .call now cmd => listCommand cmd = true ∧ WithinLimits limits now c.db cmd
  | .cleanup _ _ _ => True

instance decidableListAction (limits : Limits) (c : Coordinator) (a : Action) :
    Decidable (ListAction limits c a) := by
  cases a <;> (unfold ListAction; infer_instance)

def PopsNothing (c : Coordinator) : Action → Prop
  | .call now cmd => popsMissing now c.db cmd = true
  | .cleanup _ _ _ => False

/-- The items of the current generation of every list are on its positions, one on each. -/
def Gapless (now : Int) (db : MongoDb) : Prop :=
  ∀ key head tail generation expiresAt,
    liveDoc now (db.keys key) = some ⟨.list head tail generation, expiresAt⟩ → head ≤ tail ∧
      ((db.items.filter (isItem key generation)).map ListItem.position).Perm
        ((List.range (tail - head + 1).toNat).map fun i : Nat => head + i)

/-- The coordinator holds what the server holds, under generations it has drawn. -/
structure Follows (draw : Nat → String) (now : Int) (c : Coordinator) (s : Store) : Prop where
  related : Related now c.db s
  drawn : ∀ i ∈ c.db.items, ∃ n < c.draws, i.generation = draw n

variable {limits : Limits} {draw : Nat → String} {now now' : Int} {c : Coordinator} {s : Store}

theorem Related.gapless {db : MongoDb} (h : Related now db s) : Gapless now db := by
  intro key head tail generation expiresAt doc
  have held := h key
  rw [doc] at held
  obtain ⟨values, nonempty, _, last, laid⟩ := held
  have size := List.length_pos_of_ne_nil nonempty
  have count : (tail - head + 1).toNat = values.length := by omega
  refine ⟨by omega, (laid.map ListItem.position).trans (List.Perm.of_eq ?_)⟩
  rw [count, ← positions_place, List.map_map]
  rfl

theorem Follows.later (le : now ≤ now') (h : Follows draw now c s) : Follows draw now' c s :=
  ⟨h.related.later le, h.drawn⟩

theorem step_follows (round : Int → Int) (distinct : Function.Injective draw) {a : Action}
    (allowed : ListAction limits c a) (h : Follows draw a.clock c s) :
    (SameReply a (coordinate limits draw c a).2 (serverStep round s a).2 ↔ ¬ PopsNothing c a) ∧
      Follows draw a.clock (coordinate limits draw c a).1 (serverStep round s a).1 := by
  cases a with
  | cleanup now keys items =>
      exact ⟨iff_of_true trivial id, h.related.cleanup keys items,
        fun i mem => h.drawn i (List.mem_of_mem_filter mem)⟩
  | call now cmd =>
      have fresh : ∀ i ∈ c.db.items, i.generation ≠ draw c.draws := by
        intro i mem same
        obtain ⟨n, lt, drawn⟩ := h.drawn i mem
        have := distinct (drawn.symm.trans same)
        omega
      have earlier : ∀ i ∈ c.db.items, ∃ n < c.draws + 1, i.generation = draw n := by
        intro i mem
        obtain ⟨n, lt, drawn⟩ := h.drawn i mem
        exact ⟨n, by omega, drawn⟩
      have agree := @call_agrees round limits now (draw c.draws) c.db s cmd h.related fresh
        allowed.1 allowed.2
      cases server : Server.command round now cmd s with
      | error why =>
          cases mongo : command limits now (draw c.draws) cmd c.db with
          | error why' =>
              rw [server, mongo] at agree
              have answered : popsMissing now c.db cmd = false := agree
              simp only [coordinate, mongo, serverStep, server]
              exact ⟨iff_of_true trivial (by simp [PopsNothing, answered]), h.related, earlier⟩
          | ok next => rw [server, mongo] at agree; exact agree.elim
      | ok next =>
          obtain ⟨reply, s'⟩ := next
          cases mongo : command limits now (draw c.draws) cmd c.db with
          | error why => rw [server, mongo] at agree; exact agree.elim
          | ok next =>
              obtain ⟨reply', db'⟩ := next
              rw [server, mongo] at agree
              simp only [coordinate, mongo, serverStep, server]
              refine ⟨?_, agree.2.related, fun i mem => ?_⟩
              · rw [PopsNothing, Bool.not_eq_true, ← agree.1]
                exact eq_comm
              · rcases agree.2.known i mem with new | ⟨j, mem', same⟩
                · exact ⟨c.draws, Nat.lt_succ_self _, new⟩
                · rw [← same]
                  exact earlier j mem'

/-- Over every history the coordinator answers as Redis does, but for an `LPOP` with a
count of a key that is missing: it answers with no items where Redis answers nothing. -/
theorem lists_are_lists_unless_popping_nothing (limits : Limits) (round : Int → Int)
    (distinct : Function.Injective draw) {actions : List Action}
    (forward : (actions.map Action.clock).IsChain (· ≤ ·))
    (lists : ∀ e ∈ Machine.trace (coordinate limits draw) ⟨.empty, 0⟩ actions,
      ListAction limits e.before e.action) :
    (List.Forall₂ (Machine.Event.Matches SameReply)
        (Machine.trace (coordinate limits draw) ⟨.empty, 0⟩ actions)
        (Machine.trace (serverStep round) Store.empty actions) ↔
      ∀ e ∈ Machine.trace (coordinate limits draw) ⟨.empty, 0⟩ actions,
        ¬ PopsNothing e.before e.action) ∧
    ∀ e ∈ Machine.trace (coordinate limits draw) ⟨.empty, 0⟩ actions,
      Gapless e.action.clock e.after.db := by
  have start (t : Int) : Follows draw t ⟨.empty, 0⟩ Store.empty :=
    ⟨fun _ => rfl, fun i mem => absurd mem List.not_mem_nil⟩
  cases actions with
  | nil => exact ⟨iff_of_true .nil fun e mem => absurd mem List.not_mem_nil,
      fun e mem => absurd mem List.not_mem_nil⟩
  | cons a actions =>
      have chain : (a.clock :: (a :: actions).map Action.clock).IsChain (· ≤ ·) :=
        List.isChain_cons_cons.mpr ⟨le_refl a.clock, forward⟩
      refine ⟨Machine.trace_matches_iff (Follows draw) Action.clock (fun c a => ¬ PopsNothing c a)
        (fun le h => h.later le) (fun allowed h => step_follows round distinct allowed h)
        (start a.clock) chain lists, fun e mem => ?_⟩
      obtain ⟨s, follows⟩ := Machine.trace_related (Follows draw) Action.clock
        (fun le h => h.later le)
        (fun allowed h => (step_follows round distinct allowed h).2) (start a.clock) chain lists
        e mem
      exact follows.related.gapless

/-- Limits that let everything through. -/
def unlimited : Limits := ⟨fun _ => true, fun _ => true⟩

/-- The generations as they come. -/
def numbered (n : Nat) : String := String.ofList (List.replicate n 'g')

theorem numbered_injective : Function.Injective numbered := by
  intro m n same
  have := congrArg List.length (String.ofList_injective same)
  simpa using this

/-- `TTL` of Redis rounds to the nearest second. -/
def nearest (ms : Int) : Int := (ms + 500) / 1000

/-- A list that is filled, drained and trimmed away, and comes back after it has expired. -/
def listActions : List Action :=
  [.call 0 (.on "q" (.rpush [.text "a", .text "b", .text "c"])),
    .call 1 (.on "q" (.lpop (some 2))),
    .call 2 (.on "q" (.lpush [.text "d"])),
    .call 3 (.on "q" (.expire 1)),
    .cleanup 5000 (fun _ => true) (fun _ => false),
    .call 6000 (.on "q" (.rpush [.text "e"])),
    .call 6000 (.on "q" (.lrange (-5) 9)),
    .call 6001 (.on "q" (.ltrim 3 4)),
    .call 6002 (.del ["q"])]

theorem lists_are_lists_drained :
    (List.Forall₂ (Machine.Event.Matches SameReply)
        (Machine.trace (coordinate unlimited numbered) ⟨.empty, 0⟩ listActions)
        (Machine.trace (serverStep nearest) Store.empty listActions) ↔
      ∀ e ∈ Machine.trace (coordinate unlimited numbered) ⟨.empty, 0⟩ listActions,
        ¬ PopsNothing e.before e.action) ∧
    ∀ e ∈ Machine.trace (coordinate unlimited numbered) ⟨.empty, 0⟩ listActions,
      Gapless e.action.clock e.after.db :=
  lists_are_lists_unless_popping_nothing unlimited nearest numbered_injective (by decide)
    (by decide +kernel)

/-- `LPOP q 1` before anything was pushed. -/
theorem popping_nothing_differs :
    (∀ e ∈ Machine.trace (coordinate unlimited numbered) ⟨.empty, 0⟩
        [.call 0 (.on "q" (.lpop (some 1)))], ListAction unlimited e.before e.action) ∧
      ¬ List.Forall₂ (Machine.Event.Matches SameReply)
        (Machine.trace (coordinate unlimited numbered) ⟨.empty, 0⟩
          [.call 0 (.on "q" (.lpop (some 1)))])
        (Machine.trace (serverStep nearest) Store.empty [.call 0 (.on "q" (.lpop (some 1)))]) := by
  refine ⟨by decide +kernel, fun same => ?_⟩
  cases same with
  | cons first _ =>
      have answers : Reply.values [] = Reply.null := first.2
      cases answers

end Runs

end Gateway.Redis.Mongo
