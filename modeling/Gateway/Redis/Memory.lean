import Gateway.Util.JsonText
import Mathlib.Data.List.Sort
import Mathlib.Logic.Function.Basic

/-!
The in-process twin of Redis.

A store maps keys to values with an expiry; a key whose expiry is not in the
future is gone. Every command but `DEL` and `EXISTS` touches one key, so it is a
function of the entry that is alive under that key. Commands come with their
arguments read: numbers as numbers and words of options as a record. A value
that a number is written into reads back as the same number, so it is kept as
the number.
-/

namespace Gateway.Redis

/-- A stored string: text of a caller, or a number that was written as text. -/
inductive Datum where
  | text (s : String)
  | number (n : JsNumber)
deriving DecidableEq

def Datum.toNumber : Datum → JsNumber
  | .text s => stringToNumber s
  | .number n => n

def Datum.string : Datum → String
  | .text s => s
  | .number (.finite q) => String.ofList (numberText q)
  | .number .nan => "NaN"
  | .number .infinity => "Infinity"
  | .number .negInfinity => "-Infinity"

/-- A member of a sorted set. -/
structure Scored where
  score : ℚ
  member : String
deriving DecidableEq

inductive Value where
  | scalar (value : Datum)
  | hash (fields : List (String × Datum))
  | list (items : List Datum)
  | zset (entries : List Scored)
deriving DecidableEq

/-- An expiry is in milliseconds. -/
structure Entry where
  value : Value
  expiresAt : Option Int
deriving DecidableEq

abbrev Store := String → Option Entry

def Store.empty : Store := fun _ => none

def Entry.isLive (now : Int) (e : Entry) : Bool := e.expiresAt.all fun t => decide (now < t)

def live (now : Int) (entry : Option Entry) : Option Entry := entry.filter (Entry.isLive now)

structure SetOptions where
  nx : Bool
  xx : Bool
  ex : Option Int
  px : Option Int
deriving DecidableEq

/-- A command on one key. `INCR`, `DECR` and `DECRBY` are increments by 1, -1 and
the negated amount. An open bound of a range of scores is `-inf` or `+inf`. -/
inductive Op where
  | get
  | set (value : Datum) (options : SetOptions)
  | setex (seconds : Int) (value : Datum)
  | expire (seconds : Int)
  | pexpire (ms : Int)
  | ttl
  | incrBy (delta : Int)
  | hset (pairs : List (String × Datum))
  | hget (field : String)
  | hmget (fields : List String)
  | hgetall
  | hincrby (field : String) (delta : Int)
  | hdel (fields : List String)
  | rpush (values : List Datum)
  | lpush (values : List Datum)
  | lrange (start stop : Int)
  | llen
  | ltrim (start stop : Int)
  | lpop (count : Option Int)
  | zadd (pairs : List (ℚ × String))
  | zcard
  | zrem (members : List String)
  | zremrangebyscore (min max : Option ℚ)
  | zrange (start stop : Int)
deriving DecidableEq

inductive Command where
  | on (key : String) (op : Op)
  | del (keys : List String)
  | existsKeys (keys : List String)
deriving DecidableEq

inductive Reply where
  | null
  | ok
  | int (n : Int)
  | number (n : JsNumber)
  | value (d : Datum)
  | values (ds : List (Option Datum))
  | record (fields : List (String × Datum))
  | members (names : List String)
deriving DecidableEq

section Readers

def str (entry : Option Entry) : Option Datum :=
  match entry with
  | some ⟨.scalar d, _⟩ => some d
  | _ => none

def Value.asHash : Value → Option (List (String × Datum))
  | .hash fields => some fields
  | _ => none

/-- An array without elements is a list and a sorted set. -/
def Value.asList : Value → Option (List Datum)
  | .list items => some items
  | .zset [] => some []
  | _ => none

def Value.asZset : Value → Option (List Scored)
  | .zset entries => some entries
  | .list [] => some []
  | _ => none

/-- A collection that is there, with its expiry; `fresh` when it is created. -/
def collection {α : Type} (as : Value → Option α) (fresh : α) (entry : Option Entry) :
    Option (α × Option Int) :=
  match entry with
  | none => some (fresh, none)
  | some e => (as e.value).map fun c => (c, e.expiresAt)

end Readers

section Arrays

/-- The position a slice takes an index for. -/
def sliceIndex (length : Nat) (index : Int) : Nat :=
  if index < 0 then (length + index).toNat else min index.toNat length

/-- `xs.slice(from, to)` -/
def jsSlice {α : Type} (xs : List α) (start stop : Int) : List α :=
  (xs.take (sliceIndex xs.length stop)).drop (sliceIndex xs.length start)

/-- The slice that `LRANGE`, `LTRIM` and `ZRANGE` take. -/
def sliceRange {α : Type} (xs : List α) (start stop : Int) : List α :=
  jsSlice xs (if start < 0 then xs.length + start else start)
    (if stop < 0 then xs.length + stop + 1 else stop + 1)

def setField (fields : List (String × Datum)) (name : String) (value : Datum) :
    List (String × Datum) :=
  if fields.any (·.1 == name) then
    fields.map fun entry => if entry.1 = name then (name, value) else entry
  else fields ++ [(name, value)]

def setScore (entries : List Scored) (score : ℚ) (member : String) : List Scored :=
  if entries.any (·.member == member) then
    entries.map fun e => if e.member = member then ⟨score, member⟩ else e
  else entries ++ [⟨score, member⟩]

def sortScores (entries : List Scored) : List Scored :=
  entries.insertionSort fun x y => x.score ≤ y.score

def inScores (min max : Option ℚ) (e : Scored) : Bool :=
  min.all (fun m => decide (m ≤ e.score)) && max.all (fun m => decide (e.score ≤ m))

end Arrays

section Commands

/-- Whole seconds up to an expiry, rounded up. -/
def secondsLeft (now expiresAt : Int) : Int := -((now - expiresAt) / 1000)

def Op.run (now : Int) (entry : Option Entry) : Op → Reply × Option Entry
  | .get => ((str entry).elim .null .value, entry)
  | .set value options =>
      if options.nx && entry.isSome then (.null, entry)
      else if options.xx && entry.isNone then (.null, entry)
      else
        (.ok, some ⟨.scalar value,
          (options.px.map (now + ·)).or (options.ex.map fun seconds => now + seconds * 1000)⟩)
  | .setex seconds value => (.ok, some ⟨.scalar value, some (now + seconds * 1000)⟩)
  | .expire seconds =>
      match entry with
      | none => (.int 0, none)
      | some e => (.int 1, some { e with expiresAt := some (now + seconds * 1000) })
  | .pexpire ms =>
      match entry with
      | none => (.int 0, none)
      | some e => (.int 1, some { e with expiresAt := some (now + ms) })
  | .ttl =>
      match entry with
      | none => (.int (-2), none)
      | some e => (.int (e.expiresAt.elim (-1) (secondsLeft now)), some e)
  | .incrBy delta =>
      let next := ((str entry).elim (.finite 0) Datum.toNumber).add (.ofInt delta)
      (.number next, some ⟨.scalar (.number next), entry.bind Entry.expiresAt⟩)
  | .hset pairs =>
      match collection Value.asHash [] entry with
      | none => (.int 0, entry)
      | some (fields, expiresAt) =>
          let next := pairs.foldl (fun fields pair => setField fields pair.1 pair.2) fields
          (.int (next.length - fields.length), some ⟨.hash next, expiresAt⟩)
  | .hget field =>
      (((entry.bind fun e => e.value.asHash).bind (List.lookup field)).elim .null .value, entry)
  | .hmget names =>
      (.values (names.map fun name =>
        (entry.bind fun e => e.value.asHash).bind (List.lookup name)), entry)
  | .hgetall => (.record ((entry.bind fun e => e.value.asHash).getD []), entry)
  | .hincrby field delta =>
      match collection Value.asHash [] entry with
      | none => (.int 0, entry)
      | some (fields, expiresAt) =>
          let next := ((fields.lookup field).elim (.finite 0) Datum.toNumber).add (.ofInt delta)
          (.number next, some ⟨.hash (setField fields field (.number next)), expiresAt⟩)
  | .hdel names =>
      match entry.bind fun e => e.value.asHash.map fun fields => (fields, e.expiresAt) with
      | none => (.int 0, entry)
      | some (fields, expiresAt) =>
          let kept := fields.filter fun field => !names.contains field.1
          (.int (fields.length - kept.length), some ⟨.hash kept, expiresAt⟩)
  | .rpush values =>
      match collection Value.asList [] entry with
      | none => (.int 0, entry)
      | some (items, expiresAt) =>
          (.int (items ++ values).length, some ⟨.list (items ++ values), expiresAt⟩)
  | .lpush values =>
      match collection Value.asList [] entry with
      | none => (.int 0, entry)
      | some (items, expiresAt) =>
          (.int (values.reverse ++ items).length,
            some ⟨.list (values.reverse ++ items), expiresAt⟩)
  | .lrange start stop =>
      (.values ((sliceRange ((entry.bind fun e => e.value.asList).getD []) start stop).map some),
        entry)
  | .llen => (.int ((entry.bind fun e => e.value.asList).getD []).length, entry)
  | .ltrim start stop =>
      match entry.bind fun e => e.value.asList.map fun items => (items, e.expiresAt) with
      | none => (.ok, entry)
      | some (items, expiresAt) => (.ok, some ⟨.list (sliceRange items start stop), expiresAt⟩)
  | .lpop count =>
      match entry.bind fun e => e.value.asList.map fun items => (items, e.expiresAt) with
      | none => (.null, entry)
      | some ([], _) => (.null, entry)
      | some (items, expiresAt) =>
          let taken := items.take (count.getD 1).toNat
          (if count.isNone then taken.head?.elim .null .value else .values (taken.map some),
            some ⟨.list (items.drop (count.getD 1).toNat), expiresAt⟩)
  | .zadd pairs =>
      match collection Value.asZset [] entry with
      | none => (.int 0, entry)
      | some (entries, expiresAt) =>
          let next := pairs.foldl (fun entries pair => setScore entries pair.1 pair.2) entries
          (.int (next.length - entries.length), some ⟨.zset (sortScores next), expiresAt⟩)
  | .zcard => (.int ((entry.bind fun e => e.value.asZset).getD []).length, entry)
  | .zrem names =>
      match entry.bind fun e => e.value.asZset.map fun entries => (entries, e.expiresAt) with
      | none => (.int 0, entry)
      | some (entries, expiresAt) =>
          let kept := entries.filter fun e => !names.contains e.member
          (.int (entries.length - kept.length), some ⟨.zset kept, expiresAt⟩)
  | .zremrangebyscore min max =>
      match entry.bind fun e => e.value.asZset.map fun entries => (entries, e.expiresAt) with
      | none => (.int 0, entry)
      | some (entries, expiresAt) =>
          let kept := entries.filter fun e => !inScores min max e
          (.int (entries.length - kept.length), some ⟨.zset kept, expiresAt⟩)
  | .zrange start stop =>
      (.members ((sliceRange ((entry.bind fun e => e.value.asZset).getD []) start stop).map
        Scored.member), entry)

/-- `live` deletes a key that has expired. -/
def evict (now : Int) (s : Store) (key : String) : Store :=
  Function.update s key (live now (s key))

/-- How many of the keys are there, one after the other. -/
def countKeys (now : Int) (after : Store → String → Store) : List String → Store → Nat × Store
  | [], s => (0, s)
  | key :: keys, s =>
      let (found, s') := countKeys now after keys (after (evict now s key) key)
      ((if (live now (s key)).isSome then 1 else 0) + found, s')

/-- `MemoryRedis.command` -/
def command (now : Int) (c : Command) (s : Store) : Reply × Store :=
  match c with
  | .on key op =>
      let (reply, entry) := op.run now (live now (s key))
      (reply, Function.update s key entry)
  | .del keys =>
      let (found, s) := countKeys now (fun s key => Function.update s key none) keys s
      (.int found, s)
  | .existsKeys keys =>
      let (found, s) := countKeys now (fun s _ => s) keys s
      (.int found, s)

@[simp]
theorem command_on (now : Int) (key : String) (op : Op) (s : Store) :
    command now (.on key op) s =
      ((op.run now (live now (s key))).1,
        Function.update s key (op.run now (live now (s key))).2) := rfl

end Commands

section Live

@[simp]
theorem live_none (now : Int) : live now none = none := rfl

@[simp]
theorem live_live (now : Int) (entry : Option Entry) :
    live now (live now entry) = live now entry := by
  cases entry with
  | none => rfl
  | some e =>
      by_cases h : e.isLive now = true
      · simp [live, Option.filter, h]
      · simp [live, Option.filter, h]

theorem live_later {now later : Int} (le : now ≤ later) (entry : Option Entry) :
    live later (live now entry) = live later entry := by
  cases entry with
  | none => rfl
  | some e =>
      by_cases alive : e.isLive now = true
      · simp [live, Option.filter, alive]
      · have dead : e.isLive later = false := by
          cases e with
          | mk value expiresAt =>
              cases expiresAt with
              | none => simp [Entry.isLive] at alive
              | some t =>
                  simp only [Entry.isLive, Option.all_some, decide_eq_true_eq, not_lt,
                    decide_eq_false_iff_not] at alive ⊢
                  omega
        simp [live, Option.filter, alive, dead]

/-- Whatever is written over a key that was found keeps its expiry alive. -/
theorem live_of_found {now : Int} {entry : Option Entry} {value value' : Value}
    {expiresAt : Option Int} (found : live now entry = some ⟨value, expiresAt⟩) :
    live now (some ⟨value', expiresAt⟩) = some ⟨value', expiresAt⟩ := by
  have alive := (Option.filter_eq_some_iff.mp found).2
  exact Option.filter_eq_some_iff.mpr ⟨rfl, alive⟩

theorem live_of_lt {now t : Int} {value : Value} (later : now < t) :
    live now (some ⟨value, some t⟩) = some ⟨value, some t⟩ := by
  simp [live, Option.filter, Entry.isLive, later]

theorem live_of_le {now t : Int} {value : Value} (passed : t ≤ now) :
    live now (some ⟨value, some t⟩) = none := by
  simp [live, Option.filter, Entry.isLive, passed]

end Live

end Gateway.Redis
