import Gateway.Redis.Memory

/-!
Coordination over MongoDB.

Small values are one document each and go through the in-process interpreter on
every operation. Lists are separate: one document for the key with the positions
of the first and the last item, and one document for each item, named by the
hash of its key, generation and position. A transaction that fails leaves the
database as it was.
-/

namespace Gateway.Redis.Mongo

inductive MongoError where
  | wrongType
  | tooLarge
  | invalidInteger
  | invalidExpiry
  | emptyPush
  | positionOverflow
  | popOutsideLimit
  | readOutsideLimit
  | inconsistent
  | duplicateKey
  | unsupported
deriving DecidableEq

inductive KeyBody where
  | value (snapshot : Entry)
  | list (head tail : Int) (generation : String)

structure KeyDoc where
  body : KeyBody
  expiresAt : Option Int

structure ListItem where
  key : String
  generation : String
  position : Int
  value : Datum
  expiresAt : Option Int
deriving DecidableEq

structure MongoDb where
  keys : String → Option KeyDoc
  items : List ListItem

def MongoDb.empty : MongoDb := ⟨fun _ => none, []⟩

/-- What `bounded` lets through: the arguments of a command, with the length of its
key and the number of its arguments, and a snapshot. -/
structure Limits where
  command : Command → Bool
  snapshot : Entry → Bool

def maxListRead : Int := 1000

abbrev Outcome := Except MongoError (Reply × MongoDb)

def integer (n : Int) : Except MongoError Int :=
  if isSafeInteger n then .ok n else .error .invalidInteger

/-- The times a `Date` can hold. -/
def isValidTime (t : Int) : Bool := decide (t.natAbs ≤ 8640000000000000)

/-- A date that is not valid is written as the epoch. -/
def storedTime (t : Int) : Int := if isValidTime t then t else 0

def range (length from' to' : Int) : Int × Int :=
  (max 0 (if from' < 0 then length + from' else from'),
    min (length - 1) (if to' < 0 then length + to' else to'))

def expired (now : Int) (expiresAt : Option Int) : Bool := expiresAt.any fun t => decide (t ≤ now)

namespace MongoDb

def remove (db : MongoDb) (key : String) : MongoDb :=
  ⟨Function.update db.keys key none, db.items.filter fun i => i.key != key⟩

def save (db : MongoDb) (key : String) (doc : KeyDoc) : MongoDb :=
  { db with keys := Function.update db.keys key (some doc) }

/-- An expired key is removed when it is looked up. -/
def load (now : Int) (db : MongoDb) (key : String) : Option KeyDoc × MongoDb :=
  match db.keys key with
  | none => (none, db)
  | some doc => if expired now doc.expiresAt then (none, db.remove key) else (some doc, db)

/-- The hash that names an item has no collisions. -/
def insertItem (db : MongoDb) (item : ListItem) : Except MongoError MongoDb :=
  if db.items.any fun i =>
      i.key == item.key && i.generation == item.generation && i.position == item.position then
    .error .duplicateKey
  else .ok { db with items := db.items ++ [item] }

def find (db : MongoDb) (p : ListItem → Bool) (limit : Int) : List ListItem :=
  ((db.items.filter p).insertionSort fun x y => x.position ≤ y.position).take limit.toNat

def deleteMany (db : MongoDb) (p : ListItem → Bool) : MongoDb :=
  { db with items := db.items.filter fun i => !p i }

def updateMany (db : MongoDb) (p : ListItem → Bool) (expiresAt : Option Int) : MongoDb :=
  { db with items := db.items.map fun i => if p i then { i with expiresAt := expiresAt } else i }

end MongoDb

/-- The items of one generation of a list. -/
def isItem (key generation : String) (i : ListItem) : Bool :=
  i.key == key && i.generation == generation

section Lists

variable (key generation : String) (expiresAt : Option Int)

def push (front : Bool) :
    List Datum → Int → Int → MongoDb → Except MongoError (Int × Int × MongoDb)
  | [], head, tail, db => .ok (head, tail, db)
  | value :: values, head, tail, db => do
      let position := if front then head - 1 else tail + 1
      if isSafeInteger position = false then throw .positionOverflow
      let db ← db.insertItem ⟨key, generation, position, value, expiresAt⟩
      push front values (if front then position else head) (if front then tail else position) db

def pushAll (front : Bool) (values : List Datum) (head tail : Int) (db : MongoDb) :
    Outcome := do
  if values = [] then throw .emptyPush
  let (head, tail, db) ← push key generation expiresAt front values head tail db
  return (.int (tail - head + 1), db.save key ⟨.list head tail generation, expiresAt⟩)

def pop (count : Option Int) (head tail : Int) (db : MongoDb) : Outcome := do
  let length := max 0 (tail - head + 1)
  let wanted ← count.elim (.ok 1) integer
  if wanted < 0 ∨ maxListRead < wanted then throw .popOutsideLimit
  if length = 0 ∨ wanted = 0 then
    return (if count.isNone then .null else .values [], db)
  let taken := min wanted length
  let found := db.find (fun i => isItem key generation i &&
    decide (head ≤ i.position ∧ i.position < head + taken)) taken
  if found.length ≠ taken then throw .inconsistent
  let db := db.deleteMany fun i => isItem key generation i && decide (i.position < head + taken)
  let db := if tail < head + taken then db.remove key
    else db.save key ⟨.list (head + taken) tail generation, expiresAt⟩
  return (if count.isNone then found.head?.elim .null (.value ·.value)
    else .values (found.map (some ·.value)), db)

def readRange (start stop head tail : Int) (db : MongoDb) : Outcome := do
  let (first, last) := range (max 0 (tail - head + 1)) (← integer start) (← integer stop)
  if last < first then return (.values [], db)
  let size := last - first + 1
  if maxListRead < size then throw .readOutsideLimit
  let found := db.find (fun i => isItem key generation i &&
    decide (head + first ≤ i.position ∧ i.position ≤ head + last)) size
  if found.length ≠ size then throw .inconsistent
  return (.values (found.map (some ·.value)), db)

def trim (start stop head tail : Int) (db : MongoDb) : Outcome := do
  let (first, last) := range (max 0 (tail - head + 1)) (← integer start) (← integer stop)
  if last < first then return (.ok, db.remove key)
  let db := db.deleteMany fun i => isItem key generation i &&
    (decide (i.position < head + first) || decide (head + last < i.position))
  return (.ok, db.save key ⟨.list (head + first) (head + last) generation, expiresAt⟩)

end Lists

def runList (key : String) (op : Op) (head tail : Int) (generation : String)
    (expiresAt : Option Int) (db : MongoDb) : Outcome :=
  match op with
  | .llen => .ok (.int (max 0 (tail - head + 1)), db)
  | .rpush values => pushAll key generation expiresAt false values head tail db
  | .lpush values => pushAll key generation expiresAt true values head tail db
  | .lpop count => pop key generation expiresAt count head tail db
  | .lrange start stop => readRange key generation start stop head tail db
  | .ltrim start stop => trim key generation expiresAt start stop head tail db
  | _ => .error .unsupported

/-- `list`: a key that is missing is a list without items, under a generation that is drawn. -/
def list (key : String) (op : Op) (record : Option KeyDoc) (drawn : String) (db : MongoDb) :
    Outcome :=
  match record with
  | none => runList key op 0 (-1) drawn none db
  | some ⟨.list head tail generation, expiresAt⟩ =>
      runList key op head tail generation expiresAt db
  | some ⟨.value _, _⟩ => .error .wrongType

def isListOp : Op → Bool
  | .rpush _ | .lpush _ | .lrange _ _ | .llen | .ltrim _ _ | .lpop _ => true
  | _ => false

def isReadOp : Op → Bool
  | .get | .hget _ | .hmget _ | .hgetall | .zcard | .zrange _ _ => true
  | _ => false

/-- A value command: the key alone goes through the interpreter. -/
def value (limits : Limits) (now : Int) (key : String) (op : Op) (record : Option Entry)
    (db : MongoDb) : Outcome :=
  let (reply, s) := Redis.command now (.on key op) (Function.update Store.empty key record)
  if isReadOp op then .ok (reply, db)
  else
    match live now (s key) with
    | none => .ok (reply, db.remove key)
    | some snapshot =>
        if limits.snapshot snapshot then
          .ok (reply, db.save key ⟨.value snapshot, snapshot.expiresAt.map storedTime⟩)
        else .error .tooLarge

def expire (now : Int) (key : String) (amount unit : Int) (record : Option KeyDoc)
    (db : MongoDb) : Outcome :=
  match record with
  | none => .ok (.int 0, db)
  | some doc => do
      let duration := (← integer amount) * unit
      if duration ≤ 0 then return (.int 1, db.remove key)
      let t := now + duration
      if isValidTime t = false then throw .invalidExpiry
      match doc.body with
      | .value snapshot =>
          return (.int 1, db.save key ⟨.value { snapshot with expiresAt := some t }, some t⟩)
      | .list head tail generation =>
          return (.int 1, (db.save key ⟨.list head tail generation, some t⟩).updateMany
            (isItem key generation) (some t))

/-- `DEL` and `EXISTS`, over the keys without repetitions. -/
def countKeys (now : Int) (delete : Bool) : List String → MongoDb → Nat × MongoDb
  | [], db => (0, db)
  | key :: keys, db =>
      let (record, db) := db.load now key
      let (found, db) := countKeys now delete keys (if delete then db.remove key else db)
      ((if record.isSome then 1 else 0) + found, db)

def command (limits : Limits) (now : Int) (drawn : String) (c : Command) (db : MongoDb) :
    Outcome :=
  if limits.command c = false then .error .tooLarge
  else
    match c with
    | .del keys =>
        let (found, db) := countKeys now true keys.dedup db
        .ok (.int found, db)
    | .existsKeys keys =>
        let (found, db) := countKeys now false keys.dedup db
        .ok (.int found, db)
    | .on key op =>
        let (record, db) := db.load now key
        match op with
        | .ttl =>
            .ok (.int (match record with
              | none => -2
              | some doc => doc.expiresAt.elim (-1) (secondsLeft now)), db)
        | .expire seconds => expire now key seconds 1000 record db
        | .pexpire ms => expire now key ms 1 record db
        | op =>
            if isListOp op then list key op record drawn db
            else
              match record with
              | none => value limits now key op none db
              | some ⟨.value snapshot, _⟩ => value limits now key op (some snapshot) db
              | some ⟨.list _ _ _, _⟩ =>
                  -- only a `SET` may replace a list; it finds a key that is there
                  match op with
                  | .set _ options =>
                      if options.nx then .ok (.null, db)
                      else
                        value limits now key op (some ⟨.scalar (.text ""), none⟩) (db.remove key)
                  | .setex _ _ =>
                      value limits now key op (some ⟨.scalar (.text ""), none⟩) (db.remove key)
                  | _ => .error .wrongType

end Gateway.Redis.Mongo
