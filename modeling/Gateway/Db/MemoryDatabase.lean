import Gateway.Db.MemoryStore
import Gateway.Lib.SerialOrder

/-!
The database in the process.

A collection is an object, and the database is a map of names to them; who has opened a
collection keeps the object, also when its name is gone. Calls on a collection from
outside a transaction wait in line, but the methods of the database itself do not. A
transaction takes a snapshot of every collection and restores it when its body throws.
-/

namespace Gateway.Memory

universe u v

/-- `objects` are the collections ever made; a name stands for a place in this list. -/
structure MemoryDatabase where
  collections : OrderedMap String Nat
  objects : List MemoryCollection
  inRange : ∀ entry ∈ collections.entries, entry.2 < objects.length

inductive Method where
  | write (call : Write)
  /-- `find` and the like: what a method returns that leaves the collection alone. -/
  | read (view : MemoryCollection → Except StoreError Value)

inductive MethodReply where
  | wrote (outcome : Except StoreError Reply)
  | saw (value : Except StoreError Value)

def callMethod (host : Host) (c : MemoryCollection) : Method → MemoryCollection × MethodReply
  | .write call => ((write host c call).1, .wrote (write host c call).2)
  | .read view => (c, .saw (view c))

/-- The methods of the database that take effect at once. -/
inductive Direct where
  | collection (name : String)
  | listCollections
  | close

/-- A method of an opened collection. -/
structure Call where
  target : Nat
  method : Method

inductive Answer where
  | opened (target : Nat)
  | names (names : List String)
  | closed
  | replied (reply : MethodReply)

namespace MemoryDatabase

def initial : MemoryDatabase := ⟨∅, [], fun _ mem => absurd mem List.not_mem_nil⟩

def names (db : MemoryDatabase) : List String := db.collections.entries.map Prod.fst

def object (db : MemoryDatabase) (target : Nat) : MemoryCollection :=
  db.objects.getD target .initial

def setObject (db : MemoryDatabase) (target : Nat) (c : MemoryCollection) : MemoryDatabase where
  collections := db.collections
  objects := db.objects.set target c
  inRange := by
    rw [List.length_set]
    exact db.inRange

def erase (db : MemoryDatabase) (name : String) : MemoryDatabase where
  collections := db.collections.erase name
  objects := db.objects
  inRange entry mem := db.inRange entry (List.mem_of_mem_filter mem)

/-- A new collection under a name that is not there. -/
def create (db : MemoryDatabase) (name : String) (absent : db.collections.get? name = none) :
    MemoryDatabase where
  collections := db.collections.set name db.objects.length
  objects := db.objects ++ [.initial]
  inRange := by
    rw [OrderedMap.entries_set_absent _ absent, List.length_append]
    intro entry mem
    cases List.mem_append.mp mem with
    | inl old =>
        have := db.inRange entry old
        omega
    | inr new =>
        cases List.mem_singleton.mp new
        exact Nat.lt_succ_self db.objects.length

def collection (db : MemoryDatabase) (name : String) : MemoryDatabase × Nat :=
  match existing : db.collections.get? name with
  | some target => (db, target)
  | none => (db.create name existing, db.objects.length)

def close (db : MemoryDatabase) : MemoryDatabase :=
  ⟨∅, db.objects, fun _ mem => absurd mem List.not_mem_nil⟩

def direct (db : MemoryDatabase) : Direct → MemoryDatabase × Answer
  | .collection name => ((db.collection name).1, .opened (db.collection name).2)
  | .listCollections => (db, .names db.names)
  | .close => (db.close, .closed)

def call (host : Host) (db : MemoryDatabase) (c : Call) : MemoryDatabase × Answer :=
  (db.setObject c.target (callMethod host (db.object c.target) c.method).1,
    .replied (callMethod host (db.object c.target) c.method).2)

/-- The contents of every collection under its name. -/
def snapshot (db : MemoryDatabase) : OrderedMap String MemoryCollection :=
  db.collections.mapValues db.object

/-- One turn of the loop that undoes a transaction. -/
def restoreOne (snapshots : OrderedMap String MemoryCollection) (db : MemoryDatabase)
    (entry : String × Nat) : MemoryDatabase :=
  match snapshots.get? entry.1 with
  | some snapshot => db.setObject entry.2 snapshot
  | none => db.erase entry.1

def restore (db : MemoryDatabase) (snapshots : OrderedMap String MemoryCollection) :
    MemoryDatabase := db.collections.entries.foldl (restoreOne snapshots) db

end MemoryDatabase

def threw {E : Type u} {T : Type v} : Except E T → Bool
  | .error _ => true
  | .ok _ => false

/-- The database as what transactions and single calls take turns on. A transaction that
is begun in another one runs in its place, and only the outer one takes a snapshot. -/
def database {E : Type u} {T : Type v} (host : Host) :
    ExclusiveQueue.Shared MemoryDatabase Direct Call Answer (Except E T) where
  probe := MemoryDatabase.direct
  call := MemoryDatabase.call host
  failed := threw
  rollback start now := now.restore start.snapshot

end Gateway.Memory
