import Gateway.Db.Matching
import Gateway.Lib.OrderedMap

/-!
The collections of the store in the process.

A collection is a map from ids to documents. A write works on a copy, asks the guard
of the unique indexes and puts the copy in the map; a write of several documents
does so one after the other, and what is done when one of them throws stays done.
-/

namespace Gateway.Memory

structure IndexSpec where
  name : String
  fields : List String
  unique : Bool := false
  sparse : Bool := false
  partialFilterExpression : Option Fields := none

structure MemoryCollection where
  docs : OrderedMap String Fields
  indexes : List IndexSpec
  counter : Nat

def MemoryCollection.initial : MemoryCollection := ⟨∅, [], 0⟩

structure UpdateResult where
  matchedCount : Nat
  modifiedCount : Nat
  upsertedId : Option String
deriving DecidableEq, Repr

section Guard

variable (host : Host)

/-- `String(doc._id)`, the key of a document. -/
def idKey (doc : Fields) : String := (Fields.field doc "_id").toText host

/-- Whether the partial filter of an index, if it has one, lets the document in. -/
def covers (index : IndexSpec) (doc : Fields) : Except StoreError Bool :=
  match index.partialFilterExpression with
  | none => .ok true
  | some filter => matchesFilter host doc filter

def valuesAt (index : IndexSpec) (doc : Fields) : List Value := index.fields.map (getPath doc)

/-- A sparse index leaves out the documents that have none of its fields. -/
def leftOut (index : IndexSpec) (doc : Fields) : Bool :=
  index.sparse && (valuesAt index doc).all Value.isUndefined

def sameValues (index : IndexSpec) (existing candidate : Fields) : Bool :=
  index.fields.all fun field => valueEquals (getPath existing field) (getPath candidate field)

/-- The candidate against the documents that are stored. -/
def guardAgainst (index : IndexSpec) (candidate : Fields) (ignoreId : Option String) :
    List (String × Fields) → Except StoreError Unit
  | [] => .ok ()
  | (id, existing) :: rest =>
      if ignoreId = some id then guardAgainst index candidate ignoreId rest
      else
        (covers host index existing).bind fun covered =>
          if covered && sameValues index existing candidate then
            .error (.duplicateKey index.name)
          else guardAgainst index candidate ignoreId rest

def guardIndex (docs : OrderedMap String Fields) (candidate : Fields) (ignoreId : Option String)
    (index : IndexSpec) : Except StoreError Unit :=
  if !index.unique || leftOut index candidate then .ok ()
  else
    (covers host index candidate).bind fun covered =>
      if covered then guardAgainst host index candidate ignoreId docs.entries else .ok ()

def guardAll (docs : OrderedMap String Fields) (candidate : Fields) (ignoreId : Option String) :
    List IndexSpec → Except StoreError Unit
  | [] => .ok ()
  | index :: rest =>
      (guardIndex host docs candidate ignoreId index).bind fun _ =>
        guardAll docs candidate ignoreId rest

def uniqueGuard (c : MemoryCollection) (candidate : Fields) (ignoreId : Option String) :
    Except StoreError Unit := guardAll host c.docs candidate ignoreId c.indexes

/-- The guard and then `docs.set(String(candidate._id), candidate)`. -/
def guardedSet (candidate : Fields) (ignoreId : Option String) (c : MemoryCollection) :
    MemoryCollection × Except StoreError Unit :=
  match uniqueGuard host c candidate ignoreId with
  | .error e => (c, .error e)
  | .ok () => ({ c with docs := c.docs.set (idKey host candidate) candidate }, .ok ())

end Guard

section Operations

variable (host : Host)

def matchingIn (filter : Fields) : List Fields → Except StoreError (List Fields)
  | [] => .ok []
  | doc :: rest =>
      (matchesFilter host doc filter).bind fun holds =>
        (matchingIn filter rest).map fun rows => if holds then doc :: rows else rows

/-- The documents that a filter matches; every document is looked at. -/
def query (c : MemoryCollection) (filter : Fields) : Except StoreError (List Fields) :=
  matchingIn host filter (c.docs.entries.map Prod.snd)

/-- The id that is generated for a document that has none. -/
def generatedId (counter : Nat) : String := "mem_" ++ toString counter ++ "_" ++ host.uuid counter

/-- A document with an id, and the counter after it. -/
def withId (counter : Nat) (doc : Fields) : Nat × Fields :=
  if (Fields.field doc "_id").truthy then (counter, doc)
  else (counter + 1, Fields.assign doc "_id" (.str (generatedId host (counter + 1))))

def insertOne (c : MemoryCollection) (doc : Fields) : MemoryCollection × Except StoreError Unit :=
  let (counter, copy) := withId host c.counter doc
  let c := { c with counter := counter }
  if c.docs.has (idKey host copy) then (c, .error (.duplicateKey "_id"))
  else guardedSet host copy none c

/-- What an update of one document found and left. -/
inductive Touched where
  | nothing
  | inserted (seed : Fields)
  | updated (row candidate : Fields)

/-- The common part of `updateOne` and `findOneAndUpdate`. -/
def updateFirst (c : MemoryCollection) (now : Int) (filter update : Fields) (upsert : Bool) :
    MemoryCollection × Except StoreError Touched :=
  match query host c filter with
  | .error e => (c, .error e)
  | .ok [] =>
      if !upsert then (c, .ok .nothing)
      else
        let (counter, seed) := withId host c.counter (seedFromFilter filter)
        let c := { c with counter := counter }
        match applyUpdate host now seed update true with
        | .error e => (c, .error e)
        | .ok seed =>
            let (c, outcome) := guardedSet host seed none c
            (c, outcome.map fun _ => .inserted seed)
  | .ok (row :: _) =>
      match applyUpdate host now row update false with
      | .error e => (c, .error e)
      | .ok candidate =>
          let (c, outcome) := guardedSet host candidate (some (idKey host row)) c
          (c, outcome.map fun _ => .updated row candidate)

/-- Whether the JSON form of a document changed. -/
def modified (row candidate : Fields) : Nat :=
  if (Value.obj row).stringify = (Value.obj candidate).stringify then 0 else 1

def updateOne (c : MemoryCollection) (now : Int) (filter update : Fields) (upsert : Bool) :
    MemoryCollection × Except StoreError UpdateResult :=
  let (c, outcome) := updateFirst host c now filter update upsert
  (c, outcome.map fun touched => match touched with
    | .nothing => ⟨0, 0, none⟩
    | .inserted seed => ⟨0, 0, some (idKey host seed)⟩
    | .updated row candidate => ⟨1, modified row candidate, none⟩)

def findOneAndUpdate (c : MemoryCollection) (now : Int) (filter update : Fields) (upsert : Bool) :
    MemoryCollection × Except StoreError (Option Fields) :=
  let (c, outcome) := updateFirst host c now filter update upsert
  (c, outcome.map fun touched => match touched with
    | .nothing => none
    | .inserted doc | .updated _ doc => some doc)

/-- The loop of `updateMany` over the rows that were found. -/
def updateRows (now : Int) (update : Fields) :
    List Fields → MemoryCollection → MemoryCollection × Except StoreError Nat
  | [], c => (c, .ok 0)
  | row :: rest, c =>
      match applyUpdate host now row update false with
      | .error e => (c, .error e)
      | .ok candidate =>
          match guardedSet host candidate (some (idKey host row)) c with
          | (c, .error e) => (c, .error e)
          | (c, .ok ()) =>
              let (c, outcome) := updateRows now update rest c
              (c, outcome.map (modified row candidate + ·))

def updateMany (c : MemoryCollection) (now : Int) (filter update : Fields) :
    MemoryCollection × Except StoreError UpdateResult :=
  match query host c filter with
  | .error e => (c, .error e)
  | .ok rows =>
      let (c, outcome) := updateRows host now update rows c
      (c, outcome.map fun changed => ⟨rows.length, changed, none⟩)

def eraseRows (c : MemoryCollection) (rows : List Fields) : MemoryCollection :=
  { c with docs := rows.foldl (fun docs row => docs.erase (idKey host row)) c.docs }

def deleteOne (c : MemoryCollection) (filter : Fields) : MemoryCollection × Except StoreError Nat :=
  match query host c filter with
  | .error e => (c, .error e)
  | .ok rows => (eraseRows host c (rows.take 1), .ok (rows.take 1).length)

def deleteMany (c : MemoryCollection) (filter : Fields) :
    MemoryCollection × Except StoreError Nat :=
  match query host c filter with
  | .error e => (c, .error e)
  | .ok rows => (eraseRows host c rows, .ok rows.length)

def setIndex (spec : IndexSpec) : List IndexSpec → List IndexSpec
  | [] => [spec]
  | index :: rest => if index.name = spec.name then spec :: rest else index :: setIndex spec rest

def createIndexes (c : MemoryCollection) (specs : List IndexSpec) : MemoryCollection :=
  { c with indexes := specs.foldl (fun indexes spec => setIndex spec indexes) c.indexes }

def drop (c : MemoryCollection) : MemoryCollection := { c with docs := ∅, indexes := [] }

end Operations

/-- An operation on single documents or on the collection; `now` is the time it runs at. -/
inductive Operation where
  | insertOne (doc : Fields)
  | updateOne (now : Int) (filter update : Fields) (upsert : Bool)
  | updateMany (now : Int) (filter update : Fields)
  | findOneAndUpdate (now : Int) (filter update : Fields) (upsert : Bool)
  | deleteOne (filter : Fields)
  | deleteMany (filter : Fields)
  | createIndexes (specs : List IndexSpec)
  | drop

inductive Reply where
  | done
  | result (value : UpdateResult)
  | found (doc : Option Fields)
  | count (n : Nat)

def perform (host : Host) (c : MemoryCollection) :
    Operation → MemoryCollection × Except StoreError Reply
  | .insertOne doc =>
      ((insertOne host c doc).1, (insertOne host c doc).2.map fun _ => .done)
  | .updateOne now filter update upsert =>
      ((updateOne host c now filter update upsert).1,
        (updateOne host c now filter update upsert).2.map .result)
  | .updateMany now filter update =>
      ((updateMany host c now filter update).1, (updateMany host c now filter update).2.map .result)
  | .findOneAndUpdate now filter update upsert =>
      ((findOneAndUpdate host c now filter update upsert).1,
        (findOneAndUpdate host c now filter update upsert).2.map .found)
  | .deleteOne filter => ((deleteOne host c filter).1, (deleteOne host c filter).2.map .count)
  | .deleteMany filter => ((deleteMany host c filter).1, (deleteMany host c filter).2.map .count)
  | .createIndexes specs => (createIndexes c specs, .ok .done)
  | .drop => (drop c, .ok .done)

inductive BulkWriteOp where
  | insertOne (document : Fields)
  | updateOne (now : Int) (filter update : Fields) (upsert : Bool)
  | deleteOne (filter : Fields)

def BulkWriteOp.operation : BulkWriteOp → Operation
  | .insertOne document => .insertOne document
  | .updateOne now filter update upsert => .updateOne now filter update upsert
  | .deleteOne filter => .deleteOne filter

/-- A call on the collection. -/
inductive Write where
  | one (op : Operation)
  | insertMany (docs : List Fields) (ordered : Bool)
  | bulkWrite (ops : List BulkWriteOp) (ordered : Bool)

/-- The operations one after the other, with how many succeeded; the first that throws
ends it if they are ordered. -/
def performEach (host : Host) (ordered : Bool) :
    List Operation → MemoryCollection → MemoryCollection × Except StoreError Nat
  | [], c => (c, .ok 0)
  | op :: rest, c =>
      match perform host c op with
      | (c, .error e) => if ordered then (c, .error e) else performEach host ordered rest c
      | (c, .ok _) =>
          let (c, outcome) := performEach host ordered rest c
          (c, outcome.map (· + 1))

def write (host : Host) (c : MemoryCollection) : Write → MemoryCollection × Except StoreError Reply
  | .one op => perform host c op
  | .insertMany docs ordered =>
      ((performEach host ordered (docs.map .insertOne) c).1,
        (performEach host ordered (docs.map .insertOne) c).2.map .count)
  | .bulkWrite ops ordered =>
      ((performEach host ordered (ops.map BulkWriteOp.operation) c).1,
        (performEach host ordered (ops.map BulkWriteOp.operation) c).2.map fun _ => .done)

end Gateway.Memory
