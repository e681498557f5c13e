import Gateway.Lib.Collection
import Gateway.Lib.Transaction
import Gateway.Http.Errors
import Gateway.Usage.Measure
import Gateway.Util.Time

/-!
The usage ledger: one row per request, and the hourly totals that move with it.

A row is stored in the collection of its month under the request id, so the key
of a row is its month and its id. A batch of rows of one month is written by one
transaction together with the totals.
-/

namespace Gateway

open Transaction

inductive UsageStatus where
  | success
  | error
  | aborted
deriving DecidableEq, Repr

structure UsageRecordInput where
  requestId : String
  userId : String
  tokenId : String
  channelId : String
  group : String
  model : String
  mappedModel : String
  billedModel : String
  endpoint : String
  dialect : String
  stream : Bool
  usage : Option NormalizedUsage
  quota : JsNumber
  elapsedMs : JsNumber
  firstByteMs : Option JsNumber
  retries : Option JsNumber
  status : UsageStatus
  errorCode : Option String
  httpStatus : JsNumber
  ipHash : String
  createdAt : Option Int

structure UsageLogDoc where
  id : String
  requestId : String
  userId : String
  tokenId : String
  channelId : String
  group : String
  model : String
  mappedModel : String
  billedModel : String
  endpoint : String
  dialect : String
  stream : Bool
  promptTokens : Nat
  completionTokens : Nat
  cachedTokens : Nat
  cacheWrite5mTokens : Nat
  cacheWrite1hTokens : Nat
  imageTokens : Nat
  audioPromptTokens : Nat
  audioCompletionTokens : Nat
  reasoningTokens : Nat
  toolCalls : List (String × JsNumber)
  quota : Nat
  elapsedMs : Nat
  firstByteMs : Nat
  retries : Nat
  status : UsageStatus
  errorCode : Option String
  httpStatus : Nat
  ipHash : String
  createdAt : Int
deriving DecidableEq, Repr

def round : JsNumber → Nat
  | .finite q => ⌊q + 1 / 2⌋.toNat
  | _ => 0

/-- Token counts are whole, so only the other numbers are rounded. -/
def buildUsageLog (input : UsageRecordInput) (now : Int) : UsageLogDoc :=
  let usage := input.usage.getD emptyUsage
  { id := input.requestId
    requestId := input.requestId
    userId := input.userId
    tokenId := input.tokenId
    channelId := input.channelId
    group := input.group
    model := input.model
    mappedModel := input.mappedModel
    billedModel := input.billedModel
    endpoint := input.endpoint
    dialect := input.dialect
    stream := input.stream
    promptTokens := usage.promptTokens
    completionTokens := usage.completionTokens
    cachedTokens := usage.cachedTokens
    cacheWrite5mTokens := usage.cacheWrite5mTokens
    cacheWrite1hTokens := usage.cacheWrite1hTokens
    imageTokens := usage.imageTokens
    audioPromptTokens := usage.audioPromptTokens
    audioCompletionTokens := usage.audioCompletionTokens
    reasoningTokens := usage.reasoningTokens
    toolCalls := usage.toolCalls
    quota := round input.quota
    elapsedMs := round input.elapsedMs
    firstByteMs := round (input.firstByteMs.getD .nan)
    retries := round (input.retries.getD .nan)
    status := input.status
    errorCode := input.errorCode.filter (fun code => code ≠ "")
    httpStatus := round input.httpStatus
    ipHash := input.ipHash
    createdAt := input.createdAt.getD now }

inductive RollupScope where
  | user
  | channel
  | model
  | global
deriving DecidableEq, Repr

def RollupScope.name : RollupScope → String
  | .user => "user"
  | .channel => "channel"
  | .model => "model"
  | .global => "global"

structure UsageRollupDoc where
  id : String
  scope : RollupScope
  key : String
  bucket : String
  requests : Nat
  errors : Nat
  quota : Nat
  promptTokens : Nat
  completionTokens : Nat
  updatedAt : Int
deriving DecidableEq, Repr

instance : Document UsageLogDoc (String × String) := ⟨fun d => (monthBucket d.createdAt, d.id)⟩

instance : Document UsageRollupDoc String := ⟨UsageRollupDoc.id⟩

theorem UsageLogDoc.key_eq (d : UsageLogDoc) :
    Document.key d = (monthBucket d.createdAt, d.id) := rfl

@[simp]
theorem UsageRollupDoc.key_eq (d : UsageRollupDoc) : Document.key d = d.id := rfl

/-- The monthly collections, taken together, and the hourly totals. -/
structure UsageDb where
  rows : Collection UsageLogDoc
  rollups : Collection UsageRollupDoc

namespace UsageDb

def empty : UsageDb := ⟨Collection.empty, Collection.empty⟩

/-- The month of the entry has a row with its id. -/
def Committed (db : UsageDb) (row : UsageLogDoc) : Prop :=
  (db.rows.find (Document.key row)).isSome

end UsageDb

/-- `${scope}:${key}:${bucket}` -/
def rollupId (scope : RollupScope) (key bucket : String) : String :=
  scope.name ++ ":" ++ key ++ ":" ++ bucket

def errorsOf (doc : UsageLogDoc) : Nat := if doc.status = .success then 0 else 1

def rollupScopes (doc : UsageLogDoc) : List (RollupScope × String) :=
  [(.user, doc.userId), (.channel, doc.channelId), (.model, doc.billedModel), (.global, "all")]

/-- `$inc` of the counters by one row, `$set` of the rest. -/
def incrementBy (doc : UsageLogDoc) (scope : RollupScope) (key bucket : String) (now : Int) :
    Update UsageRollupDoc where
  apply r :=
    { r with
      scope := scope
      key := key
      bucket := bucket
      requests := r.requests + 1
      errors := r.errors + errorsOf doc
      quota := r.quota + doc.quota
      promptTokens := r.promptTokens + doc.promptTokens
      completionTokens := r.completionTokens + doc.completionTokens
      updatedAt := now }
  key_apply _ := rfl

def incrementRollup (doc : UsageLogDoc) (now : Int) (rollups : Collection UsageRollupDoc) :
    RollupScope × String → Collection UsageRollupDoc
  | (scope, key) =>
      let bucket := hourBucket doc.createdAt
      if key = "" then rollups
      else rollups.upsert
        ⟨rollupId scope key bucket, scope, key, bucket, 1, errorsOf doc, doc.quota,
          doc.promptTokens, doc.completionTokens, now⟩
        (incrementBy doc scope key bucket now)

def incrementRollups (doc : UsageLogDoc) (now : Int) (rollups : Collection UsageRollupDoc) :
    Collection UsageRollupDoc :=
  (rollupScopes doc).foldl (incrementRollup doc now) rollups

/-- One row of a transaction: skipped when its id is taken. -/
def persistRow (now : Int) (db : UsageDb) (doc : UsageLogDoc) : UsageDb :=
  if fresh : db.rows.find (Document.key doc) = none then
    ⟨db.rows.insertFresh doc fresh, incrementRollups doc now db.rollups⟩
  else db

def persistRows (now : Int) (rows : List UsageLogDoc) (db : UsageDb) : UsageDb :=
  rows.foldl (persistRow now) db

/-- How an attempt at a transaction ends: the store settles it, or another first
delivery won the race for an id and this one is rolled back. -/
inductive Attempt where
  | settled (commit : Commit)
  | duplicateKey
deriving DecidableEq, Repr

inductive PersistError where
  | duplicateKey
  | fault
deriving DecidableEq, Repr

/-- The rows of one month. -/
structure Batch where
  bucket : String
  rows : List UsageLogDoc
  month : ∀ row ∈ rows, monthBucket row.createdAt = bucket

theorem month_singleton (doc : UsageLogDoc) :
    ∀ row ∈ [doc], monthBucket row.createdAt = monthBucket doc.createdAt :=
  List.forall_mem_singleton.mpr rfl

def writeBatch (now : Int) (batch : Batch) (commit : Commit) (db : UsageDb) :
    Except PersistError Unit × UsageDb :=
  atomically .fault commit (fun db => (.ok (), persistRows now batch.rows db)) db

/-- The loop around the transaction of a batch, with the retries it has left. -/
def persistBatch (now : Int) (outcome : Nat → Attempt) (batch : Batch) :
    Nat → UsageDb → Except PersistError Unit × UsageDb
  | 0, db =>
      match outcome 0 with
      | .settled commit => writeBatch now batch commit db
      | .duplicateKey => (.error .duplicateKey, db)
  | retries + 1, db =>
      match outcome (retries + 1) with
      | .settled commit => writeBatch now batch commit db
      | .duplicateKey => persistBatch now outcome batch retries db

/-- `attempt >= 2` gives up. -/
def maxRetries : Nat := 2

def insertRow (doc : UsageLogDoc) : List Batch → List Batch
  | [] => [⟨monthBucket doc.createdAt, [doc], month_singleton doc⟩]
  | batch :: batches =>
      if same : batch.bucket = monthBucket doc.createdAt then
        ⟨batch.bucket, batch.rows ++ [doc], by
          intro row mem
          cases List.mem_append.mp mem with
          | inl earlier => exact batch.month row earlier
          | inr last =>
              cases List.mem_singleton.mp last
              exact same.symm⟩ :: batches
      else batch :: insertRow doc batches

/-- The rows by month, the months in the order of their first row. -/
def groupByMonth (docs : List UsageLogDoc) : List Batch :=
  docs.foldl (fun batches doc => insertRow doc batches) []

/-- The batches one after the other, until one throws. -/
def persistBatches (now : Int) : List (Batch × (Nat → Attempt)) → UsageDb →
    Except PersistError Nat × UsageDb
  | [], db => (.ok 0, db)
  | (batch, outcome) :: batches, db =>
      match persistBatch now outcome batch maxRetries db with
      | (.error e, db) => (.error e, db)
      | (.ok _, db) =>
          let rest := persistBatches now batches db
          (rest.1.map (batch.rows.length + ·), rest.2)

def persist (now : Int) (outcome : Nat → Nat → Attempt) (docs : List UsageLogDoc) (db : UsageDb) :
    Except PersistError Nat × UsageDb :=
  persistBatches now ((groupByMonth docs).mapIdx (fun i batch => (batch, outcome i))) db

theorem mem_insertRow {doc row : UsageLogDoc} {batches : List Batch} :
    (∃ batch ∈ insertRow doc batches, row ∈ batch.rows) ↔
      row = doc ∨ ∃ batch ∈ batches, row ∈ batch.rows := by
  induction batches with
  | nil => simp [insertRow]
  | cons batch batches ih =>
      simp only [insertRow]
      split
      · simp only [List.exists_mem_cons_iff, List.mem_append, List.mem_singleton]
        tauto
      · simp only [List.exists_mem_cons_iff, ih]
        tauto

/-- Grouping loses no row and makes none up. -/
theorem mem_groupByMonth {docs : List UsageLogDoc} {row : UsageLogDoc} :
    (∃ batch ∈ groupByMonth docs, row ∈ batch.rows) ↔ row ∈ docs := by
  have grouped (batches : List Batch) :
      (∃ batch ∈ docs.foldl (fun batches doc => insertRow doc batches) batches,
        row ∈ batch.rows) ↔ row ∈ docs ∨ ∃ batch ∈ batches, row ∈ batch.rows := by
    induction docs generalizing batches with
    | nil => simp
    | cons doc docs ih =>
        simp only [List.foldl_cons, ih, mem_insertRow, List.mem_cons]
        tauto
  simpa only [groupByMonth, List.not_mem_nil, false_and, exists_false, or_false] using grouped []

/-- The store keeps the transaction of a batch, whether or not it says so. -/
def lands (outcome : Nat → Attempt) : Nat → Bool
  | 0 =>
      match outcome 0 with
      | .settled commit => commit != .aborted
      | .duplicateKey => false
  | retries + 1 =>
      match outcome (retries + 1) with
      | .settled commit => commit != .aborted
      | .duplicateKey => lands outcome retries

theorem writeBatch_spec (now : Int) (batch : Batch) (commit : Commit) (db : UsageDb) :
    (writeBatch now batch commit db).2 =
        (if commit != .aborted then persistRows now batch.rows db else db) ∧
      ((writeBatch now batch commit db).1 = .ok () → (commit != .aborted) = true) := by
  cases commit <;> simp [writeBatch, atomically]

/-- A call on a batch writes all of it or nothing, and answers only when it was
written. -/
theorem persistBatch_spec (now : Int) (outcome : Nat → Attempt) (batch : Batch) (retries : Nat)
    (db : UsageDb) :
    (persistBatch now outcome batch retries db).2 =
        (if lands outcome retries then persistRows now batch.rows db else db) ∧
      ((persistBatch now outcome batch retries db).1 = .ok () → lands outcome retries = true) := by
  induction retries with
  | zero =>
      cases attempt : outcome 0 with
      | settled commit =>
          simpa only [persistBatch, lands, attempt] using writeBatch_spec now batch commit db
      | duplicateKey => simp [persistBatch, lands, attempt]
  | succ retries ih =>
      cases attempt : outcome (retries + 1) with
      | settled commit =>
          simpa only [persistBatch, lands, attempt] using writeBatch_spec now batch commit db
      | duplicateKey => simpa only [persistBatch, lands, attempt] using ih

/-- Writing a row keeps what is stored and adds the row under a free key only. -/
theorem find_persistRow (now : Int) (db : UsageDb) (doc : UsageLogDoc) (key : String × String) :
    (persistRow now db doc).rows.find key =
      if db.rows.find key = none ∧ key = Document.key doc then some doc
      else db.rows.find key := by
  rw [persistRow]
  split
  · next fresh =>
      simp only [Collection.find_insertFresh]
      by_cases same : key = Document.key doc
      · simp only [same, fresh, and_self, if_true]
      · simp only [same, and_false, if_false]
  · next taken =>
      by_cases same : key = Document.key doc
      · subst same
        simp only [taken, false_and, if_false]
      · simp only [same, and_false, if_false]

/-- A stored row stays; a new one is the first row of the batch with its key. -/
theorem find_persistRows (now : Int) (rows : List UsageLogDoc) (db : UsageDb)
    (key : String × String) :
    (persistRows now rows db).rows.find key =
      (db.rows.find key).or (rows.find? (fun row => decide (Document.key row = key))) := by
  induction rows generalizing db with
  | nil => simp [persistRows]
  | cons row rows ih =>
      have rest := ih (persistRow now db row)
      simp only [persistRows, List.foldl_cons] at rest ⊢
      rw [rest, find_persistRow]
      cases stored : db.rows.find key with
      | some d => simp
      | none =>
          by_cases same : key = Document.key row
          · simp [same]
          · have other : Document.key row ≠ key := fun h => same h.symm
            simp [same, other]

theorem committed_persistRows {now : Int} {rows : List UsageLogDoc} {db : UsageDb}
    {row : UsageLogDoc} (h : db.Committed row ∨ row ∈ rows) :
    (persistRows now rows db).Committed row := by
  simp only [UsageDb.Committed, find_persistRows] at h ⊢
  cases h with
  | inl stored => simp [stored]
  | inr mem =>
      simp only [Option.isSome_or, Bool.or_eq_true, List.find?_isSome]
      exact .inr ⟨row, mem, by simp⟩

end Gateway
