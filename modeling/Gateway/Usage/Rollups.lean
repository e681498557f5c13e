import Gateway.Usage.Buffer

/-!
The hourly totals against the rows they summarise.

The totals move in the transaction that inserts the row, so they agree with the
rows whatever is delivered, in any batching, order and repetition. Whether a
request counts once is a different matter: a row is unique within its month, and
a second row of the request can fall into another one.
-/

namespace Gateway

/-- What one row adds to a total, and what a total counts. -/
@[ext]
structure Counters where
  requests : Nat
  errors : Nat
  quota : Nat
  promptTokens : Nat
  completionTokens : Nat
deriving DecidableEq, Repr

namespace Counters

instance : Zero Counters := ⟨⟨0, 0, 0, 0, 0⟩⟩

instance : Add Counters :=
  ⟨fun a b => ⟨a.requests + b.requests, a.errors + b.errors, a.quota + b.quota,
    a.promptTokens + b.promptTokens, a.completionTokens + b.completionTokens⟩⟩

theorem add_def (a b : Counters) :
    a + b = ⟨a.requests + b.requests, a.errors + b.errors, a.quota + b.quota,
      a.promptTokens + b.promptTokens, a.completionTokens + b.completionTokens⟩ := rfl

theorem zero_def : (0 : Counters) = ⟨0, 0, 0, 0, 0⟩ := rfl

instance : AddCommMonoid Counters where
  add_assoc a b c := by simp only [add_def, Nat.add_assoc]
  zero_add a := by simp only [add_def, zero_def, Nat.zero_add]
  add_zero a := by simp only [add_def, zero_def, Nat.add_zero]
  add_comm a b := by
    simp only [add_def, Nat.add_comm a.requests, Nat.add_comm a.errors, Nat.add_comm a.quota,
      Nat.add_comm a.promptTokens, Nat.add_comm a.completionTokens]
  nsmul := nsmulRec

end Counters

def UsageLogDoc.counters (doc : UsageLogDoc) : Counters :=
  ⟨1, errorsOf doc, doc.quota, doc.promptTokens, doc.completionTokens⟩

def UsageRollupDoc.counters (doc : UsageRollupDoc) : Counters :=
  ⟨doc.requests, doc.errors, doc.quota, doc.promptTokens, doc.completionTokens⟩

/-- The key under which a scope counts a row. -/
def RollupScope.keyOf : RollupScope → UsageLogDoc → String
  | .user, doc => doc.userId
  | .channel, doc => doc.channelId
  | .model, doc => doc.billedModel
  | .global, _ => "all"

/-- The totals stored under an id; a document that does not exist counts nothing. -/
def totalAt (rollups : Collection UsageRollupDoc) (id : String) : Counters :=
  (rollups.find id).elim 0 UsageRollupDoc.counters

/-- What a row contributes to the totals of a key and an hour. -/
def contribution (scope : RollupScope) (key bucket : String) (row : UsageLogDoc) : Counters :=
  if scope.keyOf row = key ∧ hourBucket row.createdAt = bucket then row.counters else 0

/-- For every scope, non-empty key and hour the totals are the sums over the
stored rows of that key and hour. -/
def RollupsAgree (db : UsageDb) : Prop :=
  ∀ scope key date, key ≠ "" →
    totalAt db.rollups (rollupId scope key (hourBucket date)) =
      db.rows.total (contribution scope key (hourBucket date))

/-- One row over all monthly collections. -/
def HasOneRow (db : UsageDb) (requestId : String) : Prop :=
  ∃! row, row ∈ db.rows.docs ∧ row.id = requestId

theorem RollupScope.name_injective {a b : RollupScope} (h : a.name = b.name) : a = b := by
  cases a <;> cases b <;> first | rfl | simp [RollupScope.name] at h

theorem RollupScope.name_no_colon (a : RollupScope) : ':' ∉ a.name.toList := by
  cases a <;> simp [RollupScope.name]

/-- Two lists cut at their first occurrence of a separator. -/
theorem append_cons_inj {α : Type*} {sep : α} {as bs cs ds : List α} (has : sep ∉ as)
    (hbs : sep ∉ bs) (h : as ++ sep :: cs = bs ++ sep :: ds) : as = bs ∧ cs = ds := by
  induction as generalizing bs with
  | nil =>
      cases bs with
      | nil => simpa using h
      | cons b bs =>
          simp only [List.nil_append, List.cons_append, List.cons.injEq] at h
          exact absurd (h.1 ▸ List.mem_cons_self) hbs
  | cons a as ih =>
      cases bs with
      | nil =>
          simp only [List.nil_append, List.cons_append, List.cons.injEq] at h
          exact absurd (h.1 ▸ List.mem_cons_self) has
      | cons b bs =>
          simp only [List.cons_append, List.cons.injEq] at h
          obtain ⟨same, rest⟩ := ih (fun mem => has (List.mem_cons_of_mem a mem))
            (fun mem => hbs (List.mem_cons_of_mem b mem)) h.2
          exact ⟨by rw [h.1, same], rest⟩

/-- The id tells scope, key and hour apart, although a key may hold colons: a
scope has none and an hour has a fixed length. -/
theorem rollupId_inj {scope scope' : RollupScope} {key key' : String} {date date' : Int}
    (h : rollupId scope key (hourBucket date) = rollupId scope' key' (hourBucket date')) :
    scope = scope' ∧ key = key' ∧ hourBucket date = hourBucket date' := by
  have lists := congrArg String.toList h
  simp only [rollupId, String.toList_append] at lists
  have colon : ":".toList = [':'] := rfl
  simp only [colon, List.append_assoc, List.singleton_append] at lists
  obtain ⟨scopes, rest⟩ := append_cons_inj scope.name_no_colon scope'.name_no_colon lists
  have lengths : (':' :: (hourBucket date).toList).length =
      (':' :: (hourBucket date').toList).length := by
    simp only [List.length_cons, length_hourBucket]
  obtain ⟨keys, buckets⟩ := List.append_inj' rest lengths
  simp only [List.cons.injEq, true_and] at buckets
  exact ⟨RollupScope.name_injective (String.toList_injective scopes),
    String.toList_injective keys, String.toList_injective buckets⟩

theorem totalAt_incrementRollup (doc : UsageLogDoc) (now : Int)
    (rollups : Collection UsageRollupDoc) (counted scope : RollupScope) (counts : String)
    {key : String} (named : key ≠ "") (date : Int) :
    totalAt (incrementRollup doc now rollups (counted, counts))
        (rollupId scope key (hourBucket date)) =
      totalAt rollups (rollupId scope key (hourBucket date)) +
        if counted = scope ∧ counts = key ∧ hourBucket doc.createdAt = hourBucket date
          then doc.counters else 0 := by
  simp only [incrementRollup]
  split
  · next unnamed =>
      have other : ¬(counted = scope ∧ counts = key ∧
          hourBucket doc.createdAt = hourBucket date) := fun h => named (h.2.1 ▸ unnamed)
      rw [if_neg other, add_zero]
  · next =>
      simp only [totalAt, Collection.find_upsert, UsageRollupDoc.key_eq]
      by_cases same : counted = scope ∧ counts = key ∧
          hourBucket doc.createdAt = hourBucket date
      · obtain ⟨rfl, rfl, hour⟩ := same
        simp only [hour, if_true, and_self]
        cases rollups.find (rollupId counted counts (hourBucket date)) with
        | none => exact (zero_add doc.counters).symm
        | some total => rfl
      · have other : rollupId scope key (hourBucket date) ≠
            rollupId counted counts (hourBucket doc.createdAt) := by
          intro h
          obtain ⟨rfl, rfl, hour⟩ := rollupId_inj h
          exact same ⟨rfl, rfl, hour.symm⟩
        rw [if_neg other, if_neg same, add_zero]

/-- The increments of one row add its contribution to every total. -/
theorem totalAt_incrementRollups (doc : UsageLogDoc) (now : Int)
    (rollups : Collection UsageRollupDoc) (scope : RollupScope) {key : String}
    (named : key ≠ "") (date : Int) :
    totalAt (incrementRollups doc now rollups) (rollupId scope key (hourBucket date)) =
      totalAt rollups (rollupId scope key (hourBucket date)) +
        contribution scope key (hourBucket date) doc := by
  simp only [incrementRollups, rollupScopes, List.foldl_cons, List.foldl_nil,
    totalAt_incrementRollup doc now _ _ scope _ named date, contribution]
  cases scope <;> simp [RollupScope.keyOf] <;> congr

theorem rollupsAgree_persistRow {db : UsageDb} (h : RollupsAgree db) (now : Int)
    (doc : UsageLogDoc) : RollupsAgree (persistRow now db doc) := by
  rw [persistRow]
  split
  · next fresh =>
      intro scope key date named
      rw [totalAt_incrementRollups doc now db.rollups scope named date,
        Collection.total_insertFresh, h scope key date named]
  · exact h

theorem rollupsAgree_persistRows {db : UsageDb} (h : RollupsAgree db) (now : Int)
    (rows : List UsageLogDoc) : RollupsAgree (persistRows now rows db) := by
  induction rows generalizing db with
  | nil => exact h
  | cons row rows ih => exact ih (rollupsAgree_persistRow h now row)

theorem rollupsAgree_empty : RollupsAgree UsageDb.empty := by
  intro scope key date _
  rfl

namespace UsageSystem

/-- The rows of a run whose transactions the store kept. -/
def delivered (s : State) (as : List Action) : List UsageLogDoc :=
  (Machine.trace step s as).flatMap (fun e => landed e.before e.action)

theorem run_rollupsAgree {s : State} (h : RollupsAgree s.db) (as : List Action) :
    RollupsAgree (Machine.run step s as).db := by
  refine Machine.run_invariant (I := fun s : State => RollupsAgree s.db) ?_ h as
  intro s a agree
  rw [step_db]
  exact rollupsAgree_persistRows agree a.clock (landed s a)

/-- What a run leaves under a key: what was there, or the first delivered row
of that key. -/
theorem find_run (s : State) (as : List Action) (key : String × String) :
    (Machine.run step s as).db.rows.find key =
      (s.db.rows.find key).or
        ((delivered s as).find? (fun row => decide (Document.key row = key))) := by
  induction as generalizing s with
  | nil => simp [delivered, Machine.trace]
  | cons a as ih =>
      have cut : delivered s (a :: as) = landed s a ++ delivered (step s a).1 as := rfl
      rw [Machine.run_cons, ih, find_step, cut, List.find?_append, Option.or_assoc]

section Delivery

variable (items : List BufferItem) (as : List Action)

theorem delivered_of_mem {row : UsageLogDoc}
    (mem : row ∈ (Machine.run step (start items UsageDb.empty) as).db.rows.docs) :
    row ∈ delivered (start items UsageDb.empty) as := by
  have found := Collection.find_of_mem mem
  rw [find_run] at found
  exact List.mem_of_find?_eq_some found

theorem row_of_delivered {doc : UsageLogDoc}
    (mem : doc ∈ delivered (start items UsageDb.empty) as) :
    ∃ row, (Machine.run step (start items UsageDb.empty) as).db.rows.find (Document.key doc) =
      some row := by
  refine Option.isSome_iff_exists.mp ?_
  rw [find_run, Option.isSome_or, Bool.or_eq_true, List.find?_isSome]
  exact .inr ⟨doc, mem, by simp⟩

/-- No request was delivered in two different months. -/
def OneMonthPerRequest (docs : List UsageLogDoc) : Prop :=
  ∀ a ∈ docs, ∀ b ∈ docs, a.id = b.id → monthBucket a.createdAt = monthBucket b.createdAt

theorem one_row_iff :
    (∀ doc ∈ delivered (start items UsageDb.empty) as,
      HasOneRow (Machine.run step (start items UsageDb.empty) as).db doc.id) ↔
      OneMonthPerRequest (delivered (start items UsageDb.empty) as) := by
  constructor
  · intro unique a ha b hb same
    obtain ⟨rowA, foundA⟩ := row_of_delivered items as ha
    obtain ⟨rowB, foundB⟩ := row_of_delivered items as hb
    obtain ⟨memA, keyA⟩ := Collection.mem_of_find foundA
    obtain ⟨memB, keyB⟩ := Collection.mem_of_find foundB
    simp only [UsageLogDoc.key_eq, Prod.mk.injEq] at keyA keyB
    obtain ⟨row, _, only⟩ := unique a ha
    have eqA := only rowA ⟨memA, keyA.2⟩
    have eqB := only rowB ⟨memB, keyB.2.trans same.symm⟩
    rw [← keyA.1, ← keyB.1, eqA, eqB]
  · intro oneMonth doc mem
    obtain ⟨row, found⟩ := row_of_delivered items as mem
    obtain ⟨stored, key⟩ := Collection.mem_of_find found
    simp only [UsageLogDoc.key_eq, Prod.mk.injEq] at key
    refine ⟨row, ⟨stored, key.2⟩, ?_⟩
    rintro other ⟨otherStored, otherId⟩
    have month := oneMonth other (delivered_of_mem items as otherStored) doc mem otherId
    have sameKey : Document.key other = Document.key doc := by
      simp only [UsageLogDoc.key_eq, month, otherId]
    have otherFound := Collection.find_of_mem otherStored
    rw [sameKey] at otherFound
    exact Option.some.inj (otherFound.symm.trans found)

/-- In every run the totals are the sums over the rows, and each delivered
request has exactly one row just when none was delivered in two months. -/
theorem counts_once_iff :
    ((∀ doc ∈ delivered (start items UsageDb.empty) as,
        HasOneRow (Machine.run step (start items UsageDb.empty) as).db doc.id) ∧
      RollupsAgree (Machine.run step (start items UsageDb.empty) as).db) ↔
      OneMonthPerRequest (delivered (start items UsageDb.empty) as) := by
  rw [one_row_iff]
  exact and_iff_left (run_rollupsAgree rollupsAgree_empty as)

end Delivery

/-- A row of the request `r`, as the relay records it at a date. -/
def recordedAt (quota : Nat) (status : UsageStatus) (date : Int) : UsageLogDoc :=
  buildUsageLog
    { requestId := "r", userId := "u", tokenId := "t", channelId := "c", group := "default"
      model := "m", mappedModel := "m", billedModel := "m", endpoint := "chat"
      dialect := "openai", stream := false, usage := none, quota := .ofInt quota
      elapsedMs := .ofInt 0, firstByteMs := none, retries := none, status := status
      errorCode := none, httpStatus := .ofInt 200, ipHash := "", createdAt := some date } date

/-- A row on its own, delivered without a fault. -/
def deliverAlone (doc : UsageLogDoc) : Action :=
  .deliver ⟨monthBucket doc.createdAt, [doc], month_singleton doc⟩ doc.createdAt
    (fun _ => .settled .committed)

/-- The settlement of a request records its row in the last millisecond of
August and then throws; the error handler records the request again. -/
def monthBoundary : List Action :=
  [deliverAlone (recordedAt 5 .success 1788220799999),
    deliverAlone (recordedAt 0 .error 1788220800000)]

theorem month_boundary_counts_twice :
    ¬((∀ doc ∈ delivered (start [] UsageDb.empty) monthBoundary,
        HasOneRow (Machine.run step (start [] UsageDb.empty) monthBoundary).db doc.id) ∧
      RollupsAgree (Machine.run step (start [] UsageDb.empty) monthBoundary).db) := by
  rintro ⟨unique, _⟩
  have oneMonth := (one_row_iff [] monthBoundary).mp unique
  have rows : delivered (start [] UsageDb.empty) monthBoundary =
      [recordedAt 5 .success 1788220799999, recordedAt 0 .error 1788220800000] := rfl
  rw [rows] at oneMonth
  have same := oneMonth _ List.mem_cons_self _ (List.mem_cons_of_mem _ List.mem_cons_self) rfl
  exact absurd same (by decide)

end UsageSystem

end Gateway
