import Gateway.Lib.Machine
import Gateway.Lib.LeasedQueue
import Gateway.Usage.Log

/-!
The usage buffer under any number of producers and flush workers.

One action is one command of the shared store or one transaction of the
database, so a list of actions is an interleaving. A worker writes its copy one
month at a time and can vanish before any of its commands; the retries of one
transaction leave no trace until one of them ends, so they are one action. Rows
that bypass the buffer are delivered by their own transactions at any time.
-/

namespace Gateway

/-- An entry of the buffer. One that does not parse, or has no id or no date, is
skipped by the workers. -/
inductive BufferItem where
  | malformed
  | row (doc : UsageLogDoc)
deriving DecidableEq, Repr

def BufferItem.doc? : BufferItem → Option UsageLogDoc
  | .malformed => none
  | .row doc => some doc

/-- `Math.max(1, Math.min(limit, 1000))` -/
def flushSize (limit : Int) : Nat := (max 1 (min limit 1000)).toNat

/-- The transactions a worker plans from its copy. -/
def planBatches (raw : List BufferItem) : List Batch := groupByMonth (raw.filterMap BufferItem.doc?)

/-- A run that obtains the lock and meets no storage failure. -/
def flushUsageBuffer (limit now : Int) (outcome : Nat → Nat → Attempt)
    (s : UsageDb × List BufferItem) : Except PersistError Nat × UsageDb × List BufferItem :=
  let raw := s.2.take (flushSize limit)
  if raw.isEmpty then (.ok 0, s)
  else
    match persist now outcome (raw.filterMap BufferItem.doc?) s.1 with
    | (.ok written, db) => (.ok written, db, s.2.drop raw.length)
    | (.error e, db) => (.error e, db, s.2)

namespace UsageSystem

structure State where
  db : UsageDb
  buffer : LeasedQueue.State String BufferItem Batch

inductive Action where
  | queue (move : LeasedQueue.Action String BufferItem)
  | persist (worker : String) (now : Int) (outcome : Nat → Attempt)
  | deliver (batch : Batch) (now : Int) (outcome : Nat → Attempt)

/-- What the caller of a transaction sees. -/
abbrev Reply := Except PersistError Unit

def persistNext (worker : String) (now : Int) (outcome : Nat → Attempt) (s : State) :
    State × Reply :=
  match s.buffer.workers worker with
  | .working _ (batch :: _) =>
      match persistBatch now outcome batch maxRetries s.db with
      | (.ok (), db) => (⟨db, s.buffer.advance worker⟩, .ok ())
      | (.error e, db) => (⟨db, s.buffer.abandon worker⟩, .error e)
  | _ => (s, .ok ())

def step (s : State) : Action → State × Reply
  | .queue move => (⟨s.db, s.buffer.apply planBatches move⟩, .ok ())
  | .persist worker now outcome => persistNext worker now outcome s
  | .deliver batch now outcome =>
      let (reply, db) := persistBatch now outcome batch maxRetries s.db
      (⟨db, s.buffer⟩, reply)

/-- No worker is running and nobody holds the lock. -/
def start (items : List BufferItem) (db : UsageDb) : State :=
  ⟨db, items, none, fun _ => .idle⟩

/-- The entries an action appends to the buffer. -/
def Action.pushes : Action → List BufferItem
  | .queue move => move.pushes
  | _ => []

/-- The entries that come into the system with an action, by either way. -/
def Action.enters : Action → List BufferItem
  | .deliver batch _ _ => batch.rows.map BufferItem.row
  | a => a.pushes

/-- A worker with nothing left to do answers nothing. -/
theorem run_persists_done (worker : String) (now : Int) (batches : List (Batch × (Nat → Attempt)))
    {s : State} (done : ∀ raw job jobs, s.buffer.workers worker ≠ .working raw (job :: jobs)) :
    Machine.run step s (batches.map fun job => .persist worker now job.2) = s := by
  induction batches with
  | nil => rfl
  | cons job batches ih =>
      have silent : persistNext worker now job.2 s = (s, .ok ()) := by
        rw [persistNext]
        split
        · next raw batch jobs working => exact absurd working (done raw batch jobs)
        · rfl
      simp only [List.map_cons, Machine.run_cons, step, silent]
      exact ih

/-- A worker that writes its copy month by month ends where the loop ends. -/
theorem run_persists (worker : String) (now : Int) (batches : List (Batch × (Nat → Attempt)))
    {s : State} {raw : List BufferItem}
    (working : s.buffer.workers worker = .working raw (batches.map Prod.fst)) :
    let final := Machine.run step s (batches.map fun job => .persist worker now job.2)
    final.db = (persistBatches now batches s.db).2 ∧ final.buffer.items = s.buffer.items ∧
      final.buffer.lock = s.buffer.lock ∧
      final.buffer.workers worker =
        match (persistBatches now batches s.db).1 with
        | .ok _ => .working raw []
        | .error _ => .releasing := by
  induction batches generalizing s with
  | nil => exact ⟨rfl, rfl, rfl, working⟩
  | cons job batches ih =>
      obtain ⟨batch, outcome⟩ := job
      simp only [List.map_cons] at working
      simp only [List.map_cons, Machine.run_cons, step, persistNext, working, persistBatches]
      cases written : persistBatch now outcome batch maxRetries s.db with
      | mk answer db =>
          cases answer with
          | ok _ =>
              have advanced : (s.buffer.advance worker).workers worker =
                  .working raw (batches.map Prod.fst) := by
                simp [LeasedQueue.State.advance, working, LeasedQueue.State.setWorker]
              obtain ⟨ledger, items, lock, phase⟩ :=
                ih (s := ⟨db, s.buffer.advance worker⟩) advanced
              have kept : (s.buffer.advance worker).items = s.buffer.items ∧
                  (s.buffer.advance worker).lock = s.buffer.lock := by
                simp [LeasedQueue.State.advance, working, LeasedQueue.State.setWorker]
              refine ⟨ledger, items.trans kept.1, lock.trans kept.2, ?_⟩
              rw [phase]
              simp only
              cases (persistBatches now batches db).1 <;> rfl
          | error e =>
              have left : (s.buffer.abandon worker).workers worker = .releasing := by
                simp [LeasedQueue.State.abandon, working, LeasedQueue.State.setWorker]
              simp only
              rw [run_persists_done worker now _ (by simp [left])]
              simp [LeasedQueue.State.abandon, working, LeasedQueue.State.setWorker]

/-- The transactions of `persist` with their outcomes. -/
def attempted (outcome : Nat → Nat → Attempt) (batches : List Batch) :
    List (Batch × (Nat → Attempt)) :=
  batches.mapIdx (fun i batch => (batch, outcome i))

theorem attempted_fst (outcome : Nat → Nat → Attempt) (batches : List Batch) :
    (attempted outcome batches).map Prod.fst = batches := by
  refine List.ext_getElem (by simp [attempted]) ?_
  intro i _ _
  simp [attempted]

/-- A flush run is one worker's share of the system: acquire, peek, write the
copy month by month, acknowledge, release. -/
theorem flush_actions (worker : String) (limit now : Int) (outcome : Nat → Nat → Attempt)
    {s : State} (free : s.buffer.lock = none) (idle : s.buffer.workers worker = .idle) :
    let jobs := attempted outcome (planBatches (s.buffer.items.take (flushSize limit)))
    let final := Machine.run step s
      ([.queue (.acquire worker), .queue (.peek worker (flushSize limit))] ++
        jobs.map (fun job => .persist worker now job.2) ++
        [.queue (.acknowledge worker), .queue (.release worker)])
    (final.db, final.buffer.items) =
      (flushUsageBuffer limit now outcome (s.db, s.buffer.items)).2 := by
  intro jobs final
  have peeked := @LeasedQueue.acquire_peek String BufferItem Batch _ planBatches _ worker free idle
    (flushSize limit)
  obtain ⟨items, lock, phase⟩ := peeked
  simp only [final, Machine.run_append, Machine.run_cons, Machine.run_nil, step,
    LeasedQueue.State.apply, flushUsageBuffer]
  generalize hq : (s.buffer.acquire worker).peek planBatches worker (flushSize limit) = q at *
  cases empty : (s.buffer.items.take (flushSize limit)).isEmpty with
  | true =>
      simp only [empty, if_true] at phase ⊢
      rw [run_persists_done worker now jobs (by simp [phase])]
      simp [LeasedQueue.State.acknowledge, phase, LeasedQueue.State.release,
        LeasedQueue.State.setWorker, items]
  | false =>
      simp only [empty, Bool.false_eq_true, if_false] at phase ⊢
      rw [← attempted_fst outcome (planBatches _)] at phase
      obtain ⟨ledger, items', lock', phase'⟩ :=
        run_persists worker now jobs (s := ⟨s.db, q⟩) phase
      generalize Machine.run step ⟨s.db, q⟩
        (jobs.map fun job => .persist worker now job.2) = r at *
      simp only [persist, planBatches, attempted, jobs] at ledger phase' ⊢
      split
      · next written db outcome =>
          rw [outcome] at ledger phase'
          simp only at phase' ledger
          simp [LeasedQueue.State.acknowledge, phase', lock', lock, LeasedQueue.State.release,
            LeasedQueue.State.setWorker, ledger, items', items]
      · next e db outcome =>
          rw [outcome] at ledger phase'
          simp only at phase' ledger
          simp [LeasedQueue.State.acknowledge, phase', LeasedQueue.State.release,
            LeasedQueue.State.setWorker, ledger, items', items]

/-- The rows whose transaction the action makes durable. -/
def landed (s : State) : Action → List UsageLogDoc
  | .queue _ => []
  | .persist worker _ outcome =>
      match s.buffer.workers worker with
      | .working _ (batch :: _) => if lands outcome maxRetries then batch.rows else []
      | _ => []
  | .deliver batch _ outcome => if lands outcome maxRetries then batch.rows else []

def Action.clock : Action → Int
  | .queue _ => 0
  | .persist _ now _ => now
  | .deliver _ now _ => now

/-- What a buffered entry asks for has happened. -/
def Handled (db : UsageDb) : BufferItem → Prop
  | .malformed => True
  | .row doc => db.Committed doc

def covers (batch : Batch) : BufferItem → Prop
  | .malformed => False
  | .row doc => doc ∈ batch.rows

theorem planBatches_covers {raw : List BufferItem} {doc : UsageLogDoc} :
    (∃ batch ∈ planBatches raw, covers batch (.row doc)) ↔ .row doc ∈ raw := by
  simp only [planBatches, covers, mem_groupByMonth, List.mem_filterMap]
  constructor
  · rintro ⟨item, mem, isRow⟩
    cases item with
    | malformed => cases isRow
    | row other =>
        cases isRow
        exact mem
  · exact fun mem => ⟨.row doc, mem, rfl⟩

theorem landed_job {worker : String} {raw : List BufferItem} {batch : Batch} {jobs : List Batch}
    {s : State} (working : s.buffer.workers worker = .working raw (batch :: jobs)) (now : Int)
    (outcome : Nat → Attempt) :
    landed s (.persist worker now outcome) =
      if lands outcome maxRetries then batch.rows else [] := by
  simp only [landed, working]

/-- What an action does to the store: it writes the rows that land. -/
theorem step_db (s : State) (a : Action) :
    (step s a).1.db = persistRows a.clock (landed s a) s.db := by
  have written (now : Int) (outcome : Nat → Attempt) (batch : Batch) :
      (persistBatch now outcome batch maxRetries s.db).2 =
        persistRows now (if lands outcome maxRetries then batch.rows else []) s.db := by
    rw [(persistBatch_spec now outcome batch maxRetries s.db).1]
    split <;> rfl
  cases a with
  | queue move => rfl
  | deliver batch now outcome => exact written now outcome batch
  | persist worker now outcome =>
      simp only [step, persistNext, landed, Action.clock]
      split
      · next raw batch jobs working =>
          rw [← written now outcome batch]
          split
          · next answered => rw [answered]
          · next thrown => rw [thrown]
      · rfl

/-- What an action does to the buffer: a queue move, of which only a peek is a
peek, or nothing, or the worker is done with a job that landed. -/
theorem step_buffer (s : State) (a : Action) :
    (∃ move, (step s a).1.buffer = s.buffer.apply planBatches move ∧ move.pushes = a.pushes ∧
        ∀ worker size, move = .peek worker size → a = .queue (.peek worker size)) ∨
      (a.pushes = [] ∧ (step s a).1.buffer = s.buffer) ∨
      (a.pushes = [] ∧ ∃ worker raw batch jobs,
        s.buffer.workers worker = .working raw (batch :: jobs) ∧ landed s a = batch.rows ∧
          (step s a).1.buffer = s.buffer.advance worker) := by
  cases a with
  | queue move => exact .inl ⟨move, rfl, rfl, fun _ _ peek => congrArg Action.queue peek⟩
  | deliver batch now outcome => exact .inr (.inl ⟨rfl, rfl⟩)
  | persist worker now outcome =>
      simp only [step, persistNext]
      split
      · next raw batch jobs working =>
          have told := (persistBatch_spec now outcome batch maxRetries s.db).2
          split
          · next answered =>
              rw [answered] at told
              refine .inr (.inr ⟨rfl, worker, raw, batch, jobs, working, ?_, rfl⟩)
              rw [landed_job working, told rfl, if_pos rfl]
          · exact .inl ⟨.abandon worker, rfl, rfl, fun _ _ peek => nomatch peek⟩
      · exact .inr (.inl ⟨rfl, rfl⟩)

theorem find_step (s : State) (a : Action) (key : String × String) :
    (step s a).1.db.rows.find key =
      (s.db.rows.find key).or ((landed s a).find? (fun row => decide (Document.key row = key))) := by
  rw [step_db, find_persistRows]

theorem committed_step {s : State} {row : UsageLogDoc} (a : Action) (h : s.db.Committed row) :
    (step s a).1.db.Committed row := by
  rw [step_db]
  exact committed_persistRows (.inl h)

theorem handled_step {s : State} (a : Action) (x : BufferItem) (h : Handled s.db x) :
    Handled (step s a).1.db x := by
  cases x with
  | malformed => trivial
  | row doc => exact committed_step a h

/-- The owner's copy is a prefix of the buffer, and what a worker has copied is
committed or still planned. -/
structure Safe (s : State) : Prop where
  held : s.buffer.HeldPrefix
  covered : s.buffer.Covered (Handled s.db) covers

theorem safe_start (items : List BufferItem) (db : UsageDb) : Safe (start items db) where
  held _ _ _ lock := nomatch lock
  covered _ _ _ working := nomatch working

theorem planned (db : UsageDb) (raw : List BufferItem) (x : BufferItem) (mem : x ∈ raw) :
    Handled db x ∨ ∃ batch ∈ planBatches raw, covers batch x := by
  cases x with
  | malformed => exact .inl trivial
  | row doc => exact .inr (planBatches_covers.mpr mem)

theorem safe_step {s : State} (h : Safe s) (a : Action) : Safe (step s a).1 := by
  have covered := LeasedQueue.covered_mono (handled_step a) h.covered
  rcases step_buffer s a with ⟨move, buffer, _⟩ | ⟨_, same⟩ | done
  · refine ⟨?_, ?_⟩
    · rw [buffer]
      exact LeasedQueue.heldPrefix_apply h.held move
    · rw [buffer]
      exact LeasedQueue.covered_apply (planned _) covered move
  · refine ⟨?_, ?_⟩
    · rw [same]
      exact h.held
    · rw [same]
      exact covered
  · obtain ⟨_, worker, raw, batch, jobs, working, written, buffer⟩ := done
    refine ⟨?_, ?_⟩
    · rw [buffer]
      exact LeasedQueue.heldPrefix_advance h.held worker
    · rw [buffer]
      refine LeasedQueue.covered_advance covered worker working ?_
      intro x mem
      cases x with
      | malformed => trivial
      | row doc =>
          rw [step_db, written]
          exact committed_persistRows (.inr mem)

/-- An entry of the buffer stays there or is committed. -/
theorem kept_step {s : State} (h : Safe s) (a : Action) {x : BufferItem}
    (queued : x ∈ s.buffer.items) :
    x ∈ (step s a).1.buffer.items ∨ Handled (step s a).1.db x := by
  have covered := LeasedQueue.covered_mono (handled_step a) h.covered
  rcases step_buffer s a with ⟨move, buffer, _⟩ | ⟨_, same⟩ | done
  · rw [buffer]
    exact LeasedQueue.kept_apply h.held covered move queued
  · rw [same]
    exact .inl queued
  · obtain ⟨_, worker, raw, batch, jobs, working, _, buffer⟩ := done
    rw [buffer]
    refine .inl ?_
    simpa only [LeasedQueue.State.advance, working, LeasedQueue.State.setWorker] using queued

theorem pushed_step (s : State) (a : Action) {x : BufferItem} (pushed : x ∈ a.pushes) :
    x ∈ (step s a).1.buffer.items := by
  cases a with
  | queue move =>
      cases move with
      | push y => exact List.mem_append_right s.buffer.items pushed
      | _ => cases pushed
  | _ => cases pushed

/-- Every entry ever pushed, and every one that was there at the start, is in
the buffer or committed. -/
theorem run_keeps {s : State} (h : Safe s) (as : List Action) {x : BufferItem}
    (entered : x ∈ s.buffer.items ∨ Handled s.db x ∨ x ∈ as.flatMap Action.pushes) :
    x ∈ (Machine.run step s as).buffer.items ∨ Handled (Machine.run step s as).db x := by
  induction as generalizing s with
  | nil => simpa using entered
  | cons a as ih =>
      refine ih (safe_step h a) ?_
      simp only [List.flatMap_cons, List.mem_append] at entered
      rcases entered with queued | handled | pushed | later
      · exact (kept_step h a queued).imp_right .inl
      · exact .inr (.inl (handled_step a x handled))
      · exact .inl (pushed_step s a pushed)
      · exact .inr (.inr later)

/-- A worker that has taken its copy, until it takes another one. -/
def NoPeek (worker : String) (as : List Action) : Prop :=
  ∀ a ∈ as, ∀ size, a ≠ .queue (.peek worker size)

theorem fenced_step {worker : String} {raw base grown : List BufferItem} {s : State}
    (h : s.buffer.Fenced worker raw base grown) {a : Action}
    (noPeek : ∀ size, a ≠ .queue (.peek worker size)) :
    (step s a).1.buffer.Fenced worker raw base (grown ++ a.pushes) := by
  rcases step_buffer s a with ⟨move, buffer, pushes, peeks⟩ | ⟨pushes, same⟩ | done
  · rw [buffer, ← pushes]
    exact LeasedQueue.fenced_apply h (fun size peek => noPeek size (peeks worker size peek))
  · rw [same, pushes, List.append_nil]
    exact h
  · obtain ⟨pushes, other, _, _, _, _, _, buffer⟩ := done
    rw [buffer, pushes, List.append_nil]
    exact LeasedQueue.fenced_advance h other

theorem fenced_run {worker : String} {raw base : List BufferItem} (as : List Action)
    (noPeek : NoPeek worker as) {grown : List BufferItem} {s : State}
    (h : s.buffer.Fenced worker raw base grown) :
    (Machine.run step s as).buffer.Fenced worker raw base
      (grown ++ as.flatMap Action.pushes) := by
  induction as generalizing s grown with
  | nil => simpa using h
  | cons a as ih =>
      have moved := fenced_step h (noPeek a List.mem_cons_self)
      have rest := ih (fun b hb => noPeek b (List.mem_cons_of_mem a hb)) moved
      simpa only [List.flatMap_cons, List.append_assoc, Machine.run_cons] using rest

/-- The acknowledgement of a copy trims the copy and none of the entries that
were appended after it was taken, whatever happened in between. -/
theorem acknowledge_spares {s : State} {worker : String} (size : Nat) (as : List Action)
    (locked : s.buffer.workers worker = .locked) (noPeek : NoPeek worker as) :
    let before := Machine.run step s (.queue (.peek worker size) :: as)
    let after := (step before (.queue (.acknowledge worker))).1
    after.buffer.items = before.buffer.items ∨
      after.buffer.items = s.buffer.items.drop size ++ as.flatMap Action.pushes := by
  intro before after
  have peeked : (step s (.queue (.peek worker size))).1.buffer.Fenced worker
      (s.buffer.items.take size) s.buffer.items [] := LeasedQueue.fenced_peek rfl locked size
  have fenced := fenced_run as noPeek peeked
  have short : (s.buffer.items.take size).length ≤ s.buffer.items.length := by simp
  have trimmed := LeasedQueue.fenced_acknowledge fenced short
  rw [List.nil_append, List.length_take] at trimmed
  refine trimmed.imp id ?_
  intro items
  rw [show after.buffer.items = _ from items]
  by_cases long : size ≤ s.buffer.items.length
  · rw [Nat.min_eq_left long]
  · have beyond : s.buffer.items.length ≤ size := by omega
    rw [Nat.min_eq_right beyond, List.drop_length, List.drop_eq_nil_of_le beyond]

/-- The step puts the first row of this key into its monthly collection. -/
def commits (row : UsageLogDoc) (e : Machine.Event State Action Reply) : Bool :=
  (e.before.db.rows.find (Document.key row)).isNone &&
    (e.after.db.rows.find (Document.key row)).isSome

theorem commits_once (row : UsageLogDoc) (s : State) (as : List Action) :
    (Machine.trace step s as).countP (commits row) ≤ 1 := by
  refine Machine.trace_countP_le_one (commits row) (fun s => s.db.Committed row) ?_ ?_ ?_ s as
  · exact fun s a committed => committed_step a committed
  · intro s a committed
    simp only [commits, Bool.and_eq_true] at committed
    exact committed.2
  · intro s a committed
    simp only [UsageDb.Committed, Option.isSome_iff_ne_none, ne_eq,
      ← Option.isNone_iff_eq_none] at committed
    simp only [commits, committed, Bool.false_and]

/-- Only entries that came into the system are buffered, planned or stored. -/
structure Genuine (entered : BufferItem → Prop) (s : State) : Prop where
  sourced : s.buffer.Sourced entered covers
  stored : ∀ key doc, s.db.rows.find key = some doc → entered (.row doc)

theorem landed_genuine {entered : BufferItem → Prop} {s : State} (h : Genuine entered s)
    {a : Action} (enters : ∀ x ∈ a.enters, entered x) {doc : UsageLogDoc}
    (mem : doc ∈ landed s a) : entered (.row doc) := by
  cases a with
  | queue move => cases mem
  | deliver batch now outcome =>
      simp only [landed] at mem
      split at mem
      · exact enters _ (List.mem_map_of_mem mem)
      · cases mem
  | persist worker now outcome =>
      simp only [landed] at mem
      split at mem
      · next raw batch jobs working =>
          split at mem
          · exact h.sourced.2 worker raw _ working batch List.mem_cons_self (.row doc) mem
          · cases mem
      · cases mem

theorem genuine_step {entered : BufferItem → Prop} {s : State} (h : Genuine entered s)
    {a : Action} (enters : ∀ x ∈ a.enters, entered x) : Genuine entered (step s a).1 := by
  have pushed : ∀ x ∈ a.pushes, entered x := by
    cases a with
    | queue move => exact enters
    | _ => exact fun x mem => nomatch mem
  refine ⟨?_, ?_⟩
  · rcases step_buffer s a with ⟨move, buffer, pushes, _⟩ | ⟨_, same⟩ | done
    · rw [buffer]
      refine LeasedQueue.sourced_apply ?_ h.sourced move (pushes ▸ pushed)
      intro raw batch mem x covered
      cases x with
      | malformed => cases covered
      | row doc => exact planBatches_covers.mp ⟨batch, mem, covered⟩
    · rw [same]
      exact h.sourced
    · obtain ⟨_, worker, _, _, _, _, _, buffer⟩ := done
      rw [buffer]
      exact LeasedQueue.sourced_advance h.sourced worker
  · intro key doc found
    rw [find_step] at found
    cases earlier : s.db.rows.find key with
    | some stored =>
        rw [earlier, Option.some_or] at found
        cases found
        exact h.stored key doc earlier
    | none =>
        rw [earlier, Option.none_or] at found
        exact landed_genuine h enters (List.mem_of_find?_eq_some found)

theorem run_genuine {entered : BufferItem → Prop} {s : State} (h : Genuine entered s)
    (as : List Action) (enters : ∀ x ∈ as.flatMap Action.enters, entered x) :
    Genuine entered (Machine.run step s as) := by
  refine Machine.run_invariant_of
    (fun s a (enters : ∀ x ∈ a.enters, entered x) (h : Genuine entered s) =>
      genuine_step h enters) h as ?_
  intro a mem x entering
  exact enters x (List.mem_flatMap.mpr ⟨a, mem, entering⟩)

/-- The entries of a run: stored or buffered at the start, or coming in with an
action. -/
def Entered (items : List BufferItem) (db : UsageDb) (as : List Action) : BufferItem → Prop
  | .row doc => doc ∈ db.rows.docs ∨ .row doc ∈ items ++ as.flatMap Action.enters
  | .malformed => True

theorem genuine_start (items : List BufferItem) (db : UsageDb) (as : List Action) :
    Genuine (Entered items db as) (start items db) where
  sourced := by
    refine ⟨?_, fun _ _ _ working => nomatch working⟩
    intro x mem
    cases x with
    | malformed => trivial
    | row doc => exact .inr (List.mem_append_left _ mem)
  stored _ _ found := .inl (Collection.mem_of_find found).1

/-- The buffer neither loses nor duplicates. Over every interleaving of
producers and workers, started on any buffer and any store: a well-formed entry
that was pushed, or was there, is buffered or committed to its month; what a
month holds under a key is one of the entries that came in; the
acknowledgement of a worker trims nothing that was appended after its peek; and
the row of an entry is committed at most once. -/
theorem usage_exactly_once (items : List BufferItem) (db : UsageDb) (as : List Action) :
    (∀ doc, .row doc ∈ items ++ as.flatMap Action.pushes →
      .row doc ∈ (Machine.run step (start items db) as).buffer.items ∨
        (Machine.run step (start items db) as).db.Committed doc) ∧
    (∀ key doc, (Machine.run step (start items db) as).db.rows.find key = some doc →
      doc ∈ db.rows.docs ∨ .row doc ∈ items ++ as.flatMap Action.enters) ∧
    (∀ pre mid worker size, as = pre ++ .queue (.peek worker size) :: mid ++
        [.queue (.acknowledge worker)] →
      (Machine.run step (start items db) pre).buffer.workers worker = .locked →
      NoPeek worker mid →
      let copied := (Machine.run step (start items db) pre).buffer.items
      let before := Machine.run step (start items db) (pre ++ .queue (.peek worker size) :: mid)
      let after := Machine.run step (start items db) as
      after.buffer.items = before.buffer.items ∨
        after.buffer.items = copied.drop size ++ mid.flatMap Action.pushes) ∧
    (∀ doc, (Machine.trace step (start items db) as).countP (commits doc) ≤ 1) := by
  refine ⟨?_, ?_, ?_, fun doc => commits_once doc (start items db) as⟩
  · intro doc entered
    refine run_keeps (safe_start items db) as (x := .row doc) ?_
    cases List.mem_append.mp entered with
    | inl there => exact .inl there
    | inr pushed => exact .inr (.inr pushed)
  · intro key doc found
    refine (run_genuine (genuine_start items db as) as ?_).stored key doc found
    intro x entering
    cases x with
    | malformed => trivial
    | row doc => exact .inr (List.mem_append_right items entering)
  · rintro pre mid worker size rfl locked noPeek
    simp only [Machine.run_append]
    exact acknowledge_spares size mid locked noPeek

end UsageSystem

end Gateway
