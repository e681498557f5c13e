import Gateway.Db.MemoryDatabase

/-!
Transactions of the database in the process.

While a transaction runs the database only grows, so the collections that it found are
still there when it throws, and the others are the ones that it made. This holds as long
as no code outside makes a collection meanwhile: the map of names is not part of what
the transactions take turns on.
-/

namespace Gateway.Memory

universe u v

namespace MemoryDatabase

/-- What a database may become while a transaction runs. -/
structure Grown (start now : MemoryDatabase) : Prop where
  names : start.collections.entries <+: now.collections.entries
  objects : start.objects.length ≤ now.objects.length

theorem Grown.refl (db : MemoryDatabase) : Grown db db := ⟨List.prefix_rfl, Nat.le_refl _⟩

theorem Grown.collection {start now : MemoryDatabase} (grown : Grown start now) (name : String) :
    Grown start (now.collection name).1 := by
  rw [MemoryDatabase.collection]
  split
  · exact grown
  · next absent =>
      refine ⟨?_, ?_⟩
      · rw [create, OrderedMap.entries_set_absent _ absent]
        exact grown.names.trans (List.prefix_append _ _)
      · rw [create, List.length_append]
        exact Nat.le_trans grown.objects (Nat.le_add_right _ _)

theorem Grown.call {start now : MemoryDatabase} (grown : Grown start now) (host : Host)
    (c : Call) : Grown start (now.call host c).1 :=
  ⟨grown.names, Nat.le_trans grown.objects (Nat.le_of_eq List.length_set.symm)⟩

/-- A collection that the start knew is still the same object. -/
theorem Grown.get? {start now : MemoryDatabase} (grown : Grown start now) {name : String}
    {target : Nat} (opened : start.collections.get? name = some target) :
    now.collections.get? name = some target :=
  OrderedMap.mem_entries.mp (grown.names.subset (OrderedMap.mem_entries.mpr opened))

theorem collection_of_get? {db : MemoryDatabase} {name : String} {target : Nat}
    (opened : db.collections.get? name = some target) : db.collection name = (db, target) := by
  rw [collection]
  split
  · next existing =>
      rw [opened, Option.some.injEq] at existing
      rw [existing]
  · next absent => exact absurd (absent.symm.trans opened) (Option.some_ne_none target).symm

theorem Grown.mem_names {start now : MemoryDatabase} (grown : Grown start now) {name : String}
    (mem : name ∈ start.names) : name ∈ now.names := (grown.names.map Prod.fst).subset mem

theorem mem_names_collection (db : MemoryDatabase) (name : String) :
    name ∈ (db.collection name).1.names := by
  rw [collection]
  split
  · next target opened =>
      exact List.mem_map_of_mem (f := Prod.fst) (OrderedMap.mem_entries.mpr opened)
  · next absent =>
      rw [names, create, OrderedMap.entries_set_absent _ absent, List.map_append]
      exact List.mem_append_right _ List.mem_cons_self

theorem snapshot_get? (db : MemoryDatabase) (name : String) :
    db.snapshot.get? name = (db.collections.get? name).map db.object :=
  OrderedMap.get?_mapValues db.object db.collections name

theorem snapshot_entries (db : MemoryDatabase) :
    db.snapshot.entries = db.collections.entries.map fun entry => (entry.1, db.object entry.2) :=
  rfl

theorem snapshot_names (db : MemoryDatabase) : db.snapshot.entries.map Prod.fst = db.names :=
  List.map_map

theorem object_setObject_self {db : MemoryDatabase} {target : Nat} (c : MemoryCollection)
    (inRange : target < db.objects.length) : (db.setObject target c).object target = c := by
  rw [object, setObject, List.getD_eq_getElem?_getD, List.getElem?_set_self inRange,
    Option.getD_some]

theorem object_setObject_other (db : MemoryDatabase) {target other : Nat} (c : MemoryCollection)
    (ne : other ≠ target) : (db.setObject target c).object other = db.object other := by
  rw [object, setObject, List.getD_eq_getElem?_getD, List.getElem?_set_ne ne.symm, object,
    List.getD_eq_getElem?_getD]

/-- The turns of the loop for names that are in the snapshots leave the map alone, and the
contents of each collection become those of the snapshot. -/
theorem restore_known {snapshots : OrderedMap String MemoryCollection}
    {contents : Nat → MemoryCollection} {list : List (String × Nat)} {db : MemoryDatabase}
    (known : ∀ entry ∈ list, snapshots.get? entry.1 = some (contents entry.2))
    (inRange : ∀ entry ∈ list, entry.2 < db.objects.length) :
    (list.foldl (restoreOne snapshots) db).collections = db.collections ∧
      ∀ target, target ∈ list.map Prod.snd ∨ db.object target = contents target →
        (list.foldl (restoreOne snapshots) db).object target = contents target := by
  induction list generalizing db with
  | nil =>
      refine ⟨rfl, fun target right => ?_⟩
      cases right with
      | inl mem => exact absurd mem List.not_mem_nil
      | inr right => exact right
  | cons entry rest ih =>
      have one : restoreOne snapshots db entry = db.setObject entry.2 (contents entry.2) := by
        rw [restoreOne, known entry List.mem_cons_self]
      obtain ⟨collections, restored⟩ := @ih (db.setObject entry.2 (contents entry.2))
        (fun e mem => known e (List.mem_cons_of_mem _ mem)) (fun e mem => by
          rw [setObject, List.length_set]
          exact inRange e (List.mem_cons_of_mem _ mem))
      rw [List.foldl_cons, one]
      refine ⟨collections, fun target right => restored target ?_⟩
      by_cases same : target = entry.2
      · rw [same]
        exact .inr (object_setObject_self _ (inRange entry List.mem_cons_self))
      · rw [object_setObject_other db _ same]
        rw [List.map_cons, List.mem_cons] at right
        cases right with
        | inl mem => exact .inl (mem.resolve_left same)
        | inr right => exact .inr right

/-- The turns for names that are not in the snapshots take these out of the map. -/
theorem restore_unknown {snapshots : OrderedMap String MemoryCollection}
    {list : List (String × Nat)} {db : MemoryDatabase}
    (unknown : ∀ entry ∈ list, snapshots.get? entry.1 = none) :
    (list.foldl (restoreOne snapshots) db).objects = db.objects ∧
      (list.foldl (restoreOne snapshots) db).collections.entries =
        db.collections.entries.filter fun entry => decide (entry.1 ∉ list.map Prod.fst) := by
  induction list generalizing db with
  | nil =>
      refine ⟨rfl, (List.filter_eq_self.mpr fun entry _ => ?_).symm⟩
      exact decide_eq_true List.not_mem_nil
  | cons entry rest ih =>
      have one : restoreOne snapshots db entry = db.erase entry.1 := by
        rw [restoreOne, unknown entry List.mem_cons_self]
      obtain ⟨objects, entries⟩ := @ih (db.erase entry.1)
        fun e mem => unknown e (List.mem_cons_of_mem _ mem)
      rw [List.foldl_cons, one]
      refine ⟨objects, entries.trans ?_⟩
      have first : (db.erase entry.1).collections.entries =
          db.collections.entries.filter fun e => decide (e.1 ≠ entry.1) := rfl
      rw [first, List.filter_filter]
      apply List.filter_congr
      intro e _
      rw [Bool.eq_iff_iff, Bool.and_eq_true, decide_eq_true_iff, decide_eq_true_iff,
        decide_eq_true_iff, List.map_cons, List.mem_cons, not_or]
      exact And.comm

/-- The transaction that throws leaves every collection as it found it, and the names. -/
theorem restore_snapshot {start now : MemoryDatabase} (grown : Grown start now) :
    (now.restore start.snapshot).collections = start.collections ∧
      (now.restore start.snapshot).snapshot = start.snapshot := by
  obtain ⟨made, entries⟩ := grown.names
  have distinct := now.collections.distinct
  rw [← entries, List.map_append, List.nodup_append] at distinct
  have known : ∀ entry ∈ start.collections.entries,
      start.snapshot.get? entry.1 = some (start.object entry.2) := by
    intro entry mem
    rw [snapshot_get?, OrderedMap.mem_entries.mp mem, Option.map_some]
  have unknown : ∀ entry ∈ made, start.snapshot.get? entry.1 = none := by
    intro entry mem
    rw [snapshot_get?, Option.map_eq_none_iff]
    cases opened : start.collections.get? entry.1 with
    | none => rfl
    | some target =>
        have listed := List.mem_map_of_mem (f := Prod.fst) (OrderedMap.mem_entries.mpr opened)
        exact absurd rfl (distinct.2.2 entry.1 listed entry.1 (List.mem_map_of_mem mem))
  obtain ⟨same, restored⟩ := @restore_known start.snapshot start.object _ now known
    fun entry mem => Nat.lt_of_lt_of_le (start.inRange entry mem) grown.objects
  obtain ⟨objects, left⟩ := @restore_unknown start.snapshot made
    (start.collections.entries.foldl (restoreOne start.snapshot) now) unknown
  have split : now.restore start.snapshot =
      made.foldl (restoreOne start.snapshot)
        (start.collections.entries.foldl (restoreOne start.snapshot) now) := by
    rw [restore, ← entries, List.foldl_append]
  have collections : (now.restore start.snapshot).collections = start.collections := by
    apply OrderedMap.ext_entries
    rw [split, left, same, ← entries, List.filter_append]
    have keeps : (start.collections.entries.filter fun entry =>
        decide (entry.1 ∉ made.map Prod.fst)) = start.collections.entries := by
      apply List.filter_eq_self.mpr
      intro entry mem
      apply decide_eq_true
      intro again
      exact distinct.2.2 _ (List.mem_map_of_mem mem) _ again rfl
    have drops : (made.filter fun entry => decide (entry.1 ∉ made.map Prod.fst)) = [] := by
      apply List.filter_eq_nil_iff.mpr
      intro entry mem there
      exact of_decide_eq_true there (List.mem_map_of_mem mem)
    rw [keeps, drops, List.append_nil]
  refine ⟨collections, OrderedMap.ext_entries ?_⟩
  rw [snapshot_entries, snapshot_entries, collections]
  apply List.map_congr_left
  intro entry mem
  have contents := restored entry.2 (.inl (List.mem_map_of_mem mem))
  rw [split]
  refine Prod.ext rfl (Eq.trans ?_ contents)
  rw [object, objects, object]

end MemoryDatabase

section Runs

open ExclusiveQueue MemoryDatabase

variable {E : Type u} {T : Type v}

/-- The condition on a step and the state before it. While a transaction runs, code outside
it opens only collections that were there when it started, lists them only while there are
no others, and nobody closes the database. -/
def Undisturbed (s : System MemoryDatabase Direct Call Answer (Except E T))
    (a : Action Direct Call Answer (Except E T)) : Prop :=
  ∀ r, s.running = some r →
    match a with
    | .probe (.collection name) => r.start.collections.has name = true
    | .probe .listCollections => s.state.names = r.start.names
    | .probe .close => False
    | .submit _ => True
    | .advance => r.rest.next? ≠ some (.probe .close)

variable {host : Host} {s : System MemoryDatabase Direct Call Answer (Except E T)}
  {a : Action Direct Call Answer (Except E T)}

theorem transparent_of_undisturbed (undisturbed : Undisturbed s a) (keeps : Keeps Grown s) :
    Transparent (database host) s a := by
  cases a with
  | submit job => trivial
  | advance => trivial
  | probe p =>
      intro r running
      have allowed := undisturbed r running
      cases p with
      | collection name =>
          obtain ⟨target, opened⟩ := Option.isSome_iff_exists.mp allowed
          have now := collection_of_get? ((keeps r running).get? opened)
          simp only [database, direct, now, collection_of_get? opened, and_self]
      | listCollections =>
          have same : s.state.names = r.start.names := allowed
          simp only [database, direct, same, and_self]
      | close => exact absurd allowed not_false

theorem undisturbed_keeps (undisturbed : Undisturbed s a) (keeps : Keeps Grown s) :
    Keeps Grown (step (database host) s a).1 := by
  apply step_keeps Grown.refl (transparent_of_undisturbed undisturbed keeps) _ keeps
  intro advances r running request next grown
  subst advances
  cases request with
  | call c => exact grown.call host c
  | probe p =>
      cases p with
      | collection name => exact grown.collection name
      | listCollections => exact grown
      | close => exact absurd next (undisturbed r running)

theorem initial_keeps (db : MemoryDatabase) :
    Keeps Grown (System.initial db : System MemoryDatabase Direct Call Answer (Except E T)) :=
  fun r busy => absurd busy (Option.some_ne_none r).symm

/-- A transaction that throws leaves every collection as it was, and a transaction in it
does what its steps do in its place. -/
structure Atomic (host : Host)
    (order : List (Serial Direct Call Answer (Except E T))) : Prop where
  undone : ∀ e ∈ Machine.trace (serialStep (database host)) .initial order,
    ∀ number error, e.reply = .finished number (.error error) →
      e.after.collections = e.before.collections ∧ e.after.snapshot = e.before.snapshot
  joined : ∀ db number (inner : Body Direct Call Answer (Except E T)) resume,
    serialStep (database host) db (.routine number (.nested inner resume)) =
      serialStep (database host) db (.routine number (inner.andThen resume))

section Events

variable {actions : List (Action Direct Call Answer (Except E T))}
  (undisturbed : ∀ e ∈ events (database host) (.initial .initial) actions,
    Undisturbed e.before e.action)

include undisturbed

theorem events_keep : ∀ e ∈ events (database host) (.initial .initial) actions,
    Keeps Grown e.before :=
  Machine.trace_invariant_where (fun _ _ met keeps => undisturbed_keeps met keeps)
    (initial_keeps .initial) undisturbed

theorem events_transparent : ∀ e ∈ events (database host) (.initial .initial) actions,
    Transparent (database host) e.before e.action := fun e mem =>
  transparent_of_undisturbed (undisturbed e mem) (events_keep undisturbed e mem)

theorem effects_atomic : Atomic host (effects (database host) (.initial .initial) actions) where
  undone := by
    intro e mem number error ends
    obtain ⟨now, grown, after⟩ :=
      serial_failed (events_transparent undisturbed) (initial_serves MemoryDatabase.initial)
        (events_keep undisturbed) e mem number _ ends rfl
    rw [after]
    exact restore_snapshot grown
  joined db number inner resume := by
    simp only [serialStep, Routine.run_nested]

end Events

/-- In every run whose steps all meet the condition, what is seen of the transactions and the
single calls is what some serial order of them shows, a transaction that throws leaves every
collection as it was, and the line of waiting jobs comes to its end. -/
theorem transactions_atomic_and_isolated (host : Host)
    (actions : List (Action Direct Call Answer (Except E T)))
    (undisturbed : ∀ e ∈ events (database host) (.initial .initial) actions,
      Undisturbed e.before e.action) :
    (∃ order, InSerialOrder (database host) snapshot .initial actions order ∧
        Atomic host order) ∧
      ∃ k, (Machine.run (step (database host)) (.initial .initial)
        (actions ++ advances k)).pending = [] := by
  refine ⟨⟨_, effects_inSerialOrder snapshot (events_transparent undisturbed),
    effects_atomic undisturbed⟩, ?_⟩
  obtain ⟨k, done⟩ := drains (m := database host)
    (Machine.run (step (database host)) (.initial .initial) actions)
  refine ⟨k, ?_⟩
  rw [Machine.run_append]
  exact done

end Runs

section Kept

open ExclusiveQueue MemoryDatabase

/-- A transaction that stores a document and throws. -/
def throwing : Body Direct Call Answer (Except String Unit) :=
  .ask (.probe (.collection "a")) fun answer =>
    match answer with
    | .opened target =>
        .ask (.call ⟨target, .write (.one (.insertOne [("_id", .str "1")]))⟩) fun _ =>
          .done (.error "failed")
    | _ => .done (.error "failed")

/-- The collection is there before the transaction starts. -/
def keptActions : List (Action Direct Call Answer (Except String Unit)) :=
  [.probe (.collection "a"), .submit (.routine throwing), .advance, .probe (.collection "a"),
    .advance]

theorem keptActions_undisturbed :
    ∀ e ∈ events (database plainHost) (.initial .initial) keptActions,
      Undisturbed e.before e.action := by
  refine List.forall_mem_cons.mpr ⟨?_, List.forall_mem_cons.mpr ⟨?_, List.forall_mem_cons.mpr
    ⟨?_, List.forall_mem_cons.mpr ⟨?_, List.forall_mem_cons.mpr ⟨?_, List.forall_mem_nil _⟩⟩⟩⟩⟩
  · intro r busy
    cases busy
  · intro r busy
    cases busy
  · intro r busy
    cases busy
  · intro r busy
    cases busy
    decide +kernel
  · intro r busy
    cases busy
    intro closes
    cases closes

theorem transactions_atomic_and_isolated_kept :
    (∃ order, InSerialOrder (database plainHost) snapshot .initial keptActions order ∧
        Atomic plainHost order) ∧
      ∃ k, (Machine.run (step (database plainHost)) (.initial .initial)
        (keptActions ++ advances k)).pending = [] :=
  transactions_atomic_and_isolated plainHost keptActions keptActions_undisturbed

end Kept

section Lost

open ExclusiveQueue MemoryDatabase

def stored : Call := ⟨1, .write (.one (.insertOne [("_id", .str "2")]))⟩

/-- Code outside opens a collection while the transaction runs, and stores a document in it. -/
def losingActions : List (Action Direct Call Answer (Except String Unit)) :=
  [.submit (.routine throwing), .advance, .advance, .advance, .probe (.collection "b"),
    .submit (.call stored), .advance, .advance]

theorem losing_names :
    (Machine.run (step (database plainHost)) (.initial .initial) losingActions).state.names =
      [] := by
  decide +kernel

/-- Whether a name that is in the map is still there after it. -/
def Holds (name : String) (x : Serial Direct Call Answer (Except String Unit)) : Prop :=
  ∀ db : MemoryDatabase, name ∈ db.names → name ∈ (serialStep (database plainHost) db x).1.names

theorem collection_holds (name opened : String) : Holds name (.probe (.collection opened)) :=
  fun db mem => ((Grown.refl db).collection opened).mem_names mem

theorem call_holds (name : String) (number : Nat) (c : Call) : Holds name (.call number c) :=
  fun _ mem => mem

theorem throwing_grows (db : MemoryDatabase) :
    Grown db (throwing.run (database (E := String) (T := Unit) plainHost).answer db).1 :=
  ((Grown.refl db).collection "a").call plainHost _

theorem throwing_holds (name : String) (number : Nat) : Holds name (.routine number throwing) := by
  intro db mem
  have restored : (serialStep (database plainHost) db (.routine number throwing)).1 =
      (throwing.run (database (E := String) (T := Unit) plainHost).answer db).1.restore
        db.snapshot := rfl
  rw [restored, names, (restore_snapshot (throwing_grows db)).1]
  exact mem

/-- In every serial order the collection that was opened is there in the end. -/
theorem opened_stays {order : List (Serial Direct Call Answer (Except String Unit))}
    (jobs : ∀ job ∈ order.filterMap Serial.job?, job ∈ submitted 0 losingActions)
    (probes : (order.filterMap Serial.probe?).Perm (losingActions.filterMap Action.probe?)) :
    "b" ∈ (Machine.run (serialStep (database plainHost)) .initial order).names := by
  have holds : ∀ x ∈ order, Holds "b" x := by
    intro x mem
    cases x with
    | probe p =>
        have listed := probes.subset (List.mem_filterMap.mpr ⟨_, mem, rfl⟩)
        cases List.mem_singleton.mp listed
        exact collection_holds "b" "b"
    | call number c => exact call_holds "b" number c
    | routine number body =>
        have listed := jobs _ (List.mem_filterMap.mpr ⟨_, mem, rfl⟩)
        cases List.mem_cons.mp listed with
        | inl same =>
            cases same
            exact throwing_holds "b" 0
        | inr other => cases List.mem_singleton.mp other
  have probed : Direct.collection "b" ∈ order.filterMap Serial.probe? :=
    probes.symm.subset List.mem_cons_self
  obtain ⟨x, mem, is⟩ := List.mem_filterMap.mp probed
  obtain ⟨pre, post, rfl⟩ := List.append_of_mem mem
  rw [Machine.run_append, Machine.run_cons]
  refine Machine.run_invariant_of (I := fun db : MemoryDatabase => "b" ∈ db.names)
    (fun db x (kept : Holds "b" x) there => kept db there) ?_ post fun x later =>
      holds x (List.mem_append_right _ (List.mem_cons_of_mem _ later))
  cases x with
  | probe p =>
      cases Option.some.inj is
      exact mem_names_collection _ "b"
  | call number c => cases is
  | routine number body => cases is

end Lost

/-- The collection that was opened outside is lost, and what was stored in it: no serial order
of the three ends like that. -/
theorem rollback_removes_foreign_collection :
    ¬∀ (host : Host)
      (actions : List (ExclusiveQueue.Action Direct Call Answer (Except String Unit))),
      ∃ order, ExclusiveQueue.InSerialOrder (database host) MemoryDatabase.snapshot .initial
        actions order := by
  intro claim
  obtain ⟨order, serial⟩ := claim plainHost losingActions
  have stays := opened_stays
    (fun job mem => serial.jobs.subset (List.mem_append_left _ mem)) serial.probes
  have same := serial.settled (by decide +kernel)
  have names := congrArg (fun contents => contents.entries.map Prod.fst) same
  simp only [MemoryDatabase.snapshot_names, losing_names] at names
  rw [names] at stays
  exact absurd stays List.not_mem_nil

end Gateway.Memory
