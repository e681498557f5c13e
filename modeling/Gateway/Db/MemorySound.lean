import Gateway.Db.MemoryGuard

/-!
Runs of writes on a collection.

Two things can go wrong in a write that the guard accepts: it puts its document in
the place of another one, which an upsert and an update of the id do not look for,
or a conflict is hidden from the guard. In every run without these steps a document
stays, as it is or as an update makes it, until it is deleted, and the indexes that
were created on the empty collection are satisfied.
-/

namespace Gateway.Memory

def Operation.deletes : Operation → Bool
  | .deleteOne _ | .deleteMany _ | .drop => true
  | _ => false

/-- The second document is the first one after the update of the operation. -/
def Operation.Updates (host : Host) : Operation → Fields → Fields → Prop
  | .updateOne now _ update _, doc, doc' | .updateMany now _ update, doc, doc'
  | .findOneAndUpdate now _ update _, doc, doc' => applyUpdate host now doc update false = .ok doc'
  | _, _, _ => False

/-- Each stored document is still stored under its key, as it is or updated. -/
def Kept (updates : Fields → Fields → Prop) (before after : MemoryCollection) : Prop :=
  ∀ key doc, before.docs.get? key = some doc →
    ∃ doc', after.docs.get? key = some doc' ∧ (doc' = doc ∨ updates doc doc')

section Conditions

variable (host : Host)

/-- The new document takes nobody's place, and nothing that it conflicts with is hidden. -/
def Admissible (t : Tracked) (candidate : Fields) (ignoreId : Option String) : Prop :=
  FreshKey host t candidate ignoreId ∧ NothingHidden host t candidate ignoreId

/-- The document that an upsert starts from. -/
def seedOf (t : Tracked) (filter : Fields) : Fields :=
  (withId host t.store.counter (seedFromFilter filter)).2

def FirstMeets (t : Tracked) (now : Int) (filter update : Fields) (upsert : Bool) : Prop :=
  (query host t.store filter = .ok [] → upsert = true →
    ∀ seed, applyUpdate host now (seedOf host t filter) update true = .ok seed →
      Admissible host t seed none) ∧
    ∀ row rest, query host t.store filter = .ok (row :: rest) →
      ∀ candidate, applyUpdate host now row update false = .ok candidate →
        Admissible host t candidate (some (idKey host row))

def RowsMeet (now : Int) (update : Fields) : List Fields → Tracked → Prop
  | [], _ => True
  | row :: rest, t =>
      ∀ candidate, applyUpdate host now row update false = .ok candidate →
        Admissible host t candidate (some (idKey host row)) ∧
          ((guardedSet host candidate (some (idKey host row)) t.store).2 = .ok () →
            RowsMeet now update rest
              { t with store := (guardedSet host candidate (some (idKey host row)) t.store).1 })

/-- The condition on an operation and the collection before it. An insert looks for its
id itself. -/
def Meets (t : Tracked) : Operation → Prop
  | .insertOne doc =>
      t.store.docs.get? (idKey host (withId host t.store.counter doc).2) = none →
        NothingHidden host t (withId host t.store.counter doc).2 none
  | .updateOne now filter update upsert | .findOneAndUpdate now filter update upsert =>
      FirstMeets host t now filter update upsert
  | .updateMany now filter update =>
      ∀ rows, query host t.store filter = .ok rows → RowsMeet host now update rows t
  | _ => True

end Conditions

section Rows

variable {host : Host}

theorem matchingIn_sublist {filter : Fields} {docs rows : List Fields}
    (found : matchingIn host filter docs = .ok rows) : rows.Sublist docs := by
  induction docs generalizing rows with
  | nil =>
      cases found
      exact List.Sublist.refl []
  | cons doc rest ih =>
      obtain ⟨holds, -, later⟩ := bind_ok_iff.mp found
      cases more : matchingIn host filter rest with
      | error e =>
          rw [more] at later
          exact nomatch later
      | ok kept =>
          rw [more] at later
          cases later
          split
          · exact (ih more).cons_cons doc
          · exact (ih more).cons doc

/-- What a query finds is stored under its own keys, each document once. -/
theorem query_stored {t : Tracked} (sound : Sound host t) {filter : Fields} {rows : List Fields}
    (found : query host t.store filter = .ok rows) :
    (∀ row ∈ rows, t.store.docs.get? (idKey host row) = some row) ∧
      (rows.map (idKey host)).Nodup := by
  have sublist := matchingIn_sublist found
  constructor
  · intro row mem
    obtain ⟨entry, listed, rfl⟩ := List.mem_map.mp (sublist.subset mem)
    have stored := OrderedMap.mem_entries.mp listed
    rw [sound.keyed entry.1 entry.2 stored]
    exact stored
  · have keys : (t.store.docs.entries.map Prod.snd).map (idKey host) =
        t.store.docs.entries.map Prod.fst := by
      rw [List.map_map]
      apply List.map_congr_left
      intro entry listed
      exact sound.keyed entry.1 entry.2 (OrderedMap.mem_entries.mp listed)
    have distinct := t.store.docs.distinct
    rw [← keys] at distinct
    exact distinct.sublist (sublist.map (idKey host))

end Rows

section Steps

variable {host : Host} {t : Tracked}

theorem Sound.counter (sound : Sound host t) (n : Nat) :
    Sound host { t with store := { t.store with counter := n } } := ⟨sound.keyed, sound.unique⟩

theorem Kept.refl (updates : Fields → Fields → Prop) (c : MemoryCollection) : Kept updates c c := by
  intro key doc stored
  exact ⟨doc, stored, .inl rfl⟩

theorem guardedSet_sound (sound : Sound host t) {candidate : Fields} {ignoreId : Option String}
    (clear : NothingHidden host t candidate ignoreId) :
    Sound host { t with store := (guardedSet host candidate ignoreId t.store).1 } := by
  cases @guardedSet_cases host candidate ignoreId t.store with
  | inl refused =>
      obtain ⟨e, same⟩ := refused
      rw [same]
      exact sound
  | inr accepted =>
      rw [accepted.2]
      exact sound.set accepted.1 clear

/-- Only the document that is replaced is another one afterwards. -/
theorem guardedSet_get? {candidate : Fields} {ignoreId : Option String}
    (fresh : FreshKey host t candidate ignoreId) {key : String} {doc : Fields}
    (stored : t.store.docs.get? key = some doc) :
    (guardedSet host candidate ignoreId t.store).1.docs.get? key = some doc ∨
      ignoreId = some key ∧
        (guardedSet host candidate ignoreId t.store).1.docs.get? key = some candidate := by
  cases @guardedSet_cases host candidate ignoreId t.store with
  | inl refused =>
      obtain ⟨e, same⟩ := refused
      rw [same]
      exact .inl stored
  | inr accepted =>
      rw [accepted.2]
      cases fresh with
      | inl replaced =>
          by_cases here : key = idKey host candidate
          · refine .inr ⟨by rw [replaced, here], ?_⟩
            rw [here]
            exact OrderedMap.get?_set_self _ _ _
          · exact .inl ((OrderedMap.get?_set_other _ here _).trans stored)
      | inr nobody => exact .inl (get?_set_of_fresh nobody stored)

theorem insertOne_sound (sound : Sound host t) {doc : Fields}
    (meets : Meets host t (.insertOne doc)) (updates : Fields → Fields → Prop) :
    Sound host { t with store := (insertOne host t.store doc).1 } ∧
      Kept updates t.store (insertOne host t.store doc).1 := by
  have counted := sound.counter (withId host t.store.counter doc).1
  rw [insertOne]
  dsimp only
  split
  · exact ⟨counted, Kept.refl updates t.store⟩
  · next absent =>
      have free : t.store.docs.get? (idKey host (withId host t.store.counter doc).2) = none :=
        OrderedMap.has_eq_false_iff.mp (by simpa using absent)
      refine ⟨guardedSet_sound counted (meets free), ?_⟩
      intro key old stored
      cases @guardedSet_get? host { t with store := { t.store with
        counter := (withId host t.store.counter doc).1 } } _ none (.inr free) key old stored with
      | inl same => exact ⟨old, same, .inl rfl⟩
      | inr replaced => exact absurd replaced.1 (by simp)

/-- What `updateFirst` leaves, by what it found. -/
theorem updateFirst_store (host : Host) (c : MemoryCollection) (now : Int)
    (filter update : Fields) (upsert : Bool) :
    (∃ n, (updateFirst host c now filter update upsert).1 = { c with counter := n }) ∨
    (query host c filter = .ok [] ∧ upsert = true ∧ ∃ n seed,
      applyUpdate host now (withId host c.counter (seedFromFilter filter)).2 update true =
        .ok seed ∧
      (updateFirst host c now filter update upsert).1 =
        (guardedSet host seed none { c with counter := n }).1) ∨
    ∃ row rest candidate, query host c filter = .ok (row :: rest) ∧
      applyUpdate host now row update false = .ok candidate ∧
      (updateFirst host c now filter update upsert).1 =
        (guardedSet host candidate (some (idKey host row)) c).1 := by
  rw [updateFirst]
  cases found : query host c filter with
  | error e => exact .inl ⟨c.counter, rfl⟩
  | ok rows =>
      cases rows with
      | nil =>
          cases upsert with
          | false => exact .inl ⟨c.counter, rfl⟩
          | true =>
              cases applied : applyUpdate host now
                  (withId host c.counter (seedFromFilter filter)).2 update true with
              | error e =>
                  refine .inl ⟨(withId host c.counter (seedFromFilter filter)).1, ?_⟩
                  simp only [applied, Bool.not_true, Bool.false_eq_true, if_false]
              | ok seed =>
                  refine .inr (.inl ⟨rfl, rfl, (withId host c.counter (seedFromFilter filter)).1,
                    seed, rfl, ?_⟩)
                  simp only [applied, Bool.not_true, Bool.false_eq_true, if_false]
      | cons row rest =>
          cases applied : applyUpdate host now row update false with
          | error e => exact .inl ⟨c.counter, by simp only [applied]⟩
          | ok candidate =>
              refine .inr (.inr ⟨row, rest, candidate, rfl, applied, ?_⟩)
              simp only [applied]

theorem updateFirst_sound (sound : Sound host t) {now : Int} {filter update : Fields}
    {upsert : Bool} (meets : FirstMeets host t now filter update upsert) :
    Sound host { t with store := (updateFirst host t.store now filter update upsert).1 } ∧
      Kept (fun doc doc' => applyUpdate host now doc update false = .ok doc') t.store
        (updateFirst host t.store now filter update upsert).1 := by
  obtain ⟨n, same⟩ | ⟨found, wanted, n, seed, applied, set⟩ |
    ⟨row, rest, candidate, found, applied, set⟩ :=
    updateFirst_store host t.store now filter update upsert
  · rw [same]
    exact ⟨sound.counter n, Kept.refl _ t.store⟩
  · rw [set]
    obtain ⟨fresh, clear⟩ := meets.1 found wanted seed applied
    refine ⟨guardedSet_sound (sound.counter n) clear, ?_⟩
    intro key doc stored
    have kept := guardedSet_get? (t := { t with store := { t.store with counter := n } })
      fresh stored
    cases kept with
    | inl same => exact ⟨doc, same, .inl rfl⟩
    | inr replaced => exact absurd replaced.1 (by simp)
  · rw [set]
    obtain ⟨fresh, clear⟩ := meets.2 row rest found candidate applied
    refine ⟨guardedSet_sound sound clear, ?_⟩
    intro key doc stored
    cases guardedSet_get? fresh stored with
    | inl same => exact ⟨doc, same, .inl rfl⟩
    | inr replaced =>
        have current := (query_stored sound found).1 row List.mem_cons_self
        rw [Option.some.inj replaced.1, stored] at current
        cases current
        exact ⟨candidate, replaced.2, .inr applied⟩

theorem updateRows_refused {now : Int} {update row candidate : Fields} {rest : List Fields}
    {c : MemoryCollection} {e : StoreError}
    (applied : applyUpdate host now row update false = .ok candidate)
    (refused : guardedSet host candidate (some (idKey host row)) c = (c, .error e)) :
    (updateRows host now update (row :: rest) c).1 = c := by
  rw [updateRows]
  simp only [applied, refused]

theorem updateRows_accepted {now : Int} {update row candidate : Fields} {rest : List Fields}
    {c c' : MemoryCollection} (applied : applyUpdate host now row update false = .ok candidate)
    (accepted : guardedSet host candidate (some (idKey host row)) c = (c', .ok ())) :
    (updateRows host now update (row :: rest) c).1 = (updateRows host now update rest c').1 := by
  rw [updateRows]
  simp only [applied, accepted]

/-- The loop over the rows, each of which is still stored when its turn comes: by the rows,
and each document is updated at most once. -/
theorem updateRows_sound {now : Int} {update : Fields} {rows : List Fields}
    (sound : Sound host t) (meets : RowsMeet host now update rows t)
    (current : ∀ row ∈ rows, t.store.docs.get? (idKey host row) = some row)
    (distinct : (rows.map (idKey host)).Nodup) :
    Sound host { t with store := (updateRows host now update rows t.store).1 } ∧
      ∀ key doc, t.store.docs.get? key = some doc →
        (updateRows host now update rows t.store).1.docs.get? key = some doc ∨
          key ∈ rows.map (idKey host) ∧
            ∃ doc', (updateRows host now update rows t.store).1.docs.get? key = some doc' ∧
              applyUpdate host now doc update false = .ok doc' := by
  induction rows generalizing t with
  | nil => exact ⟨sound, fun key doc stored => .inl stored⟩
  | cons row rest ih =>
      rw [List.map_cons, List.nodup_cons] at distinct
      cases applied : applyUpdate host now row update false with
      | error e =>
          have same : (updateRows host now update (row :: rest) t.store).1 = t.store := by
            rw [updateRows]
            simp only [applied]
          rw [same]
          exact ⟨sound, fun key doc stored => .inl stored⟩
      | ok candidate =>
          obtain ⟨⟨fresh, clear⟩, later⟩ := meets candidate applied
          cases @guardedSet_cases host candidate (some (idKey host row)) t.store with
          | inl refused =>
              obtain ⟨e, refused⟩ := refused
              rw [updateRows_refused applied refused]
              exact ⟨sound, fun key doc stored => .inl stored⟩
          | inr accepted =>
              have set := fun key doc stored =>
                @guardedSet_get? host t candidate _ fresh key doc stored
              have put := guardedSet_sound sound clear
              rw [accepted.2] at later set put
              rw [updateRows_accepted applied accepted.2]
              have others : ∀ other ∈ rest, (t.store.docs.set (idKey host candidate)
                  candidate).get? (idKey host other) = some other := by
                intro other mem
                cases set _ _ (current other (List.mem_cons_of_mem row mem)) with
                | inl same => exact same
                | inr replaced =>
                    have listed := List.mem_map_of_mem (f := idKey host) mem
                    rw [← Option.some.inj replaced.1] at listed
                    exact absurd listed distinct.1
              obtain ⟨sound', kept⟩ := ih put (later rfl) others distinct.2
              refine ⟨sound', ?_⟩
              intro key doc stored
              cases set key doc stored with
              | inl same =>
                  cases kept key doc same with
                  | inl still => exact .inl still
                  | inr updated =>
                      exact .inr ⟨List.mem_cons_of_mem _ updated.1, updated.2⟩
              | inr replaced =>
                  have here := Option.some.inj replaced.1
                  have old := current row List.mem_cons_self
                  rw [here, stored] at old
                  cases old
                  cases kept key candidate replaced.2 with
                  | inl still =>
                      refine .inr ⟨?_, candidate, still, applied⟩
                      rw [← here, List.map_cons]
                      exact List.mem_cons_self
                  | inr updated =>
                      rw [← here] at updated
                      exact absurd updated.1 distinct.1

theorem updateMany_sound (sound : Sound host t) {now : Int} {filter update : Fields}
    (meets : Meets host t (.updateMany now filter update)) :
    Sound host { t with store := (updateMany host t.store now filter update).1 } ∧
      Kept (fun doc doc' => applyUpdate host now doc update false = .ok doc') t.store
        (updateMany host t.store now filter update).1 := by
  rw [updateMany]
  cases found : query host t.store filter with
  | error e => exact ⟨sound, Kept.refl _ t.store⟩
  | ok rows =>
      obtain ⟨current, distinct⟩ := query_stored sound found
      obtain ⟨sound', kept⟩ := updateRows_sound sound (meets rows found) current distinct
      refine ⟨sound', ?_⟩
      intro key doc stored
      cases kept key doc stored with
      | inl same => exact ⟨doc, same, .inl rfl⟩
      | inr updated =>
          obtain ⟨-, doc', there, applied⟩ := updated
          exact ⟨doc', there, .inr applied⟩

/-- Fewer documents satisfy what more did. -/
theorem Sound.fewer (sound : Sound host t) {docs : OrderedMap String Fields}
    (fewer : ∀ key doc, docs.get? key = some doc → t.store.docs.get? key = some doc) :
    Sound host { t with store := { t.store with docs := docs } } where
  keyed := fun key doc stored => sound.keyed key doc (fewer key doc stored)
  unique := fun index mem founding unique key doc key' doc' stored stored' distinct =>
    sound.unique index mem founding unique key doc key' doc' (fewer key doc stored)
      (fewer key' doc' stored') distinct

theorem get?_of_eraseRows (rows : List Fields) (docs : OrderedMap String Fields) {key : String}
    {doc : Fields}
    (stored : (rows.foldl (fun docs row => docs.erase (idKey host row)) docs).get? key =
      some doc) : docs.get? key = some doc := by
  induction rows generalizing docs with
  | nil => exact stored
  | cons row rest ih =>
      have earlier := ih (docs.erase (idKey host row)) stored
      rw [OrderedMap.get?_erase] at earlier
      split at earlier
      · simp at earlier
      · exact earlier

theorem eraseRows_sound (sound : Sound host t) (rows : List Fields) :
    Sound host { t with store := eraseRows host t.store rows } :=
  sound.fewer (fun _ _ stored => get?_of_eraseRows rows t.store.docs stored)

theorem mem_setIndex {spec index : IndexSpec} {indexes : List IndexSpec}
    (mem : index ∈ setIndex spec indexes) : index = spec ∨ index ∈ indexes := by
  induction indexes with
  | nil => exact .inl (List.mem_singleton.mp mem)
  | cons first rest ih =>
      rw [setIndex] at mem
      split at mem
      · exact (List.mem_cons.mp mem).imp_right (List.mem_cons_of_mem first)
      · cases List.mem_cons.mp mem with
        | inl here =>
            rw [here]
            exact .inr List.mem_cons_self
        | inr there => exact (ih there).imp_right (List.mem_cons_of_mem first)

theorem mem_createIndexes {specs : List IndexSpec} {index : IndexSpec} {c : MemoryCollection}
    (mem : index ∈ (createIndexes c specs).indexes) : index ∈ specs ∨ index ∈ c.indexes := by
  rw [createIndexes] at mem
  dsimp only at mem
  generalize c.indexes = indexes at mem ⊢
  induction specs generalizing indexes with
  | nil => exact .inr mem
  | cons spec rest ih =>
      cases ih (setIndex spec indexes) mem with
      | inl later => exact .inl (List.mem_cons_of_mem spec later)
      | inr earlier =>
          cases mem_setIndex earlier with
          | inl here =>
              rw [here]
              exact .inl List.mem_cons_self
          | inr old => exact .inr old

theorem get?_of_isEmpty {docs : OrderedMap String Fields} (none_stored : docs.entries.isEmpty)
    (key : String) : docs.get? key = none := by
  rw [OrderedMap.get?, List.isEmpty_iff.mp none_stored]
  rfl

theorem createIndexes_sound (sound : Sound host t) (specs : List IndexSpec) :
    Sound host ⟨createIndexes t.store specs, foundingAfter t (.createIndexes specs)⟩ := by
  refine ⟨sound.keyed, ?_⟩
  intro index mem founding unique key doc key' doc' stored stored' distinct
  rw [foundingAfter] at founding
  dsimp only at founding
  split at founding
  · next none_stored =>
      have absent := get?_of_isEmpty none_stored key
      exact absurd (absent.symm.trans stored) (by simp)
  · obtain ⟨before, other⟩ := List.mem_filter.mp founding
    have old : index ∈ t.store.indexes := by
      cases mem_createIndexes mem with
      | inl again =>
          have named := List.mem_map_of_mem (f := IndexSpec.name) again
          simp only [Bool.not_eq_true', List.contains_eq_mem, decide_eq_false_iff_not] at other
          exact absurd named other
      | inr old => exact old
    exact sound.unique index old before unique key doc key' doc' stored stored' distinct

/-- The step: an operation that meets the condition keeps the collection sound, and its
documents if it is no delete. -/
theorem perform_sound (sound : Sound host t) {op : Operation} (meets : Meets host t op) :
    Sound host (t.perform host op).1 ∧
      (op.deletes = false → Kept (op.Updates host) t.store (t.perform host op).1.store) := by
  cases op with
  | insertOne doc =>
      have step := insertOne_sound sound meets ((Operation.insertOne doc).Updates host)
      exact ⟨step.1, fun _ => step.2⟩
  | updateOne now filter update upsert =>
      have step := updateFirst_sound sound meets
      exact ⟨step.1, fun _ => step.2⟩
  | updateMany now filter update =>
      have step := updateMany_sound sound meets
      exact ⟨step.1, fun _ => step.2⟩
  | findOneAndUpdate now filter update upsert =>
      have step := updateFirst_sound sound meets
      exact ⟨step.1, fun _ => step.2⟩
  | deleteOne filter =>
      refine ⟨?_, fun h => absurd h (by simp [Operation.deletes])⟩
      rw [Tracked.perform, Memory.perform, deleteOne]
      cases query host t.store filter with
      | error e => exact sound
      | ok rows => exact eraseRows_sound sound (rows.take 1)
  | deleteMany filter =>
      refine ⟨?_, fun h => absurd h (by simp [Operation.deletes])⟩
      rw [Tracked.perform, Memory.perform, deleteMany]
      cases query host t.store filter with
      | error e => exact sound
      | ok rows => exact eraseRows_sound sound rows
  | createIndexes specs =>
      exact ⟨createIndexes_sound sound specs, fun _ => Kept.refl _ t.store⟩
  | drop =>
      refine ⟨⟨?_, ?_⟩, fun h => absurd h (by simp [Operation.deletes])⟩
      · intro key doc stored
        exact absurd stored (by simp [Tracked.perform, Memory.perform, Memory.drop])
      · intro index mem
        exact absurd mem (by simp [Tracked.perform, Memory.perform, Memory.drop])

theorem initial_sound (host : Host) : Sound host .initial where
  keyed := by
    intro key doc stored
    exact absurd stored (by simp [Tracked.initial, MemoryCollection.initial])
  unique := by
    intro index mem
    exact absurd mem (by simp [Tracked.initial, MemoryCollection.initial])

end Steps

section Writes

variable (host : Host)

/-- The operations that are carried out: all of them, or those up to the first that throws. -/
def executed (ordered : Bool) : List Operation → MemoryCollection → List Operation
  | [], _ => []
  | op :: rest, c =>
      op :: match perform host c op with
        | (c, .error _) => if ordered then [] else executed ordered rest c
        | (c, .ok _) => executed ordered rest c

/-- The operations that a call consists of. -/
def operationsOf (c : MemoryCollection) : Write → List Operation
  | .one op => [op]
  | .insertMany docs ordered => executed host ordered (docs.map .insertOne) c
  | .bulkWrite ops ordered => executed host ordered (ops.map BulkWriteOp.operation) c

def allOperations : MemoryCollection → List Write → List Operation
  | _, [] => []
  | c, w :: ws => operationsOf host c w ++ allOperations (write host c w).1 ws

theorem run_executed (ordered : Bool) (ops : List Operation) (c : MemoryCollection) :
    Machine.run (perform host) c (executed host ordered ops c) =
      (performEach host ordered ops c).1 := by
  induction ops generalizing c with
  | nil => rfl
  | cons op rest ih =>
      rw [executed, Machine.run_cons, performEach]
      cases step : perform host c op with
      | mk c' outcome =>
          cases outcome with
          | error e =>
              cases ordered with
              | true => rfl
              | false => exact ih c'
          | ok reply => exact ih c'

/-- A call is the run of its operations. -/
theorem run_operationsOf (c : MemoryCollection) (w : Write) :
    Machine.run (perform host) c (operationsOf host c w) = (write host c w).1 := by
  cases w with
  | one op => rfl
  | insertMany docs ordered => exact run_executed host ordered _ c
  | bulkWrite ops ordered => exact run_executed host ordered _ c

theorem run_allOperations (c : MemoryCollection) (writes : List Write) :
    Machine.run (perform host) c (allOperations host c writes) =
      Machine.run (write host) c writes := by
  induction writes generalizing c with
  | nil => rfl
  | cons w ws ih =>
      rw [allOperations, Machine.run_append, run_operationsOf, ih, Machine.run_cons]

theorem run_tracked (t : Tracked) (ops : List Operation) :
    (Machine.run (Tracked.perform host) t ops).store = Machine.run (perform host) t.store ops := by
  induction ops generalizing t with
  | nil => rfl
  | cons op rest ih => exact ih (t.perform host op).1

theorem allOperations_append (c : MemoryCollection) (earlier later : List Write) :
    allOperations host c (earlier ++ later) =
      allOperations host c earlier ++
        allOperations host (Machine.run (write host) c earlier) later := by
  induction earlier generalizing c with
  | nil => rfl
  | cons w ws ih =>
      rw [List.cons_append, allOperations, allOperations, ih, List.append_assoc]
      rfl

/-- The collection after some calls, with its founding indexes. -/
def after (writes : List Write) : Tracked :=
  Machine.run (Tracked.perform host) .initial (allOperations host .initial writes)

theorem after_store (writes : List Write) :
    (after host writes).store = Machine.run (write host) .initial writes := by
  rw [after, run_tracked, ← run_allOperations]
  rfl

/-- The operations of some calls, with the collection around each. -/
def steps (writes : List Write) :
    List (Machine.Event Tracked Operation (Except StoreError Reply)) :=
  Machine.trace (Tracked.perform host) .initial (allOperations host .initial writes)

theorem steps_append (earlier later : List Write) :
    ∃ more, steps host (earlier ++ later) = steps host earlier ++ more := by
  rw [steps, allOperations_append, Machine.trace_append]
  exact ⟨_, rfl⟩

end Writes

section Runs

variable {host : Host}

theorem trace_sound {t : Tracked} (sound : Sound host t) {ops : List Operation}
    (meets : ∀ e ∈ Machine.trace (Tracked.perform host) t ops, Meets host e.before e.action) :
    ∀ e ∈ Machine.trace (Tracked.perform host) t ops, e.action.deletes = false →
      Kept (e.action.Updates host) e.before.store e.after.store := by
  induction ops generalizing t with
  | nil => simp [Machine.trace]
  | cons op rest ih =>
      rw [Machine.trace, List.forall_mem_cons] at meets ⊢
      have step := perform_sound sound meets.1
      exact ⟨step.2, ih step.1 meets.2⟩

theorem after_sound {writes : List Write}
    (meets : ∀ e ∈ steps host writes, Meets host e.before e.action) :
    Sound host (after host writes) := by
  rw [after]
  apply Machine.run_invariant_where
  · intro t op meets sound
    exact (perform_sound sound meets).1
  · exact initial_sound host
  · exact meets

end Runs

def insertedWrites : List Write :=
  [.one (.createIndexes [⟨"name_unique", ["name"], true, false, none⟩]),
    .one (.insertOne [("_id", .str "x"), ("name", .str "a")])]

theorem insertedWrites_meet : ∀ e ∈ steps plainHost insertedWrites,
    Meets plainHost e.before e.action := by
  refine List.forall_mem_cons.mpr ⟨trivial, List.forall_mem_cons.mpr ⟨?_, List.forall_mem_nil _⟩⟩
  intro _ index _ _ _ key doc stored
  exact absurd stored (by simp [createIndexes, MemoryCollection.initial, Tracked.perform, perform,
    Tracked.initial])

section Replaced

/-- An upsert whose filter names a stored id but does not match the document. -/
def replacing : Operation :=
  .updateOne 0 [("_id", .str "x"), ("other", .bool true)] [("$set", .obj [("a", .bool true)])] true

def replacingWrites : List Write :=
  [.one (.insertOne [("_id", .str "x"), ("note", .str "kept")]), .one replacing]

def noteOf (doc : Fields) : String := (Fields.field doc "note").toText plainHost

/-- The collection before the upsert and after it. -/
def beforeReplacing : MemoryCollection :=
  (perform plainHost .initial (.insertOne [("_id", .str "x"), ("note", .str "kept")])).1

def afterReplacing : MemoryCollection := (perform plainHost beforeReplacing replacing).1

theorem note_before : (beforeReplacing.docs.get? "x").map noteOf = some "kept" := by
  decide +kernel

theorem note_after : (afterReplacing.docs.get? "x").map noteOf = some "undefined" := by
  decide +kernel

theorem note_updated : ((beforeReplacing.docs.get? "x").bind fun doc =>
    (applyUpdate plainHost 0 doc [("$set", .obj [("a", .bool true)])] false).toOption).map noteOf =
      some "kept" := by
  decide +kernel

end Replaced

end Gateway.Memory
