import Gateway.Db.MemoryStore
import Gateway.Lib.Machine

/-!
What the guard of the unique indexes establishes, and what it cannot see.

The guard compares each stored document with the new one, in this order only, and
passes over the document that is being replaced. A new document that it accepts is
put under its own id, so the indexes stay satisfied if that id is not another
document's and no conflict is hidden from the guard.
-/

namespace Gateway.Memory

section Guard

variable {host : Host}

/-- The document has an entry in the index. -/
def Indexed (host : Host) (index : IndexSpec) (doc : Fields) : Prop :=
  covers host index doc = .ok true ∧ leftOut index doc = false

/-- Two documents have equal values in an index, as the first is compared with the second. -/
def Conflict (host : Host) (index : IndexSpec) (first second : Fields) : Prop :=
  Indexed host index first ∧ Indexed host index second ∧ sameValues index first second = true

theorem bind_ok_iff {ε α β : Type} {x : Except ε α} {f : α → Except ε β} {b : β} :
    x.bind f = .ok b ↔ ∃ a, x = .ok a ∧ f a = .ok b := by
  cases x with
  | error e => simp [Except.bind]
  | ok a => simp [Except.bind]

theorem guardAgainst_ok {index : IndexSpec} {candidate : Fields} {ignoreId : Option String}
    {entries : List (String × Fields)}
    (passed : guardAgainst host index candidate ignoreId entries = .ok ()) :
    ∀ entry ∈ entries, ignoreId ≠ some entry.1 → covers host index entry.2 = .ok true →
      sameValues index entry.2 candidate = false := by
  induction entries with
  | nil => simp
  | cons entry rest ih =>
      rw [guardAgainst] at passed
      split at passed
      · next ignored =>
          refine List.forall_mem_cons.mpr ⟨?_, ih passed⟩
          intro counted
          exact absurd ignored counted
      · obtain ⟨covered, reads, later⟩ := bind_ok_iff.mp passed
        split at later
        · exact nomatch later
        · next clear =>
            refine List.forall_mem_cons.mpr ⟨?_, ih later⟩
            intro _ is_covered
            rw [is_covered] at reads
            cases reads
            simpa using clear

theorem guardIndex_ok {docs : OrderedMap String Fields} {candidate : Fields}
    {ignoreId : Option String} {index : IndexSpec} (unique : index.unique = true)
    (passed : guardIndex host docs candidate ignoreId index = .ok ()) :
    ∀ key doc, docs.get? key = some doc → ignoreId ≠ some key →
      ¬Conflict host index doc candidate := by
  intro key doc stored counted conflict
  obtain ⟨first, second, same⟩ := conflict
  rw [guardIndex, unique, second.2] at passed
  obtain ⟨covered, reads, later⟩ := bind_ok_iff.mp passed
  rw [second.1] at reads
  cases reads
  have clear := guardAgainst_ok later (key, doc) (OrderedMap.mem_entries.mpr stored) counted first.1
  rw [same] at clear
  exact absurd clear (by simp)

theorem guardAll_ok {docs : OrderedMap String Fields} {candidate : Fields}
    {ignoreId : Option String} {indexes : List IndexSpec}
    (passed : guardAll host docs candidate ignoreId indexes = .ok ()) :
    ∀ index ∈ indexes, guardIndex host docs candidate ignoreId index = .ok () := by
  induction indexes with
  | nil => simp
  | cons index rest ih =>
      obtain ⟨_, first, later⟩ := bind_ok_iff.mp passed
      exact List.forall_mem_cons.mpr ⟨first, ih later⟩

/-- What an accepted candidate conflicts with, as the guard looks at it. -/
theorem uniqueGuard_ok {c : MemoryCollection} {candidate : Fields} {ignoreId : Option String}
    (passed : uniqueGuard host c candidate ignoreId = .ok ()) {index : IndexSpec}
    (mem : index ∈ c.indexes) (unique : index.unique = true) {key : String} {doc : Fields}
    (stored : c.docs.get? key = some doc) (counted : ignoreId ≠ some key) :
    ¬Conflict host index doc candidate :=
  guardIndex_ok unique (guardAll_ok passed index mem) key doc stored counted

/-- A guarded write throws and leaves the collection alone, or puts the candidate. -/
theorem guardedSet_cases (candidate : Fields) (ignoreId : Option String) (c : MemoryCollection) :
    (∃ e, guardedSet host candidate ignoreId c = (c, .error e)) ∨
      (uniqueGuard host c candidate ignoreId = .ok () ∧
        guardedSet host candidate ignoreId c =
          ({ c with docs := c.docs.set (idKey host candidate) candidate }, .ok ())) := by
  rw [guardedSet]
  cases outcome : uniqueGuard host c candidate ignoreId with
  | error e => exact .inl ⟨e, rfl⟩
  | ok _ => exact .inr ⟨rfl, rfl⟩

end Guard

/-- A collection with the names of the indexes that were created while it was empty and
have not been created again since. -/
structure Tracked where
  store : MemoryCollection
  founding : List String

def Tracked.initial : Tracked := ⟨.initial, []⟩

/-- The founding indexes after an operation on a collection. -/
def foundingAfter (t : Tracked) : Operation → List String
  | .createIndexes specs =>
      let names := specs.map IndexSpec.name
      if t.store.docs.entries.isEmpty then t.founding ++ names
      else t.founding.filter fun name => !names.contains name
  | .drop => []
  | _ => t.founding

def Tracked.perform (host : Host) (t : Tracked) (op : Operation) :
    Tracked × Except StoreError Reply :=
  (⟨(Memory.perform host t.store op).1, foundingAfter t op⟩, (Memory.perform host t.store op).2)

/-- The documents stand under their ids, and no two of them conflict in a founding index. -/
structure Sound (host : Host) (t : Tracked) : Prop where
  keyed : ∀ key doc, t.store.docs.get? key = some doc → idKey host doc = key
  unique : ∀ index ∈ t.store.indexes, index.name ∈ t.founding → index.unique = true →
    ∀ key doc key' doc', t.store.docs.get? key = some doc → t.store.docs.get? key' = some doc' →
      key ≠ key' → ¬Conflict host index doc doc'

/-- The id of the new document is that of the one it replaces, or nobody's. -/
def FreshKey (host : Host) (t : Tracked) (candidate : Fields) (ignoreId : Option String) : Prop :=
  ignoreId = some (idKey host candidate) ∨ t.store.docs.get? (idKey host candidate) = none

/-- Every document that stays beside the new one and conflicts with it in a founding index,
from either side, is one that the guard counts and finds. -/
def NothingHidden (host : Host) (t : Tracked) (candidate : Fields) (ignoreId : Option String) :
    Prop :=
  ∀ index ∈ t.store.indexes, index.name ∈ t.founding → index.unique = true →
    ∀ key doc, t.store.docs.get? key = some doc → key ≠ idKey host candidate →
      Conflict host index doc candidate ∨ Conflict host index candidate doc →
        ignoreId ≠ some key ∧ Conflict host index doc candidate

section Put

variable {host : Host} {t : Tracked} {candidate : Fields} {ignoreId : Option String}

/-- Putting a document that the guard accepted keeps the collection sound, by the keys of
the two documents that are compared. -/
theorem Sound.set (sound : Sound host t)
    (passed : uniqueGuard host t.store candidate ignoreId = .ok ())
    (clear : NothingHidden host t candidate ignoreId) :
    Sound host { t with store :=
      { t.store with docs := t.store.docs.set (idKey host candidate) candidate } } := by
  have apart : ∀ index ∈ t.store.indexes, index.name ∈ t.founding → index.unique = true →
      ∀ key doc, t.store.docs.get? key = some doc → key ≠ idKey host candidate →
        ¬(Conflict host index doc candidate ∨ Conflict host index candidate doc) := by
    intro index mem founding unique key doc stored other conflict
    have seen := clear index mem founding unique key doc stored other conflict
    exact uniqueGuard_ok passed mem unique stored seen.1 seen.2
  constructor
  · intro key doc stored
    rw [OrderedMap.get?_set] at stored
    split at stored
    · next same =>
        cases stored
        exact same.symm
    · exact sound.keyed key doc stored
  · intro index mem founding unique key doc key' doc' stored stored' distinct
    rw [OrderedMap.get?_set] at stored stored'
    split at stored
    · next here =>
        cases stored
        rw [if_neg (fun there => distinct (here.trans there.symm))] at stored'
        intro conflict
        refine apart index mem founding unique key' doc' stored' ?_ (.inr conflict)
        intro there
        exact distinct (here.trans there.symm)
    · next other =>
        split at stored'
        · cases stored'
          intro conflict
          exact apart index mem founding unique key doc stored other (.inl conflict)
        · exact sound.unique index mem founding unique key doc key' doc' stored stored' distinct

/-- A document put under an id that is nobody's leaves the others as they are. -/
theorem get?_set_of_fresh (fresh : t.store.docs.get? (idKey host candidate) = none)
    {key : String} {doc : Fields} (stored : t.store.docs.get? key = some doc) :
    (t.store.docs.set (idKey host candidate) candidate).get? key = some doc := by
  have other : key ≠ idKey host candidate := by
    intro same
    rw [same, fresh] at stored
    simp at stored
  rw [OrderedMap.get?_set_other _ other, stored]

end Put

end Gateway.Memory
