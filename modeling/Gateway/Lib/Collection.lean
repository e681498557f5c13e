import Mathlib.Data.List.Nodup
import Mathlib.Algebra.BigOperators.Group.List.Basic
import Mathlib.Algebra.Group.Basic

/-!
Collections of documents under a unique, immutable key.

The key is part of the document, as in a document store; uniqueness is a field
of the collection, so no operation can build a collection that breaks it. An
update carries the proof that it leaves the key alone. The lemmas say what a
lookup and a sum over all documents become under each operation.
-/

universe u v

/-- A type of stored documents, with the field the store indexes them by. -/
class Document (α : Type u) (κ : outParam (Type v)) where
  key : α → κ

/-- A change of a document that cannot move it to another key. -/
structure Update (α : Type u) {κ : Type v} [Document α κ] where
  apply : α → α
  key_apply : ∀ d, Document.key (apply d) = Document.key d

structure Collection (α : Type u) {κ : Type v} [Document α κ] where
  docs : List α
  distinct : (docs.map Document.key).Nodup

namespace Collection

variable {α : Type u} {κ : Type v} [Document α κ] [DecidableEq κ]

def empty : Collection α := ⟨[], List.nodup_nil⟩

def find (c : Collection α) (k : κ) : Option α :=
  c.docs.find? (fun d => decide (Document.key d = k))

/-- The first document a filter matches, in insertion order. -/
def findWhere (c : Collection α) (p : α → Bool) : Option α := c.docs.find? p

theorem mem_of_find {c : Collection α} {k : κ} {d : α} (h : c.find k = some d) :
    d ∈ c.docs ∧ Document.key d = k :=
  ⟨List.mem_of_find?_eq_some h, by simpa using List.find?_some h⟩

theorem find_of_mem {c : Collection α} {d : α} (h : d ∈ c.docs) :
    c.find (Document.key d) = some d := by
  obtain ⟨docs, distinct⟩ := c
  simp only [find] at h ⊢
  induction docs with
  | nil => simp at h
  | cons x xs ih =>
      rw [List.map_cons, List.nodup_cons] at distinct
      rcases List.mem_cons.mp h with rfl | h
      · simp
      · have other : Document.key x ≠ Document.key d := by
          intro same
          exact distinct.1 (same ▸ List.mem_map_of_mem h)
        simpa [other] using ih distinct.2 h

theorem find_eq_none_iff {c : Collection α} {k : κ} :
    c.find k = none ↔ ∀ d ∈ c.docs, Document.key d ≠ k := by
  simp [find]

theorem key_of_find {c : Collection α} {k : κ} {d : α} (h : c.find k = some d) :
    Document.key d = k := (mem_of_find h).2

/-- Apply an update to the document under a key, if there is one. -/
def modify (c : Collection α) (k : κ) (u : Update α) : Collection α where
  docs := c.docs.map (fun d => if Document.key d = k then u.apply d else d)
  distinct := by
    have keys : (c.docs.map fun d => if Document.key d = k then u.apply d else d).map
        Document.key = c.docs.map Document.key := by
      rw [List.map_map]
      apply List.map_congr_left
      intro d _
      by_cases h : Document.key d = k <;> simp [h, u.key_apply]
    rw [keys]
    exact c.distinct

theorem find_modify (c : Collection α) (k j : κ) (u : Update α) :
    (c.modify k u).find j = if j = k then (c.find k).map u.apply else c.find j := by
  obtain ⟨docs, distinct⟩ := c
  simp only [find, modify]
  induction docs with
  | nil => simp
  | cons x xs ih =>
      rw [List.map_cons, List.nodup_cons] at distinct
      have ih := ih distinct.2
      by_cases hx : Document.key x = k
      · by_cases hj : j = k
        · simp [hx, hj, u.key_apply]
        · have hxj : Document.key x ≠ j := fun h => hj (h.symm.trans hx)
          simp only [hj, if_false] at ih ⊢
          simp [hx, u.key_apply, Ne.symm hj, ih]
      · by_cases hxj : Document.key x = j
        · have hj : j ≠ k := fun h => hx (hxj.trans h)
          simp [hxj, hj]
        · by_cases hj : j = k
          · simp only [hj, if_true] at ih ⊢
            simp [hx, ih]
          · simp only [hj, if_false] at ih ⊢
            simp [hx, hxj, ih]

theorem find_modify_some {c : Collection α} {j : κ} {d : α} (found : c.find j = some d) (k : κ)
    (u : Update α) : (c.modify k u).find j = some (if j = k then u.apply d else d) := by
  rw [find_modify]
  split
  · next same =>
      subst same
      rw [found, Option.map_some]
  · exact found

/-- Where a document found after an update comes from. -/
theorem find_modify_inv {c : Collection α} {k j : κ} {u : Update α} {d' : α}
    (found : (c.modify k u).find j = some d') :
    ∃ d, c.find j = some d ∧ d' = if j = k then u.apply d else d := by
  rw [find_modify] at found
  split at found
  · next same =>
      subst same
      obtain ⟨d, stored, rfl⟩ := Option.map_eq_some_iff.mp found
      exact ⟨d, stored, (if_pos rfl).symm⟩
  · next other => exact ⟨d', found, (if_neg other).symm⟩

/-- Insertion under a fresh key. -/
def insertFresh (c : Collection α) (d : α) (fresh : c.find (Document.key d) = none) :
    Collection α where
  docs := c.docs ++ [d]
  distinct := by
    rw [List.map_append, List.nodup_append]
    refine ⟨c.distinct, by simp, ?_⟩
    intro k hk k' hk'
    obtain ⟨x, hx, rfl⟩ := List.mem_map.mp hk
    simp only [List.map_cons, List.map_nil, List.mem_singleton] at hk'
    subst hk'
    exact find_eq_none_iff.mp fresh x hx

/-- Insertion that fails on a key already taken. -/
def insertOne (c : Collection α) (d : α) : Option (Collection α) :=
  if fresh : c.find (Document.key d) = none then some (c.insertFresh d fresh) else none

theorem find_insertFresh (c : Collection α) (d : α)
    (fresh : c.find (Document.key d) = none) (j : κ) :
    (c.insertFresh d fresh).find j = if j = Document.key d then some d else c.find j := by
  by_cases hj : j = Document.key d
  · subst hj
    simp only [if_true]
    apply find_of_mem
    simp [insertFresh]
  · have hdj : Document.key d ≠ j := fun h => hj h.symm
    simp [find, insertFresh, List.find?_append, hj, hdj]

theorem insertOne_eq_some {c c' : Collection α} {d : α} (h : c.insertOne d = some c') :
    ∃ fresh : c.find (Document.key d) = none, c' = c.insertFresh d fresh := by
  simp only [insertOne] at h
  split at h
  · next fresh => exact ⟨fresh, (Option.some.inj h).symm⟩
  · contradiction

/-- Unordered insertion of many documents: one whose key is taken is dropped. -/
def insertMany (c : Collection α) (ds : List α) : Collection α :=
  ds.foldl (fun c d => (c.insertOne d).getD c) c

/-- Ordered insertion, which stops at the first document that is refused; what was inserted
before it stays. -/
def insertInOrder (refuses : Collection α → α → Bool) (c : Collection α) :
    List α → Bool × Collection α
  | [] => (true, c)
  | d :: ds =>
      if refuses c d then (false, c)
      else
        match c.insertOne d with
        | none => (false, c)
        | some c => insertInOrder refuses c ds

/-- When nothing was refused, all of them were added at the end. -/
theorem docs_insertInOrder {refuses : Collection α → α → Bool} {c c' : Collection α} {ds : List α}
    (done : c.insertInOrder refuses ds = (true, c')) : c'.docs = c.docs ++ ds := by
  induction ds generalizing c with
  | nil =>
      cases done
      rw [List.append_nil]
  | cons d ds ih =>
      rw [insertInOrder] at done
      split at done
      · cases done
      · split at done
        · cases done
        · next next inserted =>
            obtain ⟨fresh, rfl⟩ := insertOne_eq_some inserted
            rw [ih done, insertFresh, List.append_assoc, List.singleton_append]

/-- A lookup after an insertion that may be dropped: a taken key keeps its document. -/
theorem find_insertOne_getD (c : Collection α) (d : α) (k : κ) :
    ((c.insertOne d).getD c).find k =
      (c.find k).or (if Document.key d = k then some d else none) := by
  rw [insertOne]
  split
  · next fresh =>
      rw [Option.getD_some, find_insertFresh]
      by_cases same : k = Document.key d
      · subst same
        simp [fresh]
      · simp [same, Ne.symm same]
  · next taken =>
      rw [Option.getD_none]
      by_cases same : Document.key d = k
      · subst same
        obtain ⟨e, found⟩ := Option.ne_none_iff_exists'.mp taken
        rw [found, Option.some_or]
      · simp [same]

/-- Of the documents under one key the first one inserted stays. -/
theorem find_insertMany (c : Collection α) (ds : List α) (k : κ) :
    (c.insertMany ds).find k =
      (c.find k).or (ds.find? (fun d => decide (Document.key d = k))) := by
  induction ds generalizing c with
  | nil => simp [insertMany]
  | cons d ds ih =>
      have step := ih ((c.insertOne d).getD c)
      rw [find_insertOne_getD, Option.or_assoc] at step
      refine step.trans ?_
      by_cases same : Document.key d = k <;> simp [same]

@[simp]
theorem find_empty (k : κ) : (empty : Collection α).find k = none := rfl

/-- Update of the document under the key of `d`, which is inserted as it stands
when there is none. -/
def upsert (c : Collection α) (d : α) (u : Update α) : Collection α :=
  if fresh : c.find (Document.key d) = none then c.insertFresh d fresh
  else c.modify (Document.key d) u

theorem find_upsert (c : Collection α) (d : α) (u : Update α) (j : κ) :
    (c.upsert d u).find j =
      if j = Document.key d then
        some (match c.find (Document.key d) with
          | some e => u.apply e
          | none => d)
      else c.find j := by
  rw [upsert]
  split
  · next fresh => rw [find_insertFresh, fresh]
  · next taken =>
      obtain ⟨e, found⟩ := Option.ne_none_iff_exists'.mp taken
      rw [find_modify, found, Option.map_some]

/-- The document under a key, if it also matches the rest of the filter. -/
def findOne (c : Collection α) (k : κ) (guard : α → Bool) : Option α :=
  (c.find k).filter guard

theorem findOne_eq_some_iff {c : Collection α} {k : κ} {guard : α → Bool} {d : α} :
    c.findOne k guard = some d ↔ c.find k = some d ∧ guard d = true := by
  simp [findOne, Option.filter_eq_some_iff]

/-- Guarded update of the document under a key; answers the document after it,
or nothing when the guard does not match. -/
def findOneAndUpdate (c : Collection α) (k : κ) (guard : α → Bool) (u : Update α) :
    Option (α × Collection α) :=
  match c.find k with
  | some d => if guard d then some (u.apply d, c.modify k u) else none
  | none => none

theorem findOneAndUpdate_eq_some {c c' : Collection α} {k : κ} {guard : α → Bool}
    {u : Update α} {d' : α} (h : c.findOneAndUpdate k guard u = some (d', c')) :
    ∃ d, c.find k = some d ∧ guard d = true ∧ d' = u.apply d ∧ c' = c.modify k u := by
  simp only [findOneAndUpdate] at h
  split at h
  · next d found =>
      split at h
      · next matched =>
          cases h
          exact ⟨d, found, matched, rfl, rfl⟩
      · contradiction
  · contradiction

theorem findOneAndUpdate_of_match {c : Collection α} {k : κ} {d : α} (guard : α → Bool)
    (u : Update α) (found : c.find k = some d) (matched : guard d = true) :
    c.findOneAndUpdate k guard u = some (u.apply d, c.modify k u) := by
  simp only [findOneAndUpdate, found, matched, if_true]

/-- Guarded update that does nothing when the guard does not match. -/
def updateOne (c : Collection α) (k : κ) (guard : α → Bool) (u : Update α) : Collection α :=
  match c.find k with
  | some d => if guard d then c.modify k u else c
  | none => c

theorem updateOne_of_match {c : Collection α} {k : κ} {d : α} (guard : α → Bool) (u : Update α)
    (found : c.find k = some d) (matched : guard d = true) :
    c.updateOne k guard u = c.modify k u := by
  simp [updateOne, found, matched]

theorem find_updateOne_inv {c : Collection α} {k j : κ} {guard : α → Bool} {u : Update α} {d' : α}
    (found : (c.updateOne k guard u).find j = some d') :
    ∃ d, c.find j = some d ∧ d' = if j = k ∧ guard d = true then u.apply d else d := by
  rw [updateOne] at found
  split at found
  · next e stored =>
      split at found
      · next matched =>
          obtain ⟨d, hd, rfl⟩ := find_modify_inv found
          refine ⟨d, hd, ?_⟩
          by_cases same : j = k
          · subst same
            cases stored.symm.trans hd
            simp [matched]
          · simp [same]
      · next unmatched =>
          refine ⟨d', found, ?_⟩
          by_cases same : j = k
          · subst same
            cases stored.symm.trans found
            simp [unmatched]
          · simp [same]
  · next absent =>
      refine ⟨d', found, ?_⟩
      have other : j ≠ k := by
        rintro rfl
        exact nomatch absent.symm.trans found
      simp [other]

def deleteOne (c : Collection α) (k : κ) : Collection α where
  docs := c.docs.filter (fun d => decide (Document.key d ≠ k))
  distinct := c.distinct.sublist ((List.filter_sublist (l := c.docs)).map Document.key)

theorem find_deleteOne (c : Collection α) (k j : κ) :
    (c.deleteOne k).find j = if j = k then none else c.find j := by
  simp only [find, deleteOne, List.find?_filter]
  by_cases hj : j = k
  · subst hj
    simp
  · simp only [hj, if_false]
    congr 1
    funext d
    by_cases hd : Document.key d = j
    · simp [hd, hj]
    · simp [hd]

/-- The documents seen through a map that keeps their keys. -/
def mapDocs {β : Type*} [Document β κ] (c : Collection α) (f : α → β)
    (keeps : ∀ d, Document.key (f d) = Document.key d) : Collection β where
  docs := c.docs.map f
  distinct := by
    have keys : (c.docs.map f).map Document.key = c.docs.map Document.key := by
      rw [List.map_map]
      exact List.map_congr_left fun d _ => keeps d
    rw [keys]
    exact c.distinct

theorem find_mapDocs {β : Type*} [Document β κ] (c : Collection α) (f : α → β)
    (keeps : ∀ d, Document.key (f d) = Document.key d) (k : κ) :
    (c.mapDocs f keeps).find k = (c.find k).map f := by
  obtain ⟨docs, distinct⟩ := c
  simp only [find, mapDocs, List.find?_map]
  congr 2
  funext d
  simp only [Function.comp_apply, keeps]

section Parts

/-- The documents with a property that neither the changed document has nor what it becomes. -/
theorem filter_modify {c : Collection α} {k : κ} {u : Update α} {p : α → Bool}
    (apart : ∀ d, c.find k = some d → p d = false ∧ p (u.apply d) = false) :
    (c.modify k u).docs.filter p = c.docs.filter p := by
  have same : ∀ d ∈ c.docs,
      (p ∘ fun d => if Document.key d = k then u.apply d else d) d = p d := by
    intro d mem
    rw [Function.comp_apply]
    split
    · next key =>
        obtain ⟨before, after⟩ := apart d (key ▸ find_of_mem mem)
        rw [before, after]
    · rfl
  have untouched : ∀ d ∈ c.docs.filter p, (if Document.key d = k then u.apply d else d) = d := by
    intro d mem
    obtain ⟨stored, holds⟩ := List.mem_filter.mp mem
    rw [if_neg]
    intro key
    have absent := (apart d (key ▸ find_of_mem stored)).1
    rw [holds] at absent
    cases absent
  rw [modify, List.filter_map, List.filter_congr same]
  exact (List.map_congr_left untouched).trans (List.map_id _)

theorem filter_deleteOne {c : Collection α} {k : κ} {p : α → Bool}
    (apart : ∀ d, c.find k = some d → p d = false) :
    (c.deleteOne k).docs.filter p = c.docs.filter p := by
  rw [deleteOne, List.filter_filter]
  apply List.filter_congr
  intro d mem
  by_cases key : Document.key d = k
  · rw [apart d (key ▸ find_of_mem mem), Bool.false_and]
  · simp [key]

theorem filter_insertFresh {c : Collection α} {d : α}
    (fresh : c.find (Document.key d) = none) {p : α → Bool} (apart : p d = false) :
    (c.insertFresh d fresh).docs.filter p = c.docs.filter p := by
  simp [insertFresh, apart]

end Parts

section Sums

variable {M : Type*} [AddCommMonoid M]

/-- The sum of a quantity over all documents. -/
def total (c : Collection α) (f : α → M) : M := (c.docs.map f).sum

theorem total_insertFresh (c : Collection α) (d : α)
    (fresh : c.find (Document.key d) = none) (f : α → M) :
    (c.insertFresh d fresh).total f = c.total f + f d := by
  simp [total, insertFresh]

/-- Documents that count for nothing leave the sum alone. -/
theorem total_insertInOrder_of_zero {refuses : Collection α → α → Bool} {f : α → M}
    (c : Collection α) {ds : List α} (zero : ∀ d ∈ ds, f d = 0) :
    (c.insertInOrder refuses ds).2.total f = c.total f := by
  induction ds generalizing c with
  | nil => rfl
  | cons d ds ih =>
      obtain ⟨first, rest⟩ := List.forall_mem_cons.mp zero
      rw [insertInOrder]
      split
      · rfl
      · split
        · rfl
        · next inserted =>
            obtain ⟨fresh, rfl⟩ := insertOne_eq_some inserted
            rw [ih _ rest, total_insertFresh, first, add_zero]

/-- An update moves the sum by the new document less the one it replaced. -/
theorem total_modify {c : Collection α} {k : κ} {d : α} (h : c.find k = some d)
    (u : Update α) (f : α → M) :
    (c.modify k u).total f + f d = c.total f + f (u.apply d) := by
  obtain ⟨docs, distinct⟩ := c
  obtain ⟨mem, hk⟩ := mem_of_find h
  simp only [total, modify] at mem ⊢
  clear h
  induction docs with
  | nil => simp at mem
  | cons x xs ih =>
      rw [List.map_cons, List.nodup_cons] at distinct
      rcases List.mem_cons.mp mem with rfl | mem
      · have rest : (xs.map fun e => if Document.key e = k then u.apply e else e) = xs := by
          refine (List.map_congr_left ?_).trans (List.map_id xs)
          intro e he
          have other : Document.key e ≠ k := by
            intro same
            exact distinct.1 (hk ▸ same ▸ List.mem_map_of_mem he)
          simp [other]
        simp only [List.map_cons, hk, if_true, rest, List.sum_cons]
        ac_rfl
      · have other : Document.key x ≠ k := by
          intro same
          exact distinct.1 (same ▸ hk ▸ List.mem_map_of_mem mem)
        have ih := ih distinct.2 mem
        simp only [List.map_cons, other, if_false, List.sum_cons, add_assoc, ih]

end Sums

end Collection
