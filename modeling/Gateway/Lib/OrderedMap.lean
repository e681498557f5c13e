import Mathlib.Data.List.Nodup

/-!
Maps that keep the order in which their keys were first set.

Setting a key that is there replaces its value in its place. That a key stands
once is a field of the map, so a lookup and a member of the list are the same.
-/

universe u v

structure OrderedMap (κ : Type u) (α : Type v) where
  entries : List (κ × α)
  distinct : (entries.map Prod.fst).Nodup

namespace OrderedMap

variable {κ : Type u} {α : Type v}

def empty : OrderedMap κ α := ⟨[], List.nodup_nil⟩

instance : EmptyCollection (OrderedMap κ α) := ⟨empty⟩

theorem ext_entries {m n : OrderedMap κ α} (same : m.entries = n.entries) : m = n := by
  cases m
  cases n
  cases same
  rfl

variable [DecidableEq κ]

def get? (m : OrderedMap κ α) (k : κ) : Option α := m.entries.lookup k

def setIn (k : κ) (a : α) : List (κ × α) → List (κ × α)
  | [] => [(k, a)]
  | (j, b) :: rest => if j = k then (k, a) :: rest else (j, b) :: setIn k a rest

theorem mem_keys_setIn {k j : κ} {a : α} {list : List (κ × α)} :
    j ∈ (setIn k a list).map Prod.fst ↔ j = k ∨ j ∈ list.map Prod.fst := by
  induction list with
  | nil => simp [setIn]
  | cons entry rest ih =>
      rw [setIn]
      split
      · next same => simp [same]
      · simp only [List.map_cons, List.mem_cons, ih]
        exact or_left_comm

theorem nodup_setIn (k : κ) (a : α) {list : List (κ × α)} (distinct : (list.map Prod.fst).Nodup) :
    ((setIn k a list).map Prod.fst).Nodup := by
  induction list with
  | nil => simp [setIn]
  | cons entry rest ih =>
      rw [List.map_cons, List.nodup_cons] at distinct
      rw [setIn]
      split
      · next same =>
          rw [List.map_cons, List.nodup_cons, ← same]
          exact distinct
      · next other =>
          rw [List.map_cons, List.nodup_cons, mem_keys_setIn, not_or]
          exact ⟨⟨other, distinct.1⟩, ih distinct.2⟩

/-- `map.set(k, a)` -/
def set (m : OrderedMap κ α) (k : κ) (a : α) : OrderedMap κ α :=
  ⟨setIn k a m.entries, nodup_setIn k a m.distinct⟩

/-- `map.delete(k)` -/
def erase (m : OrderedMap κ α) (k : κ) : OrderedMap κ α where
  entries := m.entries.filter fun entry => entry.1 ≠ k
  distinct := m.distinct.sublist ((List.filter_sublist).map Prod.fst)

def has (m : OrderedMap κ α) (k : κ) : Bool := (m.get? k).isSome

theorem lookup_cons (j : κ) (entry : κ × α) (rest : List (κ × α)) :
    (entry :: rest).lookup j = if j = entry.1 then some entry.2 else rest.lookup j := by
  rw [List.lookup_cons]
  by_cases here : j = entry.1
  · rw [if_pos here, beq_iff_eq.mpr here]
  · rw [if_neg here, beq_eq_false_iff_ne.mpr here]

theorem lookup_setIn (k j : κ) (a : α) (list : List (κ × α)) :
    (setIn k a list).lookup j = if j = k then some a else list.lookup j := by
  induction list with
  | nil => exact lookup_cons j (k, a) []
  | cons entry rest ih =>
      rw [setIn]
      by_cases head : entry.1 = k
      · rw [if_pos head, lookup_cons, lookup_cons, head]
        split <;> rfl
      · rw [if_neg head, lookup_cons, lookup_cons, ih]
        by_cases here : j = entry.1
        · have other : ¬j = k := by
            rw [here]
            exact head
          rw [if_pos here, if_pos here, if_neg other]
        · rw [if_neg here, if_neg here]

@[simp]
theorem get?_empty (k : κ) : (∅ : OrderedMap κ α).get? k = none := rfl

theorem get?_set (m : OrderedMap κ α) (k j : κ) (a : α) :
    (m.set k a).get? j = if j = k then some a else m.get? j := lookup_setIn k j a m.entries

theorem get?_set_self (m : OrderedMap κ α) (k : κ) (a : α) : (m.set k a).get? k = some a := by
  rw [get?_set, if_pos rfl]

theorem get?_set_other (m : OrderedMap κ α) {k j : κ} (other : j ≠ k) (a : α) :
    (m.set k a).get? j = m.get? j := by
  rw [get?_set, if_neg other]

theorem lookup_filter_ne (list : List (κ × α)) (k j : κ) :
    (list.filter fun entry => decide (entry.1 ≠ k)).lookup j =
      if j = k then none else list.lookup j := by
  induction list with
  | nil => exact (ite_self none).symm
  | cons entry rest ih =>
      rw [List.filter_cons]
      by_cases head : entry.1 = k
      · rw [if_neg (by simp [head]), ih, lookup_cons, head]
        split <;> rfl
      · rw [if_pos (by simp [head]), lookup_cons, lookup_cons, ih]
        by_cases here : j = entry.1
        · have other : ¬j = k := by
            rw [here]
            exact head
          rw [if_pos here, if_pos here, if_neg other]
        · rw [if_neg here, if_neg here]

theorem get?_erase (m : OrderedMap κ α) (k j : κ) :
    (m.erase k).get? j = if j = k then none else m.get? j := lookup_filter_ne m.entries k j

theorem mem_entries {m : OrderedMap κ α} {k : κ} {a : α} :
    (k, a) ∈ m.entries ↔ m.get? k = some a := by
  obtain ⟨entries, distinct⟩ := m
  simp only [get?]
  induction entries with
  | nil => simp
  | cons entry rest ih =>
      rw [List.map_cons, List.nodup_cons] at distinct
      rw [lookup_cons, List.mem_cons, ih distinct.2]
      by_cases here : k = entry.1
      · subst here
        have unlisted : rest.lookup entry.1 ≠ some a := by
          intro found
          have mem := List.mem_map_of_mem (f := Prod.fst) ((ih distinct.2).mpr found)
          exact distinct.1 mem
        rw [if_pos rfl, Option.some.injEq]
        constructor
        · intro mem
          cases mem with
          | inl same => exact (congrArg Prod.snd same).symm
          | inr found => exact absurd found unlisted
        · intro same
          exact .inl (Prod.ext rfl same.symm)
      · rw [if_neg here]
        constructor
        · intro mem
          cases mem with
          | inl same => exact absurd (congrArg Prod.fst same) here
          | inr found => exact found
        · exact .inr

theorem setIn_absent {k : κ} (a : α) {list : List (κ × α)} (absent : list.lookup k = none) :
    setIn k a list = list ++ [(k, a)] := by
  induction list with
  | nil => rfl
  | cons entry rest ih =>
      rw [lookup_cons] at absent
      by_cases here : k = entry.1
      · rw [if_pos here] at absent
        exact absurd absent (Option.some_ne_none entry.2)
      · rw [if_neg here] at absent
        rw [setIn, if_neg fun same => here same.symm, ih absent]
        rfl

/-- A new key goes to the end. -/
theorem entries_set_absent {m : OrderedMap κ α} {k : κ} (a : α) (absent : m.get? k = none) :
    (m.set k a).entries = m.entries ++ [(k, a)] := setIn_absent a absent

section Values

variable {β : Type v}

/-- The map with each value in its place replaced. -/
def mapValues (f : α → β) (m : OrderedMap κ α) : OrderedMap κ β where
  entries := m.entries.map fun entry => (entry.1, f entry.2)
  distinct := by
    rw [List.map_map]
    exact m.distinct

theorem get?_mapValues (f : α → β) (m : OrderedMap κ α) (k : κ) :
    (m.mapValues f).get? k = (m.get? k).map f := by
  obtain ⟨entries, distinct⟩ := m
  simp only [get?, mapValues]
  clear distinct
  induction entries with
  | nil => rfl
  | cons entry rest ih =>
      rw [List.map_cons, lookup_cons, lookup_cons, ih]
      split <;> rfl

end Values

theorem has_eq_false_iff {m : OrderedMap κ α} {k : κ} : m.has k = false ↔ m.get? k = none := by
  rw [has, Option.isSome_eq_false_iff, Option.isNone_iff_eq_none]

end OrderedMap
