import Gateway.Util.JsonRoundTrip

/-!
Values taken apart and built again.

A value is its containers, its keys and its leaves. What is rewritten key by key
and leaf by leaf has no other keys and leaves than the rewritten ones, and is the
value itself where nothing is rewritten.
-/

namespace Gateway

namespace Json

mutual

/-- A copy with the keys and the leaves rewritten; of fields under one key the last one stays. -/
def rebuild (key : String → String) (leaf : Json → Json) : Json → Json
  | .arr items => .arr (rebuildItems key leaf items)
  | .obj fields => .obj (collect (rebuildFields key leaf fields))
  | value => leaf value

def rebuildItems (key : String → String) (leaf : Json → Json) : List Json → List Json
  | [] => []
  | item :: rest => rebuild key leaf item :: rebuildItems key leaf rest

def rebuildFields (key : String → String) (leaf : Json → Json) :
    List (String × Json) → List (String × Json)
  | [] => []
  | (name, value) :: rest => (key name, rebuild key leaf value) :: rebuildFields key leaf rest

end

mutual

/-- The values that hold no others, at any depth. -/
def leaves : Json → List Json
  | .arr items => itemLeaves items
  | .obj fields => fieldLeaves fields
  | value => [value]

def itemLeaves : List Json → List Json
  | [] => []
  | item :: rest => leaves item ++ itemLeaves rest

def fieldLeaves : List (String × Json) → List Json
  | [] => []
  | (_, value) :: rest => leaves value ++ fieldLeaves rest

end

/-- `String(value)` of a number. -/
def numberString : JsNumber → String
  | .finite q => String.ofList (numberText q)
  | .nan => "NaN"
  | .infinity => "Infinity"
  | .negInfinity => "-Infinity"

/-- What a text or a number spells. -/
def spelling : Json → List String
  | .str text => [text]
  | .num n => [numberString n]
  | _ => []

/-- A value that is no container. -/
def IsLeaf : Json → Prop
  | .arr _ | .obj _ => False
  | _ => True

mutual

/-- The keys of the objects, at any depth. -/
def keys : Json → List String
  | .arr items => itemKeys items
  | .obj fields => fieldKeys fields
  | _ => []

def itemKeys : List Json → List String
  | [] => []
  | item :: rest => keys item ++ itemKeys rest

def fieldKeys : List (String × Json) → List String
  | [] => []
  | (name, value) :: rest => name :: keys value ++ fieldKeys rest

end

mutual

/-- Every object has each key once, as it is in the language. -/
def KeysOnce : Json → Prop
  | .arr items => ItemsKeysOnce items
  | .obj fields => (fields.map Prod.fst).Nodup ∧ FieldsKeysOnce fields
  | _ => True

def ItemsKeysOnce : List Json → Prop
  | [] => True
  | item :: rest => KeysOnce item ∧ ItemsKeysOnce rest

def FieldsKeysOnce : List (String × Json) → Prop
  | [] => True
  | (_, value) :: rest => KeysOnce value ∧ FieldsKeysOnce rest

end

/-- Everything that a value spells, as a key, a text or a number at any depth. -/
def texts (value : Json) : List String := value.keys ++ value.leaves.flatMap spelling

mutual

theorem isLeaf_of_mem : (value : Json) → ∀ l ∈ value.leaves, l.IsLeaf
  | .arr items => isLeaf_of_mem_items items
  | .obj fields => isLeaf_of_mem_fields fields
  | .null | .bool _ | .num _ | .str _ => by
      intro l mem
      rw [List.mem_singleton.mp mem]
      trivial

theorem isLeaf_of_mem_items : (items : List Json) → ∀ l ∈ itemLeaves items, l.IsLeaf
  | [] => by simp [itemLeaves]
  | item :: rest => by
      rw [itemLeaves, List.forall_mem_append]
      exact ⟨isLeaf_of_mem item, isLeaf_of_mem_items rest⟩

theorem isLeaf_of_mem_fields : (fields : List (String × Json)) →
    ∀ l ∈ fieldLeaves fields, l.IsLeaf
  | [] => by simp [fieldLeaves]
  | (_, value) :: rest => by
      rw [fieldLeaves, List.forall_mem_append]
      exact ⟨isLeaf_of_mem value, isLeaf_of_mem_fields rest⟩

end

theorem mem_fieldLeaves {fields : Record} {leaf : Json} :
    leaf ∈ fieldLeaves fields ↔ ∃ entry ∈ fields, leaf ∈ entry.2.leaves := by
  induction fields with
  | nil => simp [fieldLeaves]
  | cons entry rest ih => simp [fieldLeaves, ih]

theorem mem_fieldKeys {fields : Record} {key : String} :
    key ∈ fieldKeys fields ↔ ∃ entry ∈ fields, key = entry.1 ∨ key ∈ entry.2.keys := by
  induction fields with
  | nil => simp [fieldKeys]
  | cons entry rest ih => simp [fieldKeys, ih, or_assoc]

theorem mem_texts_obj {fields : Record} {text : String} :
    text ∈ (Json.obj fields).texts ↔ ∃ entry ∈ fields, text = entry.1 ∨ text ∈ entry.2.texts := by
  simp only [texts, List.mem_append, keys, leaves, List.mem_flatMap, mem_fieldKeys,
    mem_fieldLeaves]
  constructor
  · rintro (⟨entry, mem, here⟩ | ⟨leaf, ⟨entry, mem, within⟩, spelled⟩)
    · exact ⟨entry, mem, here.imp_right .inl⟩
    · exact ⟨entry, mem, .inr (.inr ⟨leaf, within, spelled⟩)⟩
  · rintro ⟨entry, mem, name | within | ⟨leaf, within, spelled⟩⟩
    · exact .inl ⟨entry, mem, .inl name⟩
    · exact .inl ⟨entry, mem, .inr within⟩
    · exact .inr ⟨leaf, ⟨entry, mem, within⟩, spelled⟩

@[simp]
theorem texts_str (text : String) : (Json.str text).texts = [text] := rfl

@[simp]
theorem texts_num (n : JsNumber) : (Json.num n).texts = [numberString n] := rfl

@[simp]
theorem texts_null : Json.null.texts = [] := rfl

end Json

section Collect

theorem mem_set {fields : Record} {key : String} {value : Json} {entry : String × Json}
    (mem : entry ∈ Record.set fields key value) : entry ∈ fields ∨ entry = (key, value) := by
  rw [Record.set] at mem
  split at mem
  · obtain ⟨old, old_mem, rfl⟩ := List.mem_map.mp mem
    by_cases same : old.1 = key
    · exact .inr (if_pos same)
    · exact .inl (by rwa [if_neg same])
  · exact (List.mem_append.mp mem).imp_right List.mem_singleton.mp

theorem mem_foldl_set {entries kept : Record} {entry : String × Json}
    (mem : entry ∈ entries.foldl (fun r e => Record.set r e.1 e.2) kept) :
    entry ∈ kept ∨ entry ∈ entries := by
  induction entries generalizing kept with
  | nil => exact .inl mem
  | cons first rest ih =>
      rcases ih mem with set | later
      · rcases mem_set set with old | new
        · exact .inl old
        · exact .inr (by rw [new]; exact List.mem_cons_self)
      · exact .inr (List.mem_cons_of_mem _ later)

/-- What is collected is among the entries. -/
theorem mem_collect {entries : Record} {entry : String × Json} (mem : entry ∈ collect entries) :
    entry ∈ entries :=
  (mem_foldl_set mem).resolve_left List.not_mem_nil

end Collect

namespace Json

section Rebuild

variable {key : String → String} {leaf : Json → Json}

mutual

/-- The leaves of a copy come from leaves. -/
theorem leaves_rebuild : (value : Json) → ∀ l ∈ (rebuild key leaf value).leaves,
    ∃ old ∈ value.leaves, l ∈ (leaf old).leaves
  | .arr items => leaves_rebuildItems items
  | .obj fields => by
      intro l mem
      rw [rebuild, leaves] at mem
      obtain ⟨entry, found, within⟩ := mem_fieldLeaves.mp mem
      exact leaves_rebuildFields fields entry (mem_collect found) l within
  | .null => fun l mem => ⟨.null, List.mem_singleton_self _, mem⟩
  | .bool b => fun l mem => ⟨.bool b, List.mem_singleton_self _, mem⟩
  | .num n => fun l mem => ⟨.num n, List.mem_singleton_self _, mem⟩
  | .str s => fun l mem => ⟨.str s, List.mem_singleton_self _, mem⟩

theorem leaves_rebuildItems : (items : List Json) → ∀ l ∈ itemLeaves (rebuildItems key leaf items),
    ∃ old ∈ itemLeaves items, l ∈ (leaf old).leaves
  | [] => by simp [rebuildItems, itemLeaves]
  | item :: rest => by
      intro l mem
      rw [rebuildItems, itemLeaves] at mem
      rcases List.mem_append.mp mem with here | later
      · obtain ⟨old, within, made⟩ := leaves_rebuild item l here
        exact ⟨old, List.mem_append_left _ within, made⟩
      · obtain ⟨old, within, made⟩ := leaves_rebuildItems rest l later
        exact ⟨old, List.mem_append_right _ within, made⟩

theorem leaves_rebuildFields : (fields : List (String × Json)) →
    ∀ entry ∈ rebuildFields key leaf fields, ∀ l ∈ entry.2.leaves,
      ∃ old ∈ fieldLeaves fields, l ∈ (leaf old).leaves
  | [] => by simp [rebuildFields]
  | (name, value) :: rest => by
      intro entry mem l there
      rw [rebuildFields] at mem
      rcases List.mem_cons.mp mem with rfl | later
      · obtain ⟨old, within, made⟩ := leaves_rebuild value l there
        exact ⟨old, List.mem_append_left _ within, made⟩
      · obtain ⟨old, within, made⟩ := leaves_rebuildFields rest entry later l there
        exact ⟨old, List.mem_append_right _ within, made⟩

end

mutual

/-- The keys of a copy come from keys, when no leaf is made an object. -/
theorem keys_rebuild (plain : ∀ value, value.keys = [] → (leaf value).keys = []) :
    (value : Json) → ∀ k ∈ (rebuild key leaf value).keys, ∃ old ∈ value.keys, k = key old
  | .arr items => keys_rebuildItems plain items
  | .obj fields => by
      intro k mem
      rw [rebuild, keys] at mem
      obtain ⟨entry, found, within⟩ := mem_fieldKeys.mp mem
      exact keys_rebuildFields plain fields entry (mem_collect found) k within
  | .null => fun k mem => absurd (plain .null rfl ▸ (show k ∈ (leaf .null).keys from mem))
      List.not_mem_nil
  | .bool b => fun k mem => absurd (plain (.bool b) rfl ▸ (show k ∈ (leaf (.bool b)).keys from mem))
      List.not_mem_nil
  | .num n => fun k mem => absurd (plain (.num n) rfl ▸ (show k ∈ (leaf (.num n)).keys from mem))
      List.not_mem_nil
  | .str s => fun k mem => absurd (plain (.str s) rfl ▸ (show k ∈ (leaf (.str s)).keys from mem))
      List.not_mem_nil

theorem keys_rebuildItems (plain : ∀ value, value.keys = [] → (leaf value).keys = []) :
    (items : List Json) → ∀ k ∈ itemKeys (rebuildItems key leaf items),
      ∃ old ∈ itemKeys items, k = key old
  | [] => by simp [rebuildItems, itemKeys]
  | item :: rest => by
      intro k mem
      rw [rebuildItems, itemKeys] at mem
      rcases List.mem_append.mp mem with here | later
      · obtain ⟨old, within, made⟩ := keys_rebuild plain item k here
        exact ⟨old, List.mem_append_left _ within, made⟩
      · obtain ⟨old, within, made⟩ := keys_rebuildItems plain rest k later
        exact ⟨old, List.mem_append_right _ within, made⟩

theorem keys_rebuildFields (plain : ∀ value, value.keys = [] → (leaf value).keys = []) :
    (fields : List (String × Json)) → ∀ entry ∈ rebuildFields key leaf fields,
      ∀ k, k = entry.1 ∨ k ∈ entry.2.keys → ∃ old ∈ fieldKeys fields, k = key old
  | [] => by simp [rebuildFields]
  | (name, value) :: rest => by
      intro entry mem k there
      rw [rebuildFields] at mem
      rw [fieldKeys]
      rcases List.mem_cons.mp mem with rfl | later
      · rcases there with rfl | within
        · exact ⟨name, List.mem_cons_self, rfl⟩
        · obtain ⟨old, from_value, made⟩ := keys_rebuild plain value k within
          exact ⟨old, by simp [from_value], made⟩
      · obtain ⟨old, from_rest, made⟩ := keys_rebuildFields plain rest entry later k there
        exact ⟨old, by simp [from_rest], made⟩

end

mutual

/-- A copy in which nothing is rewritten is the value itself. -/
theorem rebuild_eq_self : (value : Json) → value.KeysOnce →
    (∀ k ∈ value.keys, key k = k) → (∀ l ∈ value.leaves, leaf l = l) →
    rebuild key leaf value = value
  | .arr items => fun once names kept => by
      rw [rebuild, rebuildItems_eq_self items once names kept]
  | .obj fields => fun once names kept => by
      rw [rebuild, rebuildFields_eq_self fields once.2 names kept, collect_eq once.1]
  | .null => fun _ _ kept => kept .null (List.mem_singleton_self _)
  | .bool b => fun _ _ kept => kept (.bool b) (List.mem_singleton_self _)
  | .num n => fun _ _ kept => kept (.num n) (List.mem_singleton_self _)
  | .str s => fun _ _ kept => kept (.str s) (List.mem_singleton_self _)

theorem rebuildItems_eq_self : (items : List Json) → ItemsKeysOnce items →
    (∀ k ∈ itemKeys items, key k = k) → (∀ l ∈ itemLeaves items, leaf l = l) →
    rebuildItems key leaf items = items
  | [] => fun _ _ _ => rfl
  | item :: rest => fun once names kept => by
      rw [itemKeys, List.forall_mem_append] at names
      rw [itemLeaves, List.forall_mem_append] at kept
      rw [rebuildItems, rebuild_eq_self item once.1 names.1 kept.1,
        rebuildItems_eq_self rest once.2 names.2 kept.2]

theorem rebuildFields_eq_self : (fields : List (String × Json)) → FieldsKeysOnce fields →
    (∀ k ∈ fieldKeys fields, key k = k) → (∀ l ∈ fieldLeaves fields, leaf l = l) →
    rebuildFields key leaf fields = fields
  | [] => fun _ _ _ => rfl
  | (name, value) :: rest => fun once names kept => by
      rw [fieldKeys, List.cons_append, List.forall_mem_cons, List.forall_mem_append] at names
      rw [fieldLeaves, List.forall_mem_append] at kept
      rw [rebuildFields, names.1, rebuild_eq_self value once.1 names.2.1 kept.1,
        rebuildFields_eq_self rest once.2 names.2.2 kept.2]

end

end Rebuild

section Sanitized

theorem append_subset_both {α : Type*} {xs ys xs' ys' : List α} (left : xs ⊆ xs')
    (right : ys ⊆ ys') : xs ++ ys ⊆ xs' ++ ys' :=
  List.append_subset.mpr
    ⟨List.subset_append_of_subset_left _ left, List.subset_append_of_subset_right _ right⟩

mutual

/-- The copy without the forbidden keys has no other leaves. -/
theorem leaves_cloneSanitized : (value : Json) → value.cloneSanitized.leaves ⊆ value.leaves
  | .arr items => leaves_cloneItems items
  | .obj fields => leaves_cloneFields fields
  | .null | .bool _ | .num _ | .str _ => List.Subset.refl _

theorem leaves_cloneItems : (items : List Json) → itemLeaves (cloneItems items) ⊆ itemLeaves items
  | [] => List.Subset.refl _
  | item :: rest => by
      rw [cloneItems, itemLeaves, itemLeaves]
      exact append_subset_both (leaves_cloneSanitized item) (leaves_cloneItems rest)

theorem leaves_cloneFields : (fields : List (String × Json)) →
    fieldLeaves (cloneFields fields) ⊆ fieldLeaves fields
  | [] => List.Subset.refl _
  | (name, value) :: rest => by
      rw [cloneFields, fieldLeaves]
      split
      · exact List.subset_append_of_subset_right _ (leaves_cloneFields rest)
      · exact append_subset_both (leaves_cloneSanitized value) (leaves_cloneFields rest)

end

mutual

theorem keys_cloneSanitized : (value : Json) → value.cloneSanitized.keys ⊆ value.keys
  | .arr items => keys_cloneItems items
  | .obj fields => keys_cloneFields fields
  | .null | .bool _ | .num _ | .str _ => List.Subset.refl _

theorem keys_cloneItems : (items : List Json) → itemKeys (cloneItems items) ⊆ itemKeys items
  | [] => List.Subset.refl _
  | item :: rest => by
      rw [cloneItems, itemKeys, itemKeys]
      exact append_subset_both (keys_cloneSanitized item) (keys_cloneItems rest)

theorem keys_cloneFields : (fields : List (String × Json)) →
    fieldKeys (cloneFields fields) ⊆ fieldKeys fields
  | [] => List.Subset.refl _
  | (name, value) :: rest => by
      rw [cloneFields, fieldKeys]
      split
      · exact List.subset_cons_of_subset _
          (List.subset_append_of_subset_right _ (keys_cloneFields rest))
      · rw [fieldKeys]
        exact List.cons_subset_cons _
          (append_subset_both (keys_cloneSanitized value) (keys_cloneFields rest))

end

theorem names_cloneFields (fields : Record) :
    ((cloneFields fields).map Prod.fst).Sublist (fields.map Prod.fst) := by
  induction fields with
  | nil => exact List.Sublist.refl _
  | cons entry rest ih =>
      rw [cloneFields]
      split
      · exact ih.cons _
      · exact ih.cons_cons _

mutual

theorem keysOnce_cloneSanitized : (value : Json) → value.KeysOnce → value.cloneSanitized.KeysOnce
  | .arr items => keysOnce_cloneItems items
  | .obj fields => fun once =>
      ⟨once.1.sublist (names_cloneFields fields), keysOnce_cloneFields fields once.2⟩
  | .null | .bool _ | .num _ | .str _ => id

theorem keysOnce_cloneItems : (items : List Json) → ItemsKeysOnce items →
    ItemsKeysOnce (cloneItems items)
  | [] => id
  | item :: rest => fun once =>
      ⟨keysOnce_cloneSanitized item once.1, keysOnce_cloneItems rest once.2⟩

theorem keysOnce_cloneFields : (fields : List (String × Json)) → FieldsKeysOnce fields →
    FieldsKeysOnce (cloneFields fields)
  | [] => id
  | (name, value) :: rest => fun once => by
      rw [cloneFields]
      split
      · exact keysOnce_cloneFields rest once.2
      · exact ⟨keysOnce_cloneSanitized value once.1, keysOnce_cloneFields rest once.2⟩

end

mutual

/-- What a text can carry is a value of the language. -/
theorem Carried.keysOnce : (value : Json) → value.Carried → value.KeysOnce
  | .arr items => ItemsCarried.keysOnce items
  | .obj fields => fun carried => ⟨carried.1, FieldsCarried.keysOnce fields carried.2⟩
  | .null | .bool _ | .num _ | .str _ => fun _ => trivial

theorem ItemsCarried.keysOnce : (items : List Json) → ItemsCarried items → ItemsKeysOnce items
  | [] => id
  | item :: rest => fun carried =>
      ⟨Carried.keysOnce item carried.1, ItemsCarried.keysOnce rest carried.2⟩

theorem FieldsCarried.keysOnce : (fields : List (String × Json)) → FieldsCarried fields →
    FieldsKeysOnce fields
  | [] => id
  | (_, value) :: rest => fun carried =>
      ⟨Carried.keysOnce value carried.1, FieldsCarried.keysOnce rest carried.2⟩

end

end Sanitized

end Json

end Gateway
