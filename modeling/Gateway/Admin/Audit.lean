import Gateway.Util.Utf16

/-!
What the audit trail keeps of the metadata of an operation.

A value under a sensitive key is kept as a mark that it was there, so metadata that
differs only in such values is kept as the same metadata. What is kept is bounded
in its depth, in the entries of its containers and in the length of its strings.
-/

namespace Gateway.Audit

/-- A value of the metadata, with the strings as the language has them. -/
inductive MetaValue where
  | undefined
  | null
  | bool (b : Bool)
  | num (n : JsNumber)
  | str (s : Units)
  | arr (items : List MetaValue)
  | obj (fields : List (Units × MetaValue))

/-- The words of the pattern for sensitive keys. -/
def sensitiveWords : List String :=
  ["key", "secret", "token", "password", "passwd", "cipher", "credential", "authorization",
    "cookie", "digest"]

/-- A unit under the flag that ignores case: only the letters of ASCII are folded. -/
def foldUnit (u : UInt16) : UInt16 := if 65 ≤ u ∧ u ≤ 90 then u + 32 else u

def containsUnits (word : Units) (text : Units) : Bool := text.tails.any word.isPrefixOf

def isSensitive (key : Units) : Bool :=
  sensitiveWords.any fun word => containsUnits (Units.ofString word) (key.map foldUnit)

def maxString : Nat := 200

def maxDepth : Nat := 4

def maxKeys : Nat := 40

def redactedMark : MetaValue := .str (Units.ofString "[redacted]")

def truncatedMark : MetaValue := .str (Units.ofString "[truncated]")

namespace MetaValue

/-- `value !== undefined && value !== null` -/
def present : MetaValue → Bool
  | .undefined | .null => false
  | _ => true

end MetaValue

/-- That a field was supplied, never what it was. -/
def supplied (item : MetaValue) : MetaValue := if item.present then redactedMark else .null

/-- `out[key] = value` of a key that `out` does not have; an assignment to `__proto__`
makes no entry. -/
def assignFresh (key : Units) (value : MetaValue) (rest : List (Units × MetaValue)) :
    List (Units × MetaValue) :=
  if key = Units.ofString "__proto__" then rest else (key, value) :: rest

mutual

def scrubMeta : (depth : Nat) → MetaValue → MetaValue
  | _, .undefined | _, .null => .null
  | _, .str s =>
      if maxString < s.length then .str (s.take maxString ++ Units.ofString "...") else .str s
  | _, .num n => .num n
  | _, .bool b => .bool b
  | depth, .arr items =>
      if maxDepth ≤ depth then truncatedMark else .arr (scrubItems (depth + 1) maxKeys items)
  | depth, .obj fields =>
      if maxDepth ≤ depth then truncatedMark else .obj (scrubFields (depth + 1) 0 fields)

/-- The items of `value.slice(0, left)`. -/
def scrubItems : (depth left : Nat) → List MetaValue → List MetaValue
  | _, 0, _ => []
  | _, _, [] => []
  | depth, left + 1, item :: rest => scrubMeta depth item :: scrubItems depth left rest

/-- The loop over the entries; `seen` counts those it has looked at. -/
def scrubFields : (depth seen : Nat) → List (Units × MetaValue) → List (Units × MetaValue)
  | _, _, [] => []
  | depth, seen, (key, item) :: rest =>
      if maxKeys ≤ seen then []
      else assignFresh key (if isSensitive key then supplied item else scrubMeta depth item)
        (scrubFields depth (seen + 1) rest)

end

namespace MetaValue

mutual

/-- The two values are the same but for values under sensitive keys, neither of which is
absent where they differ. -/
def Agree : MetaValue → MetaValue → Prop
  | .arr items, .arr items' => ItemsAgree items items'
  | .obj fields, .obj fields' => FieldsAgree fields fields'
  | value, value' => value = value'

def ItemsAgree : List MetaValue → List MetaValue → Prop
  | [], [] => True
  | item :: rest, item' :: rest' => Agree item item' ∧ ItemsAgree rest rest'
  | _, _ => False

def FieldsAgree : List (Units × MetaValue) → List (Units × MetaValue) → Prop
  | [], [] => True
  | (key, item) :: rest, (key', item') :: rest' =>
      key = key' ∧
        (isSensitive key = true ∧ (item = item' ∨ item.present = true ∧ item'.present = true) ∨
          Agree item item') ∧
        FieldsAgree rest rest'
  | _, _ => False

end

mutual

/-- The containers that a value nests. -/
def nesting : MetaValue → Nat
  | .arr items => itemsNesting items + 1
  | .obj fields => fieldsNesting fields + 1
  | _ => 0

def itemsNesting : List MetaValue → Nat
  | [] => 0
  | item :: rest => max (nesting item) (itemsNesting rest)

def fieldsNesting : List (Units × MetaValue) → Nat
  | [] => 0
  | (_, item) :: rest => max (nesting item) (fieldsNesting rest)

end

mutual

/-- No container has too many entries and no string is too long, at any depth. -/
def Bounded (entries units : Nat) : MetaValue → Prop
  | .str s => s.length ≤ units
  | .arr items => items.length ≤ entries ∧ ItemsBounded entries units items
  | .obj fields => fields.length ≤ entries ∧ FieldsBounded entries units fields
  | _ => True

def ItemsBounded (entries units : Nat) : List MetaValue → Prop
  | [] => True
  | item :: rest => Bounded entries units item ∧ ItemsBounded entries units rest

def FieldsBounded (entries units : Nat) : List (Units × MetaValue) → Prop
  | [] => True
  | (_, item) :: rest => Bounded entries units item ∧ FieldsBounded entries units rest

end

end MetaValue

section Scrubbing

open MetaValue

theorem supplied_eq {item item' : MetaValue}
    (h : item = item' ∨ item.present = true ∧ item'.present = true) :
    supplied item = supplied item' := by
  cases h with
  | inl same => rw [same]
  | inr both => rw [supplied, supplied, if_pos both.1, if_pos both.2]

theorem present_eq {item item' : MetaValue} (h : Agree item item') :
    item.present = item'.present := by
  cases item <;> cases item' <;> simp_all [Agree, present]

theorem supplied_eq_of_agree {item item' : MetaValue} (h : Agree item item') :
    supplied item = supplied item' := by
  rw [supplied, supplied, present_eq h]

mutual

/-- Values that agree are kept as the same value: by the two at once, a level at a time. -/
theorem scrub_agree : (depth : Nat) → (value value' : MetaValue) → Agree value value' →
    scrubMeta depth value = scrubMeta depth value'
  | _, .undefined, value', h | _, .null, value', h | _, .bool _, value', h
  | _, .num _, value', h | _, .str _, value', h => by
      have same := h
      cases value' <;> simp_all [Agree]
  | depth, .arr items, value', h => by
      cases value' with
      | arr items' =>
          rw [scrubMeta, scrubMeta, scrubItems_agree (depth + 1) maxKeys items items' h]
      | undefined | null | bool _ | num _ | str _ | obj _ => simp [Agree] at h
  | depth, .obj fields, value', h => by
      cases value' with
      | obj fields' =>
          rw [scrubMeta, scrubMeta, scrubFields_agree (depth + 1) 0 fields fields' h]
      | undefined | null | bool _ | num _ | str _ | arr _ => simp [Agree] at h

theorem scrubItems_agree : (depth left : Nat) → (items items' : List MetaValue) →
    ItemsAgree items items' → scrubItems depth left items = scrubItems depth left items'
  | depth, left, [], items', h => by
      cases items' with
      | nil => rfl
      | cons item' rest' => exact absurd h (by simp [ItemsAgree])
  | depth, left, item :: rest, items', h => by
      cases items' with
      | nil => exact absurd h (by simp [ItemsAgree])
      | cons item' rest' =>
          cases left with
          | zero => rfl
          | succ left =>
              rw [scrubItems, scrubItems, scrub_agree depth item item' h.1,
                scrubItems_agree depth left rest rest' h.2]

theorem scrubFields_agree : (depth seen : Nat) → (fields fields' : List (Units × MetaValue)) →
    FieldsAgree fields fields' → scrubFields depth seen fields = scrubFields depth seen fields'
  | depth, seen, [], fields', h => by
      cases fields' with
      | nil => rfl
      | cons field' rest' => exact absurd h (by simp [FieldsAgree])
  | depth, seen, (key, item) :: rest, fields', h => by
      cases fields' with
      | nil => exact absurd h (by simp [FieldsAgree])
      | cons field' rest' =>
          obtain ⟨key', item'⟩ := field'
          obtain ⟨rfl, items, below⟩ := h
          rw [scrubFields, scrubFields, scrubFields_agree depth (seen + 1) rest rest' below]
          by_cases sensitive : isSensitive key = true
          · have marked : supplied item = supplied item' := by
              cases items with
              | inl hidden => exact supplied_eq hidden.2
              | inr agree => exact supplied_eq_of_agree agree
            rw [if_pos sensitive, if_pos sensitive, marked]
          · have agree : Agree item item' := by
              cases items with
              | inl hidden => exact absurd hidden.1 sensitive
              | inr agree => exact agree
            rw [if_neg sensitive, if_neg sensitive, scrub_agree depth item item' agree]

end

end Scrubbing

section Bounds

open MetaValue

@[simp]
theorem supplied_nesting (item : MetaValue) : (supplied item).nesting = 0 := by
  rw [supplied]
  split <;> rfl

theorem length_mark : (Units.ofString "[redacted]").length ≤ 203 ∧
    (Units.ofString "[truncated]").length ≤ 203 ∧ (Units.ofString "...").length ≤ 3 := by
  decide

theorem supplied_bounded (item : MetaValue) : (supplied item).Bounded maxKeys 203 := by
  rw [supplied]
  split
  · exact length_mark.1
  · trivial

theorem assignFresh_nesting (key : Units) (value : MetaValue) (rest : List (Units × MetaValue)) :
    fieldsNesting (assignFresh key value rest) ≤ max value.nesting (fieldsNesting rest) := by
  rw [assignFresh]
  split
  · exact Nat.le_max_right _ _
  · exact Nat.le_refl _

theorem assignFresh_length (key : Units) (value : MetaValue) (rest : List (Units × MetaValue)) :
    (assignFresh key value rest).length ≤ rest.length + 1 := by
  rw [assignFresh]
  split
  · exact Nat.le_succ _
  · exact Nat.le_refl _

theorem assignFresh_bounded {key : Units} {value : MetaValue} {rest : List (Units × MetaValue)}
    {entries units : Nat} (bounded : value.Bounded entries units)
    (rest_bounded : FieldsBounded entries units rest) :
    FieldsBounded entries units (assignFresh key value rest) := by
  rw [assignFresh]
  split
  · exact rest_bounded
  · exact ⟨bounded, rest_bounded⟩

mutual

theorem scrub_nesting : (depth : Nat) → (value : MetaValue) →
    (scrubMeta depth value).nesting ≤ maxDepth - depth
  | _, .undefined | _, .null | _, .bool _ | _, .num _ => Nat.zero_le _
  | _, .str s => by
      rw [scrubMeta]
      split <;> exact Nat.zero_le _
  | depth, .arr items => by
      rw [scrubMeta]
      split
      · exact Nat.zero_le _
      · have below := scrubItems_nesting (depth + 1) maxKeys items
        rw [nesting]
        omega
  | depth, .obj fields => by
      rw [scrubMeta]
      split
      · exact Nat.zero_le _
      · have below := scrubFields_nesting (depth + 1) 0 fields
        rw [nesting]
        omega

theorem scrubItems_nesting : (depth left : Nat) → (items : List MetaValue) →
    itemsNesting (scrubItems depth left items) ≤ maxDepth - depth
  | _, 0, _ => by simp [scrubItems, itemsNesting]
  | _, _ + 1, [] => Nat.zero_le _
  | depth, left + 1, item :: rest => by
      rw [scrubItems, itemsNesting]
      exact Nat.max_le.mpr ⟨scrub_nesting depth item, scrubItems_nesting depth left rest⟩

theorem scrubFields_nesting : (depth seen : Nat) → (fields : List (Units × MetaValue)) →
    fieldsNesting (scrubFields depth seen fields) ≤ maxDepth - depth
  | _, _, [] => Nat.zero_le _
  | depth, seen, (key, item) :: rest => by
      rw [scrubFields]
      split
      · exact Nat.zero_le _
      · refine (assignFresh_nesting _ _ _).trans (Nat.max_le.mpr ⟨?_, ?_⟩)
        · split
          · rw [supplied_nesting]
            exact Nat.zero_le _
          · exact scrub_nesting depth item
        · exact scrubFields_nesting depth (seen + 1) rest

end

theorem scrubItems_length (depth left : Nat) (items : List MetaValue) :
    (scrubItems depth left items).length ≤ left := by
  induction items generalizing left with
  | nil => cases left <;> exact Nat.zero_le _
  | cons item rest ih =>
      cases left with
      | zero => exact Nat.zero_le _
      | succ left =>
          rw [scrubItems, List.length_cons]
          exact Nat.succ_le_succ (ih left)

theorem scrubFields_length (depth seen : Nat) (fields : List (Units × MetaValue)) :
    (scrubFields depth seen fields).length ≤ maxKeys - seen := by
  induction fields generalizing seen with
  | nil => exact Nat.zero_le _
  | cons field rest ih =>
      rw [scrubFields]
      split
      · exact Nat.zero_le _
      · have below := ih (seen + 1)
        refine (assignFresh_length _ _ _).trans ?_
        omega

theorem scrubbed_string_bounded (s : Units) :
    (if maxString < s.length then MetaValue.str (s.take maxString ++ Units.ofString "...")
      else .str s).Bounded maxKeys 203 := by
  have dots := length_mark.2.2
  split
  · rw [Bounded, List.length_append, List.length_take, maxString]
    omega
  · next short =>
      rw [Bounded]
      rw [maxString] at short
      omega

mutual

theorem scrub_bounded : (depth : Nat) → (value : MetaValue) →
    (scrubMeta depth value).Bounded maxKeys 203
  | _, .undefined | _, .null | _, .bool _ | _, .num _ => trivial
  | _, .str s => by
      rw [scrubMeta]
      exact scrubbed_string_bounded s
  | depth, .arr items => by
      rw [scrubMeta]
      split
      · exact length_mark.2.1
      · exact ⟨scrubItems_length _ _ items, scrubItems_bounded (depth + 1) maxKeys items⟩
  | depth, .obj fields => by
      rw [scrubMeta]
      split
      · exact length_mark.2.1
      · exact ⟨scrubFields_length _ 0 fields, scrubFields_bounded (depth + 1) 0 fields⟩

theorem scrubItems_bounded : (depth left : Nat) → (items : List MetaValue) →
    ItemsBounded maxKeys 203 (scrubItems depth left items)
  | _, 0, _ => by
      rw [scrubItems]
      trivial
  | _, _ + 1, [] => trivial
  | depth, left + 1, item :: rest =>
      ⟨scrub_bounded depth item, scrubItems_bounded depth left rest⟩

theorem scrubFields_bounded : (depth seen : Nat) → (fields : List (Units × MetaValue)) →
    FieldsBounded maxKeys 203 (scrubFields depth seen fields)
  | _, _, [] => trivial
  | depth, seen, (key, item) :: rest => by
      rw [scrubFields]
      split
      · trivial
      · refine assignFresh_bounded ?_ (scrubFields_bounded depth (seen + 1) rest)
        split
        · exact supplied_bounded item
        · exact scrub_bounded depth item

end

end Bounds

/-- Metadata that agrees but for what is under sensitive keys is kept as the same
metadata, and what is kept is bounded. -/
theorem scrubbed_reveals_nothing_sensitive :
    (∀ value value' : MetaValue, value.Agree value' → scrubMeta 0 value = scrubMeta 0 value') ∧
      ∀ value : MetaValue, (scrubMeta 0 value).nesting ≤ maxDepth ∧
        (scrubMeta 0 value).Bounded maxKeys 203 :=
  ⟨scrub_agree 0, fun value => ⟨scrub_nesting 0 value, scrub_bounded 0 value⟩⟩

theorem scrubbed_reveals_nothing_sensitive_apiKey :
    scrubMeta 0 (.arr [.obj [(Units.ofString "apiKey", .str (Units.ofString "a"))]]) =
      scrubMeta 0 (.arr [.obj [(Units.ofString "apiKey", .obj [([], .bool true)])]]) :=
  scrubbed_reveals_nothing_sensitive.1 _ _
    ⟨⟨rfl, .inl ⟨by decide, .inr ⟨rfl, rfl⟩⟩, trivial⟩, trivial⟩

end Gateway.Audit
