import Gateway.Util.Json
import Gateway.Http.Errors

/-!
The bounds on a JSON value, and the keys no value keeps.

The walk is a loop over a stack, so it cannot run out of one itself; the copy
that leaves the forbidden keys out is only made of a value within the bounds.
-/

namespace Gateway

/-- The limits of the configuration. -/
structure JsonLimits where
  maxDepth : Nat
  maxNodes : Nat

def forbiddenKeys : List String := ["__proto__", "constructor", "prototype"]

namespace Json

/-- The values directly below a value. -/
def children : Json → List Json
  | .arr items => items
  | .obj fields => fields.map Prod.snd
  | _ => []

/-- The two ways to exceed the limits; both are reported as an invalid request. -/
inductive Limit where
  | nodes
  | depth
deriving DecidableEq, Repr

/-- The walk over a stack of values with their depths, top first; `left` is the
number of nodes that may still be counted. -/
def walk (limits : JsonLimits) : (left : Nat) → List (Json × Nat) → Except Limit Unit
  | _, [] => .ok ()
  | 0, _ :: _ => .error .nodes
  | left + 1, (value, depth) :: stack =>
      if limits.maxDepth < depth then .error .depth
      else if left < stack.length + value.children.length then .error .nodes
      else walk limits left ((value.children.map fun child => (child, depth + 1)).reverse ++ stack)

def assertLimits (limits : JsonLimits) (value : Json) : Except Limit Unit :=
  walk limits limits.maxNodes [(value, 1)]

mutual

def cloneSanitized : Json → Json
  | .arr items => .arr (cloneItems items)
  | .obj fields => .obj (cloneFields fields)
  | value => value

def cloneItems : List Json → List Json
  | [] => []
  | item :: rest => cloneSanitized item :: cloneItems rest

def cloneFields : List (String × Json) → List (String × Json)
  | [] => []
  | (key, value) :: rest =>
      if forbiddenKeys.contains key then cloneFields rest
      else (key, cloneSanitized value) :: cloneFields rest

end

mutual

/-- No key that is left out of a copy, at any depth. -/
def Clean : Json → Prop
  | .arr items => ItemsClean items
  | .obj fields => FieldsClean fields
  | _ => True

def ItemsClean : List Json → Prop
  | [] => True
  | item :: rest => Clean item ∧ ItemsClean rest

def FieldsClean : List (String × Json) → Prop
  | [] => True
  | (key, value) :: rest => key ∉ forbiddenKeys ∧ Clean value ∧ FieldsClean rest

end

end Json

def Json.Limit.message (limits : JsonLimits) : Json.Limit → String
  | .nodes => "payload exceeds " ++ toString limits.maxNodes ++ " JSON nodes"
  | .depth => "payload nests deeper than " ++ toString limits.maxDepth ++ " levels"

/-- `sanitizeParsed` of a plain object. -/
def sanitizeParsed (limits : JsonLimits) (fields : Record) : Except Thrown Record :=
  match (Json.obj fields).assertLimits limits with
  | .error limit => .error (.gateway (invalidRequest (limit.message limits)))
  | .ok () => .ok (Json.cloneFields fields)

section Clone

@[simp]
theorem cloneItems_eq (items : List Json) :
    Json.cloneItems items = items.map Json.cloneSanitized := by
  induction items with
  | nil => rfl
  | cons item rest ih => rw [Json.cloneItems, ih, List.map_cons]

/-- A field under a key that is kept is the copy of the field. -/
theorem field_cloneFields (fields : Record) {key : String} (kept : key ∉ forbiddenKeys) :
    Record.field (Json.cloneFields fields) key =
      (Record.field fields key).map Json.cloneSanitized := by
  induction fields with
  | nil => rfl
  | cons entry rest ih =>
      obtain ⟨name, value⟩ := entry
      rw [Json.cloneFields, Record.field_cons]
      by_cases same : key = name
      · subst same
        rw [if_neg (by simpa using kept), Record.field_cons, if_pos rfl, if_pos rfl, Option.map_some]
      · rw [if_neg same]
        split
        · exact ih
        · rw [Record.field_cons, if_neg same, ih]

@[simp]
theorem asRecord_clone (value : Option Json) :
    asRecord (value.map Json.cloneSanitized) = Json.cloneFields (asRecord value) := by
  cases value with
  | none => rfl
  | some value => cases value <;> simp [asRecord, Json.cloneSanitized, Json.cloneFields]

@[simp]
theorem asArray_clone (value : Option Json) :
    asArray (value.map Json.cloneSanitized) = (asArray value).map Json.cloneSanitized := by
  cases value with
  | none => rfl
  | some value => cases value <;> simp [asArray, Json.cloneSanitized]

@[simp]
theorem asString_clone (value : Option Json) :
    asString (value.map Json.cloneSanitized) = asString value := by
  cases value with
  | none => rfl
  | some value => cases value <;> simp [asString, Json.cloneSanitized]

@[simp]
theorem asNumber_clone (value : Option Json) :
    asNumber (value.map Json.cloneSanitized) = asNumber value := by
  cases value with
  | none => rfl
  | some value => cases value <;> simp [asNumber, Json.cloneSanitized]

/-- Reading a field that is kept commutes with the copy. -/
theorem field_cloneSanitized (raw : Json) {key : String} (kept : key ∉ forbiddenKeys) :
    (asRecord (some raw.cloneSanitized)).field key =
      ((asRecord (some raw)).field key).map Json.cloneSanitized := by
  have fields := asRecord_clone (some raw)
  rw [Option.map_some] at fields
  rw [fields, field_cloneFields _ kept]

theorem length_cloneFields_le (fields : Record) :
    (Json.cloneFields fields).length ≤ fields.length := by
  induction fields with
  | nil => exact Nat.le_refl 0
  | cons entry rest ih =>
      rw [Json.cloneFields]
      split <;> simp only [List.length_cons] <;> omega

mutual

/-- A copy is the value itself exactly if nothing is left out. -/
theorem clone_eq_iff : (value : Json) → (value.cloneSanitized = value ↔ value.Clean)
  | .null | .bool _ | .num _ | .str _ => by simp [Json.cloneSanitized, Json.Clean]
  | .arr items => by
      rw [Json.cloneSanitized, Json.Clean, Json.arr.injEq]
      exact cloneItems_eq_iff items
  | .obj fields => by
      rw [Json.cloneSanitized, Json.Clean, Json.obj.injEq]
      exact cloneFields_eq_iff fields

theorem cloneItems_eq_iff : (items : List Json) →
    (Json.cloneItems items = items ↔ Json.ItemsClean items)
  | [] => by simp [Json.cloneItems, Json.ItemsClean]
  | item :: rest => by
      rw [Json.cloneItems, Json.ItemsClean, List.cons.injEq, clone_eq_iff item,
        cloneItems_eq_iff rest]

theorem cloneFields_eq_iff : (fields : List (String × Json)) →
    (Json.cloneFields fields = fields ↔ Json.FieldsClean fields)
  | [] => by simp [Json.cloneFields, Json.FieldsClean]
  | (key, value) :: rest => by
      rw [Json.cloneFields, Json.FieldsClean]
      by_cases kept : key ∈ forbiddenKeys
      · rw [if_pos (by simpa using kept)]
        refine ⟨fun same => ?_, fun clean => absurd kept clean.1⟩
        have shorter := length_cloneFields_le rest
        rw [same, List.length_cons] at shorter
        omega
      · rw [if_neg (by simpa using kept), List.cons.injEq, Prod.mk.injEq, clone_eq_iff value,
          cloneFields_eq_iff rest]
        simp [kept]

end

theorem sanitizeParsed_ok {limits : JsonLimits} {fields input : Record}
    (h : sanitizeParsed limits fields = .ok input) :
    (Json.obj fields).assertLimits limits = .ok () ∧ input = Json.cloneFields fields := by
  rw [sanitizeParsed] at h
  split at h
  · exact nomatch h
  · next within =>
      cases h
      exact ⟨within, rfl⟩

end Clone

end Gateway
