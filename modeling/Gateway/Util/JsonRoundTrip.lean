import Gateway.Util.Decimal
import Gateway.Util.Sanitize

/-!
What is written is read back.

A value that a text can carry has each key of an object once and numbers that
are decimal and do not overflow. Infinities have no text of their own: they are
written as `null`. Everything that is read can be carried.
-/

namespace Gateway

section Text

theorem hexValue_hexDigit {n : Nat} (small : n < 16) : hexValue (hexDigit n) = some n := by
  interval_cases n <;> decide

theorem unitChar_toNat (c : Char) : unitChar c.toNat = c := by
  have valid : c.toNat.isValidChar := c.valid
  rw [unitChar, if_pos valid, Char.ofNat_toNat]

theorem char_of_toNat {c d : Char} (same : c.toNat = d.toNat) : c = d := by
  rw [← Char.ofNat_toNat c, same, Char.ofNat_toNat]

/-- A character is read back from its escape, before any rest of a string. -/
theorem readString_escapeChar (c : Char) (cs : List Char) :
    readString none (escapeChar c ++ cs) = (readString none cs).map fun x => (c :: x.1, x.2) := by
  by_cases quote : c = '"'
  · subst quote
    exact readString_escaped rfl cs
  by_cases backslash : c = '\\'
  · subst backslash
    exact readString_escaped rfl cs
  by_cases backspace : c.toNat = 8
  · rw [char_of_toNat (d := Char.ofNat 8) backspace]
    exact readString_escaped rfl cs
  by_cases tab : c.toNat = 9
  · rw [char_of_toNat (d := '\t') tab]
    exact readString_escaped rfl cs
  by_cases newline : c.toNat = 10
  · rw [char_of_toNat (d := '\n') newline]
    exact readString_escaped rfl cs
  by_cases feed : c.toNat = 12
  · rw [char_of_toNat (d := Char.ofNat 12) feed]
    exact readString_escaped rfl cs
  by_cases carriage : c.toNat = 13
  · rw [char_of_toNat (d := '\r') carriage]
    exact readString_escaped rfl cs
  simp only [escapeChar, if_neg quote, if_neg backslash, if_neg backspace, if_neg tab,
    if_neg newline, if_neg feed, if_neg carriage]
  by_cases control : c.toNat < 32
  · have zero : hexValue '0' = some 0 := by decide
    have unit : hexUnit '0' '0' (hexDigit (c.toNat / 16)) (hexDigit (c.toNat % 16)) =
        some c.toNat := by
      simp only [hexUnit, zero, hexValue_hexDigit (show c.toNat / 16 < 16 by omega),
        hexValue_hexDigit (show c.toNat % 16 < 16 by omega), Option.some.injEq]
      omega
    have plain : isHighSurrogate c.toNat = false := decide_eq_false (by omega)
    rw [if_pos control]
    simp [readString, unit, plain, unitChar_toNat]
  · rw [if_neg control]
    exact readString_plain (by tauto) quote cs

theorem readString_text (s cs : List Char) :
    readString none (s.flatMap escapeChar ++ '"' :: cs) = some (s, cs) := by
  induction s with
  | nil =>
      rw [List.flatMap_nil, List.nil_append, readString, if_pos rfl] <;> simp
  | cons c s ih =>
      rw [List.flatMap_cons, List.append_assoc, readString_escapeChar, ih, Option.map_some]

end Text

namespace Json

mutual

/-- A value that a text can carry, infinities apart. -/
def Carried : Json → Prop
  | .num (.finite q) => IsNumber q
  | .arr items => ItemsCarried items
  | .obj fields => (fields.map Prod.fst).Nodup ∧ FieldsCarried fields
  | _ => True

def ItemsCarried : List Json → Prop
  | [] => True
  | item :: rest => Carried item ∧ ItemsCarried rest

def FieldsCarried : List (String × Json) → Prop
  | [] => True
  | (_, value) :: rest => Carried value ∧ FieldsCarried rest

end

mutual

/-- The value as it is written: what is no finite number is `null`. -/
def written : Json → Json
  | .num (.finite q) => .num (.finite q)
  | .num _ => .null
  | .arr items => .arr (writtenItems items)
  | .obj fields => .obj (writtenFields fields)
  | value => value

def writtenItems : List Json → List Json
  | [] => []
  | item :: rest => written item :: writtenItems rest

def writtenFields : List (String × Json) → List (String × Json)
  | [] => []
  | (key, value) :: rest => (key, written value) :: writtenFields rest

end

mutual

/-- No number that overflows and no key that is left out of a copy, at any depth. -/
def Lasting : Json → Prop
  | .num (.finite _) => True
  | .num _ => False
  | .arr items => ItemsLasting items
  | .obj fields => FieldsLasting fields
  | _ => True

def ItemsLasting : List Json → Prop
  | [] => True
  | item :: rest => Lasting item ∧ ItemsLasting rest

def FieldsLasting : List (String × Json) → Prop
  | [] => True
  | (key, value) :: rest => key ∉ forbiddenKeys ∧ Lasting value ∧ FieldsLasting rest

end

theorem writtenFields_keys (fields : List (String × Json)) :
    (writtenFields fields).map Prod.fst = fields.map Prod.fst := by
  induction fields with
  | nil => rfl
  | cons entry rest ih =>
      obtain ⟨key, value⟩ := entry
      rw [writtenFields, List.map_cons, List.map_cons, ih]

end Json

section Objects

theorem Record.has_eq (r : Record) (key : String) :
    r.has key = true ↔ key ∈ r.map Prod.fst := by
  induction r with
  | nil => simp [Record.has]
  | cons entry rest ih =>
      obtain ⟨name, value⟩ := entry
      rw [Record.has, Record.field_cons, List.map_cons, List.mem_cons]
      by_cases same : key = name
      · simp [same]
      · simpa [same, Record.has] using ih

theorem collect_append (kept entries : Record) (distinct : ((kept ++ entries).map Prod.fst).Nodup) :
    entries.foldl (fun r entry => Record.set r entry.1 entry.2) kept = kept ++ entries := by
  induction entries generalizing kept with
  | nil => simp
  | cons entry rest ih =>
      have fresh : Record.has kept entry.1 ≠ true := by
        rw [ne_eq, Record.has_eq]
        intro mem
        rw [List.map_append, List.map_cons] at distinct
        exact (List.nodup_append.mp distinct).2.2 entry.1 mem entry.1 List.mem_cons_self rfl
      rw [List.foldl_cons, Record.set, if_neg fresh,
        ih (kept ++ [(entry.1, entry.2)]) (by simpa using distinct)]
      simp

/-- The fields of an object in a text are its fields, when no key is repeated. -/
theorem collect_eq {entries : Record} (distinct : (entries.map Prod.fst).Nodup) :
    collect entries = entries :=
  collect_append [] entries distinct

end Objects

section Values

theorem stops_cons {c : Char} (other : c.isDigit = false ∧ c ≠ '.' ∧ c ≠ 'e' ∧ c ≠ 'E')
    (cs : List Char) : Stops (c :: cs) := by
  intro d mem
  cases Option.some.inj mem
  exact other

theorem solid_of_number {c : Char} (number : c.isDigit = true ∨ c = '-') :
    isJsonSpace c = false ∧ c ≠ ']' ∧ c ≠ '}' := by
  have other (d : Char) (not_number : ¬(d.isDigit = true ∨ d = '-')) : c ≠ d := by
    rintro rfl
    exact not_number number
  refine ⟨?_, other ']' (by decide), other '}' (by decide)⟩
  simp [isJsonSpace, other ' ' (by decide), other '\t' (by decide), other '\n' (by decide),
    other '\r' (by decide)]

/-- The first character of a text is no space and no bracket that closes. -/
theorem valueText_head {value : Json} (carried : value.Carried) :
    ∃ c rest, valueText value = c :: rest ∧ isJsonSpace c = false ∧ c ≠ ']' ∧ c ≠ '}' := by
  have plain (c : Char) (rest : List Char) (solid : isJsonSpace c = false ∧ c ≠ ']' ∧ c ≠ '}') :
      ∃ d more, c :: rest = d :: more ∧ isJsonSpace d = false ∧ d ≠ ']' ∧ d ≠ '}' :=
    ⟨c, rest, rfl, solid⟩
  cases value with
  | null => exact plain 'n' _ (by decide)
  | bool value => cases value <;> exact plain _ _ (by decide)
  | num n =>
      cases n with
      | finite q =>
          rw [Json.Carried] at carried
          obtain ⟨-, c, rest, same, number⟩ := @numberText_reads q [] carried (by simp [Stops])
          exact ⟨c, rest, by rw [valueText, same], solid_of_number (number.imp_right And.left)⟩
      | _ => exact plain 'n' _ (by decide)
  | str s => exact plain '"' _ (by decide)
  | arr items => exact plain '[' _ (by decide)
  | obj fields => exact plain '{' _ (by decide)

theorem itemsText_cons (item next : Json) (rest : List Json) :
    itemsText (item :: next :: rest) = valueText item ++ ',' :: itemsText (next :: rest) := rfl

theorem fieldsText_cons (key name : String) (value other : Json) (rest : List (String × Json)) :
    fieldsText ((key, value) :: (name, other) :: rest) =
      quote key ++ ':' :: (valueText value ++ ',' :: fieldsText ((name, other) :: rest)) := rfl

theorem itemsText_head {item : Json} {rest : List Json} (carried : Json.ItemsCarried (item :: rest)) :
    ∃ c text, itemsText (item :: rest) = c :: text ∧ isJsonSpace c = false ∧ c ≠ ']' ∧ c ≠ '}' := by
  obtain ⟨c, text, same, solid⟩ := valueText_head carried.1
  cases rest with
  | nil => exact ⟨c, text, same, solid⟩
  | cons next rest =>
      exact ⟨c, text ++ ',' :: itemsText (next :: rest), by rw [itemsText_cons, same]; rfl, solid⟩

theorem fieldsText_head (entry : String × Json) (rest : List (String × Json)) :
    ∃ text, fieldsText (entry :: rest) = '"' :: text := by
  cases rest with
  | nil => exact ⟨_, rfl⟩
  | cons next rest => exact ⟨_, rfl⟩

theorem readString_quote (key : String) (cs : List Char) :
    ∃ text, quote key ++ cs = '"' :: text ∧ readString none text = some (key.toList, cs) := by
  exact ⟨key.toList.flatMap escapeChar ++ '"' :: cs, by simp [quote],
    readString_text key.toList cs⟩

theorem one_le_of_enough {value : Json} {fuel : Nat} (carried : value.Carried)
    (enough : 2 * (valueText value).length ≤ fuel + 1) : 1 ≤ fuel := by
  obtain ⟨c, rest, same, -⟩ := valueText_head carried
  rw [same, List.length_cons] at enough
  omega

theorem readItems_last {fuel : Nat} {cs ext : List Char} {item : Json}
    (head : readValue fuel cs = some (item, ']' :: ext)) :
    readItems (fuel + 1) cs = some ([item], ext) := by
  simp only [readItems, head, skipSpace_cons (show isJsonSpace ']' = false by decide)]

theorem readItems_next {fuel : Nat} {cs rest : List Char} {item : Json}
    (head : readValue fuel cs = some (item, ',' :: rest)) :
    readItems (fuel + 1) cs = (readItems fuel rest).map fun x => (item :: x.1, x.2) := by
  simp only [readItems, head, skipSpace_cons (show isJsonSpace ',' = false by decide)]

section Fields

variable {fuel : Nat} {cs rest : List Char} {value : Json} {key : String}

theorem readFields_last (head : readValue fuel cs = some (value, '}' :: rest)) :
    readFields (fuel + 1) (quote key ++ ':' :: cs) = some ([(key, value)], rest) := by
  obtain ⟨text, opened, named⟩ := readString_quote key (':' :: cs)
  rw [opened]
  simp only [readFields, skipSpace_cons (show isJsonSpace '"' = false by decide), named,
    skipSpace_cons (show isJsonSpace ':' = false by decide), head,
    skipSpace_cons (show isJsonSpace '}' = false by decide), String.ofList_toList]

theorem readFields_next (head : readValue fuel cs = some (value, ',' :: rest)) :
    readFields (fuel + 1) (quote key ++ ':' :: cs) =
      (readFields fuel rest).map fun x => ((key, value) :: x.1, x.2) := by
  obtain ⟨text, opened, named⟩ := readString_quote key (':' :: cs)
  rw [opened]
  simp only [readFields, skipSpace_cons (show isJsonSpace '"' = false by decide), named,
    skipSpace_cons (show isJsonSpace ':' = false by decide), head,
    skipSpace_cons (show isJsonSpace ',' = false by decide), String.ofList_toList]

end Fields

mutual

/-- The text of a value is read as the value that it writes. -/
theorem readValue_valueText : (value : Json) → value.Carried → ∀ fuel ext, Stops ext →
    2 * (valueText value).length ≤ fuel + 1 →
    readValue fuel (valueText value ++ ext) = some (value.written, ext)
  | .null, carried, fuel, ext, _, enough => by
      obtain ⟨fuel, rfl⟩ := Nat.exists_eq_add_of_le' (one_le_of_enough carried enough)
      rfl
  | .bool true, carried, fuel, ext, _, enough => by
      obtain ⟨fuel, rfl⟩ := Nat.exists_eq_add_of_le' (one_le_of_enough carried enough)
      rfl
  | .bool false, carried, fuel, ext, _, enough => by
      obtain ⟨fuel, rfl⟩ := Nat.exists_eq_add_of_le' (one_le_of_enough carried enough)
      rfl
  | .num n, carried, fuel, ext, stops, enough => by
      obtain ⟨fuel, rfl⟩ := Nat.exists_eq_add_of_le' (one_le_of_enough carried enough)
      cases n with
      | finite q =>
          rw [Json.Carried] at carried
          obtain ⟨read, c, rest, same, sign⟩ := numberText_reads carried stops
          have number := sign.imp_right And.left
          rw [valueText, Json.written]
          rw [same, List.cons_append] at read ⊢
          rw [readValue_number (skipSpace_cons (solid_of_number number).1 _) number, read,
            Option.map_some]
      | _ => rfl
  | .str s, carried, fuel, ext, _, enough => by
      obtain ⟨fuel, rfl⟩ := Nat.exists_eq_add_of_le' (one_le_of_enough carried enough)
      obtain ⟨text, opened, read⟩ := readString_quote s ext
      rw [valueText, opened, readValue_string (skipSpace_cons (by decide) text), read,
        Option.map_some, String.ofList_toList]
      rfl
  | .arr items, carried, fuel, ext, _, enough => by
      obtain ⟨fuel, rfl⟩ := Nat.exists_eq_add_of_le' (one_le_of_enough carried enough)
      rw [valueText, List.length_cons, List.length_append, List.length_singleton] at enough
      rw [valueText, List.cons_append, List.append_assoc, List.singleton_append]
      have opened := skipSpace_cons (show isJsonSpace '[' = false by decide)
        (itemsText items ++ ']' :: ext)
      cases items with
      | nil => exact readValue_emptyArray opened (skipSpace_cons (by decide) ext)
      | cons item rest =>
          rw [Json.Carried] at carried
          have read := readItems_itemsText (item :: rest) (by simp) carried fuel ext (by omega)
          obtain ⟨c, text, same, solid, other, -⟩ := itemsText_head carried
          rw [same, List.cons_append] at opened read ⊢
          rw [readValue_array opened (skipSpace_cons solid _) other, read, Option.map_some,
            Json.written]
  | .obj fields, carried, fuel, ext, _, enough => by
      obtain ⟨fuel, rfl⟩ := Nat.exists_eq_add_of_le' (one_le_of_enough carried enough)
      rw [valueText, List.length_cons, List.length_append, List.length_singleton] at enough
      rw [valueText, List.cons_append, List.append_assoc, List.singleton_append]
      have opened := skipSpace_cons (show isJsonSpace '{' = false by decide)
        (fieldsText fields ++ '}' :: ext)
      cases fields with
      | nil => exact readValue_emptyObject opened (skipSpace_cons (by decide) ext)
      | cons entry rest =>
          rw [Json.Carried] at carried
          have read := readFields_fieldsText (entry :: rest) (by simp) carried.2 fuel ext (by omega)
          have distinct : ((Json.writtenFields (entry :: rest)).map Prod.fst).Nodup := by
            rw [Json.writtenFields_keys]
            exact carried.1
          obtain ⟨text, same⟩ := fieldsText_head entry rest
          rw [same, List.cons_append] at opened read ⊢
          rw [readValue_object opened (skipSpace_cons (by decide) _) (by decide), read,
            Option.map_some, collect_eq distinct, Json.written]

theorem readItems_itemsText : (items : List Json) → items ≠ [] → Json.ItemsCarried items →
    ∀ fuel ext, 2 * (itemsText items).length + 1 ≤ fuel →
    readItems fuel (itemsText items ++ ']' :: ext) = some (Json.writtenItems items, ext)
  | [], nonempty, _, _, _, _ => absurd rfl nonempty
  | [item], _, carried, fuel, ext, enough => by
      obtain ⟨fuel, rfl⟩ := Nat.exists_eq_add_of_le' (Nat.le_of_add_left_le enough)
      have head := readValue_valueText item carried.1
      rw [itemsText] at enough ⊢
      exact readItems_last (head fuel (']' :: ext) (stops_cons (by decide) ext) (by omega))
  | item :: next :: rest, _, carried, fuel, ext, enough => by
      obtain ⟨fuel, rfl⟩ := Nat.exists_eq_add_of_le' (Nat.le_of_add_left_le enough)
      have head := readValue_valueText item carried.1
      have tail := readItems_itemsText (next :: rest) (by simp) carried.2
      rw [itemsText_cons, List.length_append, List.length_cons] at enough
      rw [itemsText_cons, List.append_assoc, List.cons_append,
        readItems_next (head fuel _ (stops_cons (by decide) _) (by omega)),
        tail fuel ext (by omega)]
      rfl

theorem readFields_fieldsText : (fields : List (String × Json)) → fields ≠ [] →
    Json.FieldsCarried fields → ∀ fuel ext, 2 * (fieldsText fields).length + 1 ≤ fuel →
    readFields fuel (fieldsText fields ++ '}' :: ext) = some (Json.writtenFields fields, ext)
  | [], nonempty, _, _, _, _ => absurd rfl nonempty
  | [(key, value)], _, carried, fuel, ext, enough => by
      obtain ⟨fuel, rfl⟩ := Nat.exists_eq_add_of_le' (Nat.le_of_add_left_le enough)
      have head := readValue_valueText value carried.1
      rw [fieldsText, List.length_append, List.length_cons] at enough
      rw [fieldsText, List.append_assoc, List.cons_append]
      exact readFields_last (head fuel ('}' :: ext) (stops_cons (by decide) ext) (by omega))
  | (key, value) :: (name, other) :: rest, _, carried, fuel, ext, enough => by
      obtain ⟨fuel, rfl⟩ := Nat.exists_eq_add_of_le' (Nat.le_of_add_left_le enough)
      have head := readValue_valueText value carried.1
      have tail := readFields_fieldsText ((name, other) :: rest) (by simp) carried.2
      rw [fieldsText_cons, List.length_append, List.length_cons, List.length_append,
        List.length_cons] at enough
      rw [fieldsText_cons, List.append_assoc, List.cons_append, List.append_assoc,
        List.cons_append, readFields_next (head fuel _ (stops_cons (by decide) _) (by omega)),
        tail fuel ext (by omega)]
      rfl

end

/-- What is written is read as it is written. -/
theorem jsonParse_jsonStringify {value : Json} (carried : value.Carried) :
    jsonParse (jsonStringify value) = some value.written := by
  have read := readValue_valueText value carried (2 * (valueText value).length + 2) []
    (by simp [Stops]) (by omega)
  rw [List.append_nil] at read
  simp [jsonParse, jsonStringify, read, skipSpace]

end Values

section Parsed

theorem fieldsCarried_mem {fields : Record} (carried : Json.FieldsCarried fields) {key : String}
    {value : Json} (mem : (key, value) ∈ fields) : value.Carried := by
  induction fields with
  | nil => exact absurd mem List.not_mem_nil
  | cons entry rest ih =>
      rcases List.mem_cons.mp mem with rfl | mem
      · exact carried.1
      · exact ih carried.2 mem

theorem itemsCarried_mem {items : List Json} (carried : Json.ItemsCarried items) {item : Json}
    (mem : item ∈ items) : item.Carried := by
  induction items with
  | nil => exact absurd mem List.not_mem_nil
  | cons first rest ih =>
      cases List.mem_cons.mp mem with
      | inl same => exact same ▸ carried.1
      | inr later => exact ih carried.2 later

theorem Record.mem_of_field {r : Record} {key : String} {value : Json}
    (found : r.field key = some value) : (key, value) ∈ r := by
  induction r with
  | nil => exact nomatch found
  | cons entry rest ih =>
      obtain ⟨name, first⟩ := entry
      rw [Record.field_cons] at found
      split at found
      · next same =>
          cases found
          exact same ▸ List.mem_cons_self
      · exact List.mem_cons_of_mem _ (ih found)

/-- The parts of a value that a text can carry are carried. -/
theorem Json.Carried.field {raw value : Json} (carried : raw.Carried) {key : String}
    (found : (asRecord (some raw)).field key = some value) : value.Carried := by
  cases raw with
  | obj fields =>
      exact fieldsCarried_mem carried.2 (Record.mem_of_field found)
  | _ => exact nomatch found

theorem Json.Carried.item {raw item : Json} (carried : raw.Carried)
    (mem : item ∈ asArray (some raw)) : item.Carried := by
  cases raw with
  | arr items => exact itemsCarried_mem carried mem
  | _ => exact absurd mem List.not_mem_nil

theorem fieldsCarried_of_mem {fields : Record}
    (carried : ∀ entry ∈ fields, entry.2.Carried) : Json.FieldsCarried fields := by
  induction fields with
  | nil => trivial
  | cons entry rest ih =>
      exact ⟨carried entry List.mem_cons_self,
        ih fun other mem => carried other (List.mem_cons_of_mem _ mem)⟩

/-- Assigning fields keeps each key once. -/
theorem carried_set {fields : Record} (carried : (Json.obj fields).Carried) (key : String)
    {value : Json} (here : value.Carried) : (Json.obj (Record.set fields key value)).Carried := by
  rw [Json.Carried] at carried ⊢
  rw [Record.set]
  split
  · have same_keys : (fields.map fun entry => if entry.1 = key then (key, value) else entry).map
        Prod.fst = fields.map Prod.fst := by
      rw [List.map_map]
      refine List.map_congr_left fun entry _ => ?_
      by_cases same : entry.1 = key <;> simp [same]
    refine ⟨same_keys ▸ carried.1, fieldsCarried_of_mem fun entry mem => ?_⟩
    obtain ⟨old, old_mem, rfl⟩ := List.mem_map.mp mem
    by_cases same : old.1 = key
    · simpa [same] using here
    · simpa [same] using fieldsCarried_mem carried.2 old_mem
  · next fresh =>
      refine ⟨?_, fieldsCarried_of_mem fun entry mem => ?_⟩
      · rw [List.map_append, List.nodup_append]
        refine ⟨carried.1, by simp, fun name mem other last => ?_⟩
        rintro rfl
        rw [List.map_singleton, List.mem_singleton] at last
        exact fresh ((Record.has_eq fields key).mpr (by rwa [last] at mem))
      · rcases List.mem_append.mp mem with old | new
        · exact fieldsCarried_mem carried.2 old
        · rw [List.mem_singleton.mp new]
          exact here

theorem carried_collect {entries : Record} (carried : Json.FieldsCarried entries) :
    (Json.obj (collect entries)).Carried := by
  have run (kept : Record) (kept_carried : (Json.obj kept).Carried) :
      (Json.obj (entries.foldl (fun r entry => Record.set r entry.1 entry.2) kept)).Carried := by
    induction entries generalizing kept with
    | nil => exact kept_carried
    | cons entry rest ih => exact ih carried.2 _ (carried_set kept_carried entry.1 carried.1)
  exact run [] (by simp [Json.Carried, Json.FieldsCarried])

/-- What the readers return can be carried by a text. -/
theorem read_carried (fuel : Nat) :
    (∀ cs value rest, readValue fuel cs = some (value, rest) → value.Carried) ∧
    (∀ cs items rest, readItems fuel cs = some (items, rest) → Json.ItemsCarried items) ∧
    (∀ cs entries rest, readFields fuel cs = some (entries, rest) →
      Json.FieldsCarried entries) := by
  induction fuel with
  | zero =>
      refine ⟨fun _ _ _ h => ?_, fun _ _ _ h => ?_, fun _ _ _ h => ?_⟩
      · cases h
      · cases h
      · cases h
  | succ fuel ih =>
      obtain ⟨value_carried, items_carried, fields_carried⟩ := ih
      refine ⟨fun cs value rest h => ?_, fun cs items rest h => ?_, fun cs entries rest h => ?_⟩
      · rw [readValue] at h
        split at h
        · split at h
          · cases h
            simp [Json.Carried, Json.FieldsCarried]
          · obtain ⟨⟨entries, after⟩, found, pair⟩ := Option.map_eq_some_iff.mp h
            cases pair
            exact carried_collect (fields_carried _ _ _ found)
        · split at h
          · cases h
            trivial
          · obtain ⟨⟨items, after⟩, found, pair⟩ := Option.map_eq_some_iff.mp h
            cases pair
            exact items_carried _ _ _ found
        · obtain ⟨text, -, pair⟩ := Option.map_eq_some_iff.mp h
          cases pair
          trivial
        · cases h
          trivial
        · cases h
          trivial
        · cases h
          trivial
        · obtain ⟨⟨n, after⟩, found, pair⟩ := Option.map_eq_some_iff.mp h
          cases pair
          cases n with
          | finite q => exact readNumber_isNumber found
          | _ => trivial
      · rw [readItems] at h
        split at h
        · cases h
        · next head =>
            have item_carried := value_carried _ _ _ head
            split at h
            · obtain ⟨⟨more, after⟩, found, pair⟩ := Option.map_eq_some_iff.mp h
              cases pair
              exact ⟨item_carried, items_carried _ _ _ found⟩
            · cases h
              exact ⟨item_carried, trivial⟩
            · cases h
      · rw [readFields] at h
        split at h
        · split at h
          · cases h
          · split at h
            · split at h
              · cases h
              · next head =>
                  have field_carried := value_carried _ _ _ head
                  split at h
                  · obtain ⟨⟨more, after⟩, found, pair⟩ := Option.map_eq_some_iff.mp h
                    cases pair
                    exact ⟨field_carried, fields_carried _ _ _ found⟩
                  · cases h
                    exact ⟨field_carried, trivial⟩
                  · cases h
            · cases h
        · cases h

theorem carried_of_parse {text : String} {value : Json} (h : jsonParse text = some value) :
    value.Carried := by
  rw [jsonParse] at h
  split at h
  · next found =>
      split at h
      · cases h
        exact (read_carried _).1 _ _ _ found
      · cases h
  · cases h

end Parsed

section Copy

mutual

theorem written_clone_iff : (value : Json) → (value.cloneSanitized.written = value ↔ value.Lasting)
  | .null => by simp [Json.cloneSanitized, Json.written, Json.Lasting]
  | .bool _ => by simp [Json.cloneSanitized, Json.written, Json.Lasting]
  | .num n => by cases n <;> simp [Json.cloneSanitized, Json.written, Json.Lasting]
  | .str _ => by simp [Json.cloneSanitized, Json.written, Json.Lasting]
  | .arr items => by
      rw [Json.cloneSanitized, Json.written, Json.Lasting, Json.arr.injEq]
      exact writtenItems_clone_iff items
  | .obj fields => by
      rw [Json.cloneSanitized, Json.written, Json.Lasting, Json.obj.injEq]
      exact writtenFields_clone_iff fields

theorem writtenItems_clone_iff : (items : List Json) →
    (Json.writtenItems (Json.cloneItems items) = items ↔ Json.ItemsLasting items)
  | [] => by simp [Json.cloneItems, Json.writtenItems, Json.ItemsLasting]
  | item :: rest => by
      rw [Json.cloneItems, Json.writtenItems, Json.ItemsLasting, List.cons.injEq,
        written_clone_iff item, writtenItems_clone_iff rest]

theorem writtenFields_clone_iff : (fields : List (String × Json)) →
    (Json.writtenFields (Json.cloneFields fields) = fields ↔ Json.FieldsLasting fields)
  | [] => by simp [Json.cloneFields, Json.writtenFields, Json.FieldsLasting]
  | (key, value) :: rest => by
      rw [Json.cloneFields, Json.FieldsLasting]
      by_cases kept : key ∈ forbiddenKeys
      · rw [if_pos (by simpa using kept)]
        refine ⟨fun same => ?_, fun lasting => absurd kept lasting.1⟩
        have shorter := length_cloneFields_le rest
        have length := congrArg (fun fields => (fields.map Prod.fst).length) same
        rw [Json.writtenFields_keys, List.length_map, List.length_map, List.length_cons] at length
        omega
      · rw [if_neg (by simpa using kept), Json.writtenFields, List.cons.injEq, Prod.mk.injEq,
          written_clone_iff value, writtenFields_clone_iff rest]
        simp [kept]

end

theorem cloneFields_keys (fields : Record) :
    ((Json.cloneFields fields).map Prod.fst).Sublist (fields.map Prod.fst) := by
  induction fields with
  | nil => exact List.Sublist.slnil
  | cons entry rest ih =>
      obtain ⟨key, value⟩ := entry
      rw [Json.cloneFields, List.map_cons]
      split
      · exact ih.cons key
      · exact ih.cons_cons key

mutual

theorem carried_clone : (value : Json) → value.Carried → value.cloneSanitized.Carried
  | .null, _ => trivial
  | .bool _, _ => trivial
  | .num _, carried => carried
  | .str _, _ => trivial
  | .arr items, carried => itemsCarried_clone items carried
  | .obj fields, carried =>
      ⟨carried.1.sublist (cloneFields_keys fields), fieldsCarried_clone fields carried.2⟩

theorem itemsCarried_clone : (items : List Json) → Json.ItemsCarried items →
    Json.ItemsCarried (Json.cloneItems items)
  | [], _ => trivial
  | item :: rest, carried => ⟨carried_clone item carried.1, itemsCarried_clone rest carried.2⟩

theorem fieldsCarried_clone : (fields : List (String × Json)) → Json.FieldsCarried fields →
    Json.FieldsCarried (Json.cloneFields fields)
  | [], _ => trivial
  | (key, value) :: rest, carried => by
      rw [Json.cloneFields]
      split
      · exact fieldsCarried_clone rest carried.2
      · exact ⟨carried_clone value carried.1, fieldsCarried_clone rest carried.2⟩

end

/-- A value that came from a text comes back from its copy as it was, or something
in it is left out. -/
theorem jsonParse_clone_iff {value : Json} (carried : value.Carried) :
    jsonParse (jsonStringify value.cloneSanitized) = some value ↔ value.Lasting := by
  rw [jsonParse_jsonStringify (carried_clone value carried), Option.some.injEq, written_clone_iff]

end Copy

end Gateway
