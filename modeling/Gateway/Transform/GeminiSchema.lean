import Gateway.Transform.GeminiRequest

/-!
The schemas inside a schema, and what becomes of them for Gemini.

A schema has a schema at each of its property names and one for its items. What is
sent has exactly the positions within the depth limit, each with a type and none
but the accepted keywords, and is not changed by being reduced again.
-/

namespace Gateway

/-- One level of the way to a schema. -/
inductive SchemaStep where
  | property (name : String)
  | items
deriving DecidableEq, Repr

/-- A schema with the way to it. -/
abbrev Placed := List SchemaStep × Json

def Placed.below (step : SchemaStep) (placed : Placed) : Placed := (step :: placed.1, placed.2)

mutual

/-- The schemas of a value, itself first, in order. -/
def schemasOf : Json → List Placed
  | .obj fields => ([], .obj fields) :: fieldSchemas fields
  | value => [([], value)]

/-- Only an object map under `properties` holds schemas; what is under `items` is one. -/
def fieldSchemas : List (String × Json) → List Placed
  | [] => []
  | ("properties", .obj children) :: rest => propertySchemas children ++ fieldSchemas rest
  | (key, value) :: rest =>
      (if key = "items" then (schemasOf value).map (Placed.below .items) else []) ++
        fieldSchemas rest

def propertySchemas : List (String × Json) → List Placed
  | [] => []
  | (name, child) :: rest =>
      (schemasOf child).map (Placed.below (.property name)) ++ propertySchemas rest

end

/-- An object with accepted keywords only, one of which is the type. -/
def Accepted (schema : Json) : Prop :=
  ∃ fields : Record, schema = .obj fields ∧ (∀ entry ∈ fields, entry.1 ∈ schemaKeywords) ∧
    fields.has "type" = true

def positions (list : List Placed) : List (List SchemaStep) := list.map Prod.fst

/-- The positions that a reduction at a depth walks to. -/
def withinDepth (maxDepth depth : Nat) (position : List SchemaStep) : Bool :=
  decide (position = [] ∨ depth + position.length ≤ maxDepth + 1)

section Placing

@[simp]
theorem positions_append (first rest : List Placed) :
    positions (first ++ rest) = positions first ++ positions rest := List.map_append

@[simp]
theorem positions_below (step : SchemaStep) (list : List Placed) :
    positions (list.map (Placed.below step)) = (positions list).map (List.cons step) := by
  rw [positions, positions, List.map_map, List.map_map]
  rfl

/-- A field that holds no object map under `properties`. -/
def Ordinary (key : String) (value : Json) : Prop :=
  ∀ children, key = "properties" → value = .obj children → False

theorem exists_children {key : String} {value : Json} (map : ¬Ordinary key value) :
    ∃ children, key = "properties" ∧ value = .obj children := by
  simpa only [Ordinary, not_forall, not_false_eq_true, exists_prop, and_true] using map

theorem items_ordinary (value : Json) : Ordinary "items" value := by
  intro children h
  simp at h

theorem type_ordinary (value : Json) : Ordinary "type" value := by
  intro children h
  simp at h

theorem fieldSchemas_ordinary {key : String} {value : Json} (ordinary : Ordinary key value)
    (rest : Record) :
    fieldSchemas ((key, value) :: rest) =
      (if key = "items" then (schemasOf value).map (Placed.below .items) else []) ++
        fieldSchemas rest := by
  rw [fieldSchemas]
  exact ordinary

theorem schemaFields_ordinary {key : String} {value : Json} (ordinary : Ordinary key value)
    (maxDepth depth : Nat) (rest : Record) :
    schemaFields maxDepth depth ((key, value) :: rest) =
      if key = "items" then
        ("items", toGeminiSchema maxDepth (depth + 1) value) :: schemaFields maxDepth depth rest
      else if schemaKeywords.contains key then (key, value) :: schemaFields maxDepth depth rest
      else schemaFields maxDepth depth rest := by
  rw [schemaFields]
  exact ordinary

theorem schemasOf_leaf {value : Json} (leaf : ∀ fields, value = .obj fields → False) :
    schemasOf value = [([], value)] := by
  rw [schemasOf]
  exact leaf

theorem propertyPosition_ne_nil (children : Record) :
    ∀ position ∈ positions (propertySchemas children), position ≠ [] := by
  induction children with
  | nil => simp [propertySchemas, positions]
  | cons child rest ih =>
      rw [propertySchemas, positions_append, positions_below, List.forall_mem_append,
        List.forall_mem_map]
      exact ⟨fun position _ => List.cons_ne_nil _ _, ih⟩

/-- No schema below another one is at the empty position. -/
theorem position_ne_nil (fields : Record) :
    ∀ position ∈ positions (fieldSchemas fields), position ≠ [] := by
  induction fields with
  | nil => simp [fieldSchemas, positions]
  | cons field rest ih =>
      obtain ⟨key, value⟩ := field
      by_cases ordinary : Ordinary key value
      · rw [fieldSchemas_ordinary ordinary, positions_append, List.forall_mem_append]
        refine ⟨?_, ih⟩
        split
        · rw [positions_below, List.forall_mem_map]
          exact fun position _ => List.cons_ne_nil _ _
        · simp [positions]
      · obtain ⟨children, rfl, rfl⟩ := exists_children ordinary
        rw [fieldSchemas, positions_append, List.forall_mem_append]
        exact ⟨propertyPosition_ne_nil children, ih⟩

@[simp]
theorem schemasOf_typeOnly : schemasOf (.obj [("type", .str "object")]) =
    [([], .obj [("type", .str "object")])] := by
  rw [schemasOf, fieldSchemas_ordinary (type_ordinary _), fieldSchemas]
  rfl

theorem accepted_typeOnly : Accepted (.obj [("type", .str "object")]) :=
  ⟨_, rfl, by simp [schemaKeywords], rfl⟩

/-- An entry for the type holds no schemas. -/
theorem fieldSchemas_append_type (fields : Record) (value : Json) :
    fieldSchemas (fields ++ [("type", value)]) = fieldSchemas fields := by
  induction fields with
  | nil =>
      rw [List.nil_append, fieldSchemas_ordinary (type_ordinary value)]
      rfl
  | cons field rest ih =>
      obtain ⟨key, inner⟩ := field
      rw [List.cons_append]
      by_cases ordinary : Ordinary key inner
      · rw [fieldSchemas_ordinary ordinary, fieldSchemas_ordinary ordinary, ih]
      · obtain ⟨children, rfl, rfl⟩ := exists_children ordinary
        rw [fieldSchemas, fieldSchemas, ih]

theorem schemaFields_append_type (maxDepth depth : Nat) (fields : Record) (value : Json) :
    schemaFields maxDepth depth (fields ++ [("type", value)]) =
      schemaFields maxDepth depth fields ++ [("type", value)] := by
  induction fields with
  | nil =>
      rw [List.nil_append, schemaFields_ordinary (type_ordinary value)]
      rfl
  | cons field rest ih =>
      obtain ⟨key, inner⟩ := field
      rw [List.cons_append]
      by_cases ordinary : Ordinary key inner
      · rw [schemaFields_ordinary ordinary, schemaFields_ordinary ordinary, ih]
        split
        · rfl
        · split <;> rfl
      · obtain ⟨children, rfl, rfl⟩ := exists_children ordinary
        rw [schemaFields, schemaFields, ih, List.cons_append]

theorem fieldSchemas_withType (fields : Record) :
    fieldSchemas (withType fields) = fieldSchemas fields := by
  rw [withType]
  split
  · rfl
  · exact fieldSchemas_append_type fields _

theorem has_append_type (fields : Record) (value : Json) :
    Record.has (fields ++ [("type", value)]) "type" = true := by
  rw [Record.has, Record.field, List.lookup_append]
  cases List.lookup "type" fields with
  | none => rfl
  | some first => rfl

theorem clean_type : Json.FieldsClean [("type", .str "object")] :=
  ⟨by simp [forbiddenKeys], trivial, trivial⟩

theorem fieldsClean_append {first rest : Record} (clean : Json.FieldsClean first)
    (clean_rest : Json.FieldsClean rest) : Json.FieldsClean (first ++ rest) := by
  induction first with
  | nil => exact clean_rest
  | cons field more ih => exact ⟨clean.1, clean.2.1, ih clean.2.2⟩

theorem withType_has (fields : Record) : (withType fields).has "type" = true := by
  rw [withType]
  split
  · next given => exact given
  · exact has_append_type fields _

theorem withType_again (fields : Record) : withType (withType fields) = withType fields := by
  rw [withType, if_pos (withType_has fields)]

theorem mem_withType {fields : Record} {entry : String × Json} (mem : entry ∈ withType fields) :
    entry ∈ fields ∨ entry = ("type", .str "object") := by
  rw [withType] at mem
  split at mem
  · exact .inl mem
  · exact (List.mem_append.mp mem).imp_right List.mem_singleton.mp

end Placing

section Reduction

variable (maxDepth : Nat)

theorem toGeminiSchema_deep {depth : Nat} {fields : Record} (deep : maxDepth < depth) :
    toGeminiSchema maxDepth depth (.obj fields) = .obj [("type", .str "object")] := by
  rw [toGeminiSchema, if_pos deep]

theorem toGeminiSchema_walked {depth : Nat} {fields : Record} (within : ¬maxDepth < depth) :
    toGeminiSchema maxDepth depth (.obj fields) =
      .obj (withType (schemaFields maxDepth depth fields)) := by
  rw [toGeminiSchema, if_neg within]

theorem toGeminiSchema_malformed {depth : Nat} {value : Json}
    (malformed : ∀ fields, value = .obj fields → False) :
    toGeminiSchema maxDepth depth value = .obj [("type", .str "object")] := by
  rw [toGeminiSchema]
  exact malformed

/-- Every schema of a reduced one is accepted: by the recursion, a level at a time. -/
theorem reduction_accepted :
    (∀ depth value, ∀ placed ∈ schemasOf (toGeminiSchema maxDepth depth value),
      Accepted placed.2) ∧
    (∀ depth fields, (∀ entry ∈ schemaFields maxDepth depth fields, entry.1 ∈ schemaKeywords) ∧
      ∀ placed ∈ fieldSchemas (schemaFields maxDepth depth fields), Accepted placed.2) ∧
    ∀ depth children, ∀ placed ∈ propertySchemas (schemaProperties maxDepth depth children),
      Accepted placed.2 := by
  apply toGeminiSchema.mutual_induct maxDepth
  case case1 =>
      intro depth fields deep
      rw [toGeminiSchema_deep maxDepth deep, schemasOf_typeOnly, List.forall_mem_singleton]
      exact accepted_typeOnly
  case case2 =>
      intro depth fields within ih
      rw [toGeminiSchema_walked maxDepth within, schemasOf, List.forall_mem_cons,
        fieldSchemas_withType]
      refine ⟨⟨_, rfl, ?_, withType_has _⟩, ih.2⟩
      intro entry mem
      cases mem_withType mem with
      | inl kept => exact ih.1 entry kept
      | inr added =>
          rw [added]
          simp [schemaKeywords]
  case case3 =>
      intro value depth malformed
      rw [toGeminiSchema_malformed maxDepth malformed, schemasOf_typeOnly,
        List.forall_mem_singleton]
      exact accepted_typeOnly
  case case4 =>
      intro depth
      simp [schemaFields, fieldSchemas]
  case case5 =>
      intro depth children rest ih_children ih_rest
      rw [schemaFields, fieldSchemas, List.forall_mem_cons, List.forall_mem_append]
      exact ⟨⟨by simp [schemaKeywords], ih_rest.1⟩, ih_children, ih_rest.2⟩
  case case6 =>
      intro depth value rest ordinary ih_value ih_rest
      rw [schemaFields_ordinary ordinary, if_pos rfl, fieldSchemas_ordinary (items_ordinary _), if_pos rfl,
        List.forall_mem_cons, List.forall_mem_append, List.forall_mem_map]
      exact ⟨⟨by simp [schemaKeywords], ih_rest.1⟩, ih_value, ih_rest.2⟩
  case case7 =>
      intro depth key value rest ordinary other keyword ih_rest
      rw [schemaFields_ordinary ordinary, if_neg other, if_pos keyword, fieldSchemas_ordinary ordinary,
        if_neg other, List.nil_append, List.forall_mem_cons]
      exact ⟨⟨by simpa using keyword, ih_rest.1⟩, ih_rest.2⟩
  case case8 =>
      intro depth key value rest ordinary other unknown ih_rest
      rw [schemaFields_ordinary ordinary, if_neg other, if_neg unknown]
      exact ih_rest
  case case9 =>
      intro depth
      simp [schemaProperties, propertySchemas]
  case case10 =>
      intro depth name child rest ih_child ih_rest
      rw [schemaProperties, propertySchemas, List.forall_mem_append, List.forall_mem_map]
      exact ⟨ih_child, ih_rest⟩

/-- Reducing twice is reducing once. -/
theorem reduction_stable :
    (∀ depth value, toGeminiSchema maxDepth depth (toGeminiSchema maxDepth depth value) =
      toGeminiSchema maxDepth depth value) ∧
    (∀ depth fields, schemaFields maxDepth depth (schemaFields maxDepth depth fields) =
      schemaFields maxDepth depth fields) ∧
    ∀ depth children, schemaProperties maxDepth depth (schemaProperties maxDepth depth children) =
      schemaProperties maxDepth depth children := by
  have type_only : ∀ depth, toGeminiSchema maxDepth depth (.obj [("type", .str "object")]) =
      .obj [("type", .str "object")] := by
    intro depth
    by_cases deep : maxDepth < depth
    · exact toGeminiSchema_deep maxDepth deep
    · rw [toGeminiSchema_walked maxDepth deep, schemaFields_ordinary (type_ordinary _)]
      rfl
  apply toGeminiSchema.mutual_induct maxDepth
  case case1 =>
      intro depth fields deep
      rw [toGeminiSchema_deep maxDepth deep, type_only]
  case case2 =>
      intro depth fields within ih
      rw [toGeminiSchema_walked maxDepth within, toGeminiSchema_walked maxDepth within]
      have again : schemaFields maxDepth depth (withType (schemaFields maxDepth depth fields)) =
          withType (schemaFields maxDepth depth fields) := by
        rw [withType]
        split
        · exact ih
        · rw [schemaFields_append_type, ih]
      rw [again, withType_again]
  case case3 =>
      intro value depth malformed
      rw [toGeminiSchema_malformed maxDepth malformed, type_only]
  case case4 =>
      intro depth
      rfl
  case case5 =>
      intro depth children rest ih_children ih_rest
      rw [schemaFields, schemaFields, ih_children, ih_rest]
  case case6 =>
      intro depth value rest ordinary ih_value ih_rest
      rw [schemaFields_ordinary ordinary, if_pos rfl, schemaFields_ordinary (items_ordinary _), if_pos rfl,
        ih_value, ih_rest]
  case case7 =>
      intro depth key value rest ordinary other keyword ih_rest
      rw [schemaFields_ordinary ordinary, if_neg other, if_pos keyword, schemaFields_ordinary ordinary,
        if_neg other, if_pos keyword, ih_rest]
  case case8 =>
      intro depth key value rest ordinary other unknown ih_rest
      rw [schemaFields_ordinary ordinary, if_neg other, if_neg unknown]
      exact ih_rest
  case case9 =>
      intro depth
      rfl
  case case10 =>
      intro depth name child rest ih_child ih_rest
      rw [schemaProperties, schemaProperties, ih_child, ih_rest]

theorem withinDepth_nil (depth : Nat) : withinDepth maxDepth depth [] = true :=
  decide_eq_true (.inl rfl)

theorem withinDepth_cons {depth : Nat} (within : ¬maxDepth < depth) (step : SchemaStep)
    (position : List SchemaStep) :
    withinDepth maxDepth depth (step :: position) = withinDepth maxDepth (depth + 1) position := by
  rw [withinDepth, withinDepth, List.length_cons, decide_eq_decide]
  cases position with
  | nil =>
      simp only [reduceCtorEq, false_or, true_or, iff_true, List.length_nil]
      omega
  | cons next rest =>
      simp only [reduceCtorEq, false_or]
      omega

theorem withinDepth_deep {depth : Nat} (deep : maxDepth < depth) {position : List SchemaStep}
    (below : position ≠ []) : withinDepth maxDepth depth position = false := by
  refine decide_eq_false ?_
  have longer := List.length_pos_of_ne_nil below
  simp only [below, false_or]
  omega

theorem filter_below {depth : Nat} (within : ¬maxDepth < depth) (step : SchemaStep)
    (list : List (List SchemaStep)) :
    (list.map (List.cons step)).filter (withinDepth maxDepth depth) =
      (list.filter (withinDepth maxDepth (depth + 1))).map (List.cons step) := by
  rw [List.filter_map]
  congr 2
  funext position
  exact withinDepth_cons maxDepth within step position

/-- The reduced schema has the positions within the depth limit, in their order. -/
theorem reduction_positions :
    (∀ depth value, positions (schemasOf (toGeminiSchema maxDepth depth value)) =
      (positions (schemasOf value)).filter (withinDepth maxDepth depth)) ∧
    (∀ depth fields, ¬maxDepth < depth →
      positions (fieldSchemas (schemaFields maxDepth depth fields)) =
        (positions (fieldSchemas fields)).filter (withinDepth maxDepth depth)) ∧
    ∀ depth children, ¬maxDepth < depth →
      positions (propertySchemas (schemaProperties maxDepth depth children)) =
        (positions (propertySchemas children)).filter (withinDepth maxDepth depth) := by
  apply toGeminiSchema.mutual_induct maxDepth
  case case1 =>
      intro depth fields deep
      rw [toGeminiSchema_deep maxDepth deep, schemasOf_typeOnly, schemasOf]
      have dropped :
          (positions (fieldSchemas fields)).filter (withinDepth maxDepth depth) = [] := by
        rw [List.filter_eq_nil_iff]
        intro position mem
        rw [withinDepth_deep maxDepth deep (position_ne_nil fields position mem)]
        exact Bool.false_ne_true
      have root := withinDepth_nil maxDepth depth
      simp only [positions, List.map_cons, List.map_nil, List.filter_cons, root, if_true]
        at dropped ⊢
      rw [dropped]
  case case2 =>
      intro depth fields within ih
      rw [toGeminiSchema_walked maxDepth within, schemasOf, schemasOf, fieldSchemas_withType]
      have root := withinDepth_nil maxDepth depth
      have below := ih within
      simp only [positions, List.map_cons, List.filter_cons, root, if_true] at below ⊢
      rw [below]
  case case3 =>
      intro value depth malformed
      rw [toGeminiSchema_malformed maxDepth malformed, schemasOf_typeOnly, schemasOf_leaf malformed]
      simp only [positions, List.map_cons, List.map_nil, List.filter_cons,
        withinDepth_nil maxDepth depth, if_true, List.filter_nil]
  case case4 =>
      intro depth _
      rfl
  case case5 =>
      intro depth children rest ih_children ih_rest within
      rw [schemaFields, fieldSchemas, fieldSchemas, positions_append, positions_append,
        List.filter_append, ih_children within, ih_rest within]
  case case6 =>
      intro depth value rest ordinary ih_value ih_rest within
      rw [schemaFields_ordinary ordinary, if_pos rfl, fieldSchemas_ordinary (items_ordinary _), if_pos rfl,
        fieldSchemas_ordinary ordinary, if_pos rfl, positions_append, positions_append,
        List.filter_append, positions_below, positions_below, filter_below maxDepth within,
        ih_value, ih_rest within]
  case case7 =>
      intro depth key value rest ordinary other keyword ih_rest within
      rw [schemaFields_ordinary ordinary, if_neg other, if_pos keyword, fieldSchemas_ordinary ordinary,
        fieldSchemas_ordinary ordinary, if_neg other, List.nil_append, List.nil_append, ih_rest within]
  case case8 =>
      intro depth key value rest ordinary other unknown ih_rest within
      rw [schemaFields_ordinary ordinary, if_neg other, if_neg unknown, fieldSchemas_ordinary ordinary,
        if_neg other, List.nil_append, ih_rest within]
  case case9 =>
      intro depth _
      rfl
  case case10 =>
      intro depth name child rest ih_child ih_rest within
      rw [schemaProperties, propertySchemas, propertySchemas, positions_append, positions_append,
        List.filter_append, positions_below, positions_below, filter_below maxDepth within,
        ih_child, ih_rest within]

/-- What a reduction of a sanitized schema keeps is sanitized. -/
theorem reduction_clean :
    (∀ depth value, value.Clean → (toGeminiSchema maxDepth depth value).Clean) ∧
    (∀ depth fields, Json.FieldsClean fields →
      Json.FieldsClean (schemaFields maxDepth depth fields)) ∧
    ∀ depth children, Json.FieldsClean children →
      Json.FieldsClean (schemaProperties maxDepth depth children) := by
  apply toGeminiSchema.mutual_induct maxDepth
  case case1 =>
      intro depth fields deep _
      rw [toGeminiSchema_deep maxDepth deep]
      exact clean_type
  case case2 =>
      intro depth fields within ih clean
      rw [toGeminiSchema_walked maxDepth within, Json.Clean, withType]
      split
      · exact ih clean
      · exact fieldsClean_append (ih clean) (clean_type)
  case case3 =>
      intro value depth malformed _
      rw [toGeminiSchema_malformed maxDepth malformed]
      exact clean_type
  case case4 =>
      intro depth _
      trivial
  case case5 =>
      intro depth children rest ih_children ih_rest clean
      rw [schemaFields]
      exact ⟨clean.1, ih_children clean.2.1, ih_rest clean.2.2⟩
  case case6 =>
      intro depth value rest ordinary ih_value ih_rest clean
      rw [schemaFields_ordinary ordinary, if_pos rfl]
      exact ⟨clean.1, ih_value clean.2.1, ih_rest clean.2.2⟩
  case case7 =>
      intro depth key value rest ordinary other keyword ih_rest clean
      rw [schemaFields_ordinary ordinary, if_neg other, if_pos keyword]
      exact ⟨clean.1, clean.2.1, ih_rest clean.2.2⟩
  case case8 =>
      intro depth key value rest ordinary other unknown ih_rest clean
      rw [schemaFields_ordinary ordinary, if_neg other, if_neg unknown]
      exact ih_rest clean.2.2
  case case9 =>
      intro depth _
      trivial
  case case10 =>
      intro depth name child rest ih_child ih_rest clean
      exact ⟨clean.1, ih_child clean.2.1, ih_rest clean.2.2⟩

end Reduction

/-- The reduction of a sanitized schema is a sanitized object, every schema in it is
accepted, its positions are those within the depth limit, and it is stable. -/
theorem gemini_schema_closed_and_stable (maxDepth : Nat) (schema : Json) (clean : schema.Clean) :
    (toGeminiSchema maxDepth 0 schema).Clean ∧
      (∀ placed ∈ schemasOf (toGeminiSchema maxDepth 0 schema), Accepted placed.2) ∧
      positions (schemasOf (toGeminiSchema maxDepth 0 schema)) =
        (positions (schemasOf schema)).filter
          (fun position => decide (position.length ≤ maxDepth + 1)) ∧
      toGeminiSchema maxDepth 0 (toGeminiSchema maxDepth 0 schema) =
        toGeminiSchema maxDepth 0 schema := by
  refine ⟨(reduction_clean maxDepth).1 0 schema clean, (reduction_accepted maxDepth).1 0 schema,
    ?_, (reduction_stable maxDepth).1 0 schema⟩
  rw [(reduction_positions maxDepth).1]
  congr 1
  funext position
  rw [withinDepth, decide_eq_decide, Nat.zero_add]
  constructor
  · intro h
    cases h with
    | inl root => simp [root]
    | inr within => exact within
  · exact .inr

theorem gemini_schema_closed_and_stable_nested :
    (toGeminiSchema 1 0 (.obj [("properties", .obj [("a", .obj [("items", .null)])])])).Clean ∧
      (∀ placed ∈ schemasOf (toGeminiSchema 1 0
        (.obj [("properties", .obj [("a", .obj [("items", .null)])])])), Accepted placed.2) ∧
      positions (schemasOf (toGeminiSchema 1 0
        (.obj [("properties", .obj [("a", .obj [("items", .null)])])]))) =
        (positions (schemasOf
          (.obj [("properties", .obj [("a", .obj [("items", .null)])])]))).filter
          (fun position => decide (position.length ≤ 1 + 1)) ∧
      toGeminiSchema 1 0 (toGeminiSchema 1 0
        (.obj [("properties", .obj [("a", .obj [("items", .null)])])])) =
        toGeminiSchema 1 0 (.obj [("properties", .obj [("a", .obj [("items", .null)])])]) :=
  gemini_schema_closed_and_stable 1 _ (by simp [Json.Clean, Json.FieldsClean, forbiddenKeys])

end Gateway
