import Gateway.Lib.Machine
import Gateway.Routing.Mapping

/-!
Whether an edit of the mappings takes effect.

A mapping is meant for a name, of all channels or of one. The rows keep what is
meant as long as no two slots share the id of a row. What a request gets is what
is meant when the cached table still is right about its name, the rows that count
are within the limits, and no name that is looked up is one that objects inherit.
-/

namespace Gateway

section Intent

/-- What a mapping is for: a channel, or all of them, and a name. -/
abbrev Slot := Option String × String

/-- What every slot is mapped to. -/
abbrev Mappings := Slot → Option String

/-- An accepted edit is about the slot that it names, and no other. -/
def intendedStep (m : Mappings) : MappingAction → Mappings
  | .upsert fromInput toInput channelInput _ =>
      match name fromInput "from" 200, name toInput "to" 200 with
      | .ok fromName, .ok toName => fun slot =>
          if slot = (scopeOf channelInput, fromName) then some toName else m slot
      | _, _ => m
  | .delete id => fun slot => if mappingId slot.1 slot.2 = id then none else m slot
  | .resolve _ _ _ => m
  | .expire => m

def intendedMappings (actions : List MappingAction) : Mappings :=
  actions.foldl intendedStep fun _ => none

/-- The name so far, mapped by a layer, or else the requested one. -/
def through (layer : String → Option String) (requested soFar : String) : String :=
  ((layer soFar).or (layer requested)).getD soFar

/-- The texts that the document of a channel maps names to. -/
def inlineMapping (modelMapping : Option Table) (key : String) : Option String :=
  ((modelMapping.getD []).lookup key).filter (· ≠ "")

/-- The name that the global mappings lead to. -/
def afterGlobal (m : Mappings) (requested : String) : String :=
  (m (none, requested)).getD requested

/-- The name that the mappings of the channel lead to. -/
def afterScoped (m : Mappings) (requested channelId : String) : String :=
  through (fun key => m (some channelId, key)) requested (afterGlobal m requested)

/-- The three layers in turn. -/
def intendedName (m : Mappings) (modelMapping : Option Table) (requested channelId : String) :
    String :=
  through (inlineMapping modelMapping) requested (afterScoped m requested channelId)

end Intent

section Conditions

def ModelMappingDoc.slot (row : ModelMappingDoc) : Slot := (row.channelId, row.fromName)

/-- What the rows map a slot to. -/
def storedMapping (rows : Collection ModelMappingDoc) : Mappings := fun slot =>
  ((rows.find (mappingId slot.1 slot.2)).filter (·.slot = slot)).map ModelMappingDoc.toName

/-- A row under the id of an edit is of the slot of the edit. -/
def OwnRow (s : MappingStores) : MappingAction → Prop
  | .upsert fromInput _ channelInput _ => ∀ fromName ∈ (name fromInput "from" 200).toOption,
      ∀ row ∈ s.rows.docs, row.id = mappingId (scopeOf channelInput) fromName →
        row.slot = (scopeOf channelInput, fromName)
  | _ => True

instance (s : MappingStores) : (a : MappingAction) → Decidable (OwnRow s a)
  | .upsert fromInput _ channelInput _ => inferInstanceAs (Decidable
      (∀ fromName ∈ (name fromInput "from" 200).toOption,
        ∀ row ∈ s.rows.docs, row.id = mappingId (scopeOf channelInput) fromName →
          row.slot = (scopeOf channelInput, fromName)))
  | .delete _ | .resolve _ _ _ | .expire => instDecidableTrue

/-- The name is one that objects inherit, and nothing is given for it. -/
def Inherits (given : Option String) (key : String) : Prop := given = none ∧ key ∈ inheritedNames

instance (given : Option String) (key : String) : Decidable (Inherits given key) :=
  inferInstanceAs (Decidable (given = none ∧ key ∈ inheritedNames))

/-- What goes wrong when a name is resolved does not happen. -/
structure Readable (s : MappingStores) (modelMapping : Option Table)
    (requested channelId : String) : Prop where
  /-- the cached table has what is stored for the name -/
  fresh : ∀ table, s.cached = some table →
    table.lookup requested = storedMapping s.rows (none, requested)
  /-- without one, the row of the name is within the limit -/
  globalRows : s.cached = none → ∀ row ∈ s.rows.docs, row.slot = (none, requested) →
    row ∈ s.rows.docs.take 2000
  /-- the rows of the names are within the limit for the channel -/
  scopedRows : ∀ row ∈ channelRows s.rows.docs channelId,
    row.fromName = afterGlobal (storedMapping s.rows) requested ∨ row.fromName = requested →
      row ∈ (channelRows s.rows.docs channelId).take 500
  /-- no table of rows has a text for its prototype -/
  prototype : requested ≠ "__proto__" ∧ afterGlobal (storedMapping s.rows) requested ≠ "__proto__"
  global : ¬ Inherits (storedMapping s.rows (none, requested)) requested
  channel : ¬ Inherits (storedMapping s.rows
      (some channelId, afterGlobal (storedMapping s.rows) requested))
      (afterGlobal (storedMapping s.rows) requested) ∧
    (storedMapping s.rows (some channelId, afterGlobal (storedMapping s.rows) requested) = none →
      ¬ Inherits (storedMapping s.rows (some channelId, requested)) requested)
  inline : ¬ Inherits ((modelMapping.getD []).lookup
      (afterScoped (storedMapping s.rows) requested channelId))
      (afterScoped (storedMapping s.rows) requested channelId) ∧
    (inlineMapping modelMapping (afterScoped (storedMapping s.rows) requested channelId) = none →
      ¬ Inherits ((modelMapping.getD []).lookup requested) requested)

end Conditions

section Layers

theorem lookup_addRow_other {row : ModelMappingDoc} {key : String} (other : row.fromName ≠ key)
    (table : Table) : (addRow table row).lookup key = table.lookup key := by
  rw [addRow]
  split
  · rw [Table.assign]
    split
    · rfl
    · rw [List.lookup_cons, beq_eq_false_iff_ne.mpr (Ne.symm other)]
  · rfl

theorem lookup_foldl_other {rows : List ModelMappingDoc} {key : String}
    (others : ∀ row ∈ rows, row.fromName ≠ key) (table : Table) :
    (rows.foldl addRow table).lookup key = table.lookup key := by
  induction rows generalizing table with
  | nil => rfl
  | cons row rows ih =>
      obtain ⟨first, rest⟩ := List.forall_mem_cons.mp others
      rw [List.foldl_cons, ih rest, lookup_addRow_other first]

/-- Rows that are written by edits: with an id of their slot, and with no field empty. -/
structure ProperRow (row : ModelMappingDoc) : Prop where
  id : row.id = mappingId row.channelId row.fromName
  fromName : row.fromName ≠ ""
  toName : row.toName ≠ ""
  channelId : row.channelId ≠ some ""

/-- The one row of a name is found in the table of rows. -/
theorem lookup_foldl_of_mem {rows : List ModelMappingDoc} {row : ModelMappingDoc}
    (mem : row ∈ rows) (proper : ProperRow row) (plain : row.fromName ≠ "__proto__")
    (only : ∀ other ∈ rows, other.fromName = row.fromName → other = row) (table : Table) :
    (rows.foldl addRow table).lookup row.fromName = some row.toName := by
  induction rows generalizing table with
  | nil => cases mem
  | cons first rows ih =>
      obtain ⟨here, later⟩ := List.forall_mem_cons.mp only
      rw [List.foldl_cons]
      by_cases there : row ∈ rows
      · exact ih there later (addRow table first)
      · obtain rfl := (List.mem_cons.mp mem).resolve_right there
        rw [lookup_foldl_other fun other among same => there (later other among same ▸ among),
          addRow, if_pos ⟨proper.fromName, proper.toName⟩, Table.assign, if_neg plain,
          List.lookup_cons_self]

theorem Table.property_eq {table : Table} {key : String} {given : Option String}
    (read : table.lookup key = given) (own : ¬ Inherits given key) :
    table.property key = (given.filter (· ≠ "")).map .text := by
  rw [Table.property, read]
  cases given with
  | none => exact if_neg fun mem => own ⟨rfl, mem⟩
  | some value =>
      dsimp only
      by_cases empty : value = ""
      · rw [if_pos empty, empty]
        rfl
      · rw [if_neg empty, Option.filter_some, if_pos (decide_eq_true empty)]
        rfl

/-- A layer leads where it is meant to when what is looked up in it is found as it is given. -/
theorem applyLayer_eq {table : Table} {layer : String → Option String} {requested soFar : String}
    (first : table.property soFar = (layer soFar).map .text)
    (second : layer soFar = none → table.property requested = (layer requested).map .text) :
    applyLayer table requested (.text soFar) = .text (through layer requested soFar) := by
  rw [applyLayer, MappedName.key, first, through]
  cases here : layer soFar with
  | some value => rfl
  | none =>
      rw [Option.map_none, second here]
      cases layer requested <;> rfl

end Layers

section Rows

/-- The rows are proper, and keep what is meant. -/
structure Kept (rows : Collection ModelMappingDoc) (m : Mappings) : Prop where
  proper : ∀ row ∈ rows.docs, ProperRow row
  meant : ∀ slot, m slot = storedMapping rows slot

theorem name_ne_empty {value field text : String} {max : Nat}
    (accepted : name value field max = .ok text) : text ≠ "" := by
  rw [name] at accepted
  split at accepted
  · cases accepted
  · next nonempty =>
      split at accepted
      · cases accepted
      · cases accepted
        exact nonempty

theorem scopeOf_ne_empty (channelInput : Option String) : scopeOf channelInput ≠ some "" := by
  intro empty
  have kept := (Option.filter_eq_some_iff.mp empty).2
  exact absurd rfl (of_decide_eq_true kept)

/-- What a slot is mapped to is in the row of the slot. -/
theorem storedMapping_of_mem {rows : Collection ModelMappingDoc}
    (proper : ∀ row ∈ rows.docs, ProperRow row) {row : ModelMappingDoc} (mem : row ∈ rows.docs) :
    storedMapping rows row.slot = some row.toName := by
  have found := Collection.find_of_mem mem
  rw [ModelMappingDoc.key_eq, (proper row mem).id] at found
  have own : decide (row.slot = (row.channelId, row.fromName)) = true := decide_eq_true rfl
  rw [storedMapping, ModelMappingDoc.slot, found, Option.filter_some, if_pos own, Option.map_some]

theorem storedMapping_of_none {rows : Collection ModelMappingDoc} {slot : Slot}
    (none_there : ∀ row ∈ rows.docs, row.slot ≠ slot) : storedMapping rows slot = none := by
  rw [storedMapping, Option.map_eq_none_iff, Option.filter_eq_none_iff]
  intro row found
  have mem := (Collection.mem_of_find found).1
  simpa using none_there row mem

/-- There is one row of a slot. -/
theorem row_unique {rows : Collection ModelMappingDoc}
    (proper : ∀ row ∈ rows.docs, ProperRow row) {row other : ModelMappingDoc}
    (mem : row ∈ rows.docs) (mem' : other ∈ rows.docs) (same : other.slot = row.slot) :
    other = row := by
  have ids : other.id = row.id := by
    rw [(proper other mem').id, (proper row mem).id]
    injection same with channel name
    rw [channel, name]
  have first := Collection.find_of_mem mem
  have second := Collection.find_of_mem mem'
  rw [ModelMappingDoc.key_eq, ids] at second
  exact Option.some.inj (second.symm.trans first)

/-- A row that is written where none is but its own is as it was to be. -/
theorem find_upsert_own {rows : Collection ModelMappingDoc} {doc : ModelMappingDoc}
    (own : ∀ row, rows.find doc.id = some row → row.slot = doc.slot) (id : String) :
    (rows.upsert doc (setMapping doc.fromName doc.toName doc.channelId doc.createdAt)).find id =
      if id = doc.id then some doc else rows.find id := by
  rw [Collection.find_upsert, ModelMappingDoc.key_eq]
  cases found : rows.find doc.id with
  | none => rfl
  | some row =>
      have key := Collection.key_of_find found
      injection own row found with channel _
      rw [ModelMappingDoc.key_eq] at key
      have whole : (setMapping doc.fromName doc.toName doc.channelId doc.createdAt).apply row =
          doc := by
        simp only [setMapping, channel, Option.or_self, key]
      dsimp only
      rw [whole]

theorem kept_upsert {rows : Collection ModelMappingDoc} {m : Mappings} (h : Kept rows m)
    {doc : ModelMappingDoc} (proper : ProperRow doc)
    (own : ∀ row, rows.find doc.id = some row → row.slot = doc.slot) :
    Kept (rows.upsert doc (setMapping doc.fromName doc.toName doc.channelId doc.createdAt))
      fun slot => if slot = doc.slot then some doc.toName else m slot := by
  have proper' : ∀ row ∈ (rows.upsert doc
      (setMapping doc.fromName doc.toName doc.channelId doc.createdAt)).docs, ProperRow row := by
    intro row mem
    have found := Collection.find_of_mem mem
    rw [ModelMappingDoc.key_eq, find_upsert_own own] at found
    split at found
    · obtain rfl := Option.some.inj found
      exact proper
    · exact h.proper row (Collection.mem_of_find found).1
  refine ⟨proper', fun slot => ?_⟩
  rw [storedMapping, find_upsert_own own, proper.id]
  by_cases id : mappingId slot.1 slot.2 = mappingId doc.channelId doc.fromName
  · rw [if_pos id, Option.filter_some]
    by_cases same : slot = doc.slot
    · rw [if_pos same, if_pos (decide_eq_true same.symm), Option.map_some]
    · rw [if_neg same, if_neg (by simpa using Ne.symm same), h.meant slot, storedMapping, id,
        ← proper.id]
      cases found : rows.find doc.id with
      | none => rfl
      | some row =>
          have other : row.slot ≠ slot := fun eq => same (eq.symm.trans (own row found))
          rw [Option.filter_some, if_neg (by simpa using other)]
  · have differs : slot ≠ doc.slot := by
      rintro rfl
      exact id rfl
    rw [if_neg id, if_neg differs, h.meant slot, storedMapping]

/-- The unique index never refuses what is kept. -/
theorem not_taken {rows : Collection ModelMappingDoc} (proper : ∀ row ∈ rows.docs, ProperRow row)
    (id : String) : (rows.find id).any (isTaken rows) = false := by
  rw [← Bool.not_eq_true, Option.any_eq_true]
  rintro ⟨row, found, taken⟩
  obtain ⟨other, mem, conflict⟩ := List.any_eq_true.mp taken
  rw [Bool.and_eq_true, Bool.and_eq_true, bne_iff_ne, beq_iff_eq, beq_iff_eq] at conflict
  obtain ⟨⟨ids, named⟩, scope⟩ := conflict
  have here := (Collection.mem_of_find found).1
  refine ids ?_
  rw [(proper other mem).id, (proper row here).id, named, scope]

theorem kept_delete {rows : Collection ModelMappingDoc} {m : Mappings} (h : Kept rows m)
    (id : String) :
    Kept (rows.deleteOne id) fun slot => if mappingId slot.1 slot.2 = id then none else m slot := by
  constructor
  · intro row mem
    exact h.proper row (List.mem_of_mem_filter mem)
  · intro slot
    rw [storedMapping, Collection.find_deleteOne]
    split
    · rfl
    · rw [h.meant slot, storedMapping]

end Rows

section Runs

theorem resolveModel_rows (s : MappingStores) (requested channelId : String)
    (modelMapping : Option Table) :
    (resolveModel s requested channelId modelMapping).2.rows = s.rows := by
  rw [resolveModel, globalMappings]
  cases s.cached <;> rfl

/-- An edit under an id of its own keeps what is meant. -/
theorem kept_step {s : MappingStores} {m : Mappings} {a : MappingAction} (own : OwnRow s a)
    (h : Kept s.rows m) : Kept (mappingStep s a).1.rows (intendedStep m a) := by
  cases a with
  | upsert fromInput toInput channelInput now =>
      rw [mappingStep, upsertMapping, intendedStep]
      cases read : name fromInput "from" 200 with
      | error e => exact h
      | ok fromName =>
          cases read' : name toInput "to" 200 with
          | error e => exact h
          | ok toName =>
              have proper : ProperRow ⟨mappingId (scopeOf channelInput) fromName, fromName, toName,
                  scopeOf channelInput, now⟩ :=
                ⟨rfl, name_ne_empty read, name_ne_empty read', scopeOf_ne_empty channelInput⟩
              have kept := kept_upsert h proper fun row found =>
                own fromName (by rw [read]; rfl) row (Collection.mem_of_find found).1
                  (Collection.mem_of_find found).2
              have found := not_taken kept.proper (mappingId (scopeOf channelInput) fromName)
              dsimp only at found ⊢
              rw [if_neg (Bool.eq_false_iff.mp found)]
              exact kept
  | delete id => exact kept_delete h id
  | resolve requested channelId modelMapping =>
      have same := resolveModel_rows s requested channelId modelMapping
      rw [mappingStep, intendedStep]
      dsimp only
      rwa [same]
  | expire => exact h

theorem kept_run {s : MappingStores} {m : Mappings} {actions : List MappingAction}
    (own : ∀ e ∈ Machine.trace mappingStep s actions, OwnRow e.before e.action)
    (h : Kept s.rows m) :
    Kept (Machine.run mappingStep s actions).rows (actions.foldl intendedStep m) := by
  induction actions generalizing s m with
  | nil => exact h
  | cons a actions ih =>
      have first := own _ List.mem_cons_self
      exact ih (fun e mem => own e (List.mem_cons_of_mem _ mem)) (kept_step first h)

end Runs

section Resolution

variable {rows : Collection ModelMappingDoc}

/-- Rows that have the row of a slot, and no other of its name, map the name as the slot. -/
theorem lookup_of_slot (proper : ∀ row ∈ rows.docs, ProperRow row) {picked : List ModelMappingDoc}
    {slot : Slot} (plain : slot.2 ≠ "__proto__") (among : ∀ row ∈ picked, row ∈ rows.docs)
    (named : ∀ row ∈ picked, row.fromName = slot.2 → row.slot = slot)
    (there : ∀ row ∈ rows.docs, row.slot = slot → row ∈ picked) :
    (picked.foldl addRow []).lookup slot.2 = storedMapping rows slot := by
  by_cases found : ∃ row ∈ rows.docs, row.slot = slot
  · obtain ⟨row, mem, rfl⟩ := found
    rw [storedMapping_of_mem proper mem]
    refine lookup_foldl_of_mem (there row mem rfl) (proper row mem) plain ?_ []
    intro other mem' same
    exact row_unique proper mem (among other mem') (named other mem' same)
  · have none_there : ∀ row ∈ rows.docs, row.slot ≠ slot := fun row mem same =>
      found ⟨row, mem, same⟩
    rw [storedMapping_of_none none_there]
    refine lookup_foldl_other (fun row mem same => ?_) []
    exact none_there row (among row mem) (named row mem same)

/-- A slot is not mapped to the empty text. -/
theorem storedMapping_filter (proper : ∀ row ∈ rows.docs, ProperRow row) (slot : Slot) :
    (storedMapping rows slot).filter (· ≠ "") = storedMapping rows slot := by
  by_cases found : ∃ row ∈ rows.docs, row.slot = slot
  · obtain ⟨row, mem, rfl⟩ := found
    rw [storedMapping_of_mem proper mem, Option.filter_some,
      if_pos (decide_eq_true (proper row mem).toName)]
  · rw [storedMapping_of_none fun row mem same => found ⟨row, mem, same⟩]
    rfl

variable {s : MappingStores} {modelMapping : Option Table} {requested channelId : String}

theorem global_lookup (proper : ∀ row ∈ s.rows.docs, ProperRow row)
    (h : Readable s modelMapping requested channelId) :
    (globalMappings s).1.lookup requested = storedMapping s.rows (none, requested) := by
  rw [globalMappings]
  cases cached : s.cached with
  | some table => exact h.fresh table cached
  | none =>
      have global {row : ModelMappingDoc} (mem : row ∈ s.rows.docs) :
          isGlobal row = true ↔ row.channelId = none := by
        have named := (proper row mem).channelId
        rw [isGlobal, beq_iff_eq]
        cases scope : row.channelId with
        | none => exact ⟨fun _ => rfl, fun _ => rfl⟩
        | some channel =>
            rw [scope] at named
            simpa using named
      refine @lookup_of_slot s.rows proper _ (none, requested) h.prototype.1 ?_ ?_ ?_
      · exact fun row mem => List.mem_of_mem_take (List.mem_of_mem_filter mem)
      · intro row mem same
        obtain ⟨taken, unscoped⟩ := List.mem_filter.mp mem
        rw [ModelMappingDoc.slot, (global (List.mem_of_mem_take taken)).mp unscoped, same]
      · intro row mem same
        refine List.mem_filter.mpr ⟨h.globalRows cached row mem same, (global mem).mpr ?_⟩
        injection same

theorem scoped_lookup (proper : ∀ row ∈ s.rows.docs, ProperRow row)
    (h : Readable s modelMapping requested channelId) {key : String}
    (looked : key = afterGlobal (storedMapping s.rows) requested ∨ key = requested) :
    (channelScopedMappings s channelId).lookup key =
      storedMapping s.rows (some channelId, key) := by
  have plain : key ≠ "__proto__" := by
    rcases looked with rfl | rfl
    · exact h.prototype.2
    · exact h.prototype.1
  have rows {row : ModelMappingDoc} : row ∈ channelRows s.rows.docs channelId ↔
      row ∈ s.rows.docs ∧ row.channelId = some channelId := by
    rw [channelRows, List.mem_filter, beq_iff_eq]
  refine @lookup_of_slot s.rows proper _ (some channelId, key) plain ?_ ?_ ?_
  · exact fun row mem => (rows.mp (List.mem_of_mem_take mem)).1
  · intro row mem same
    rw [ModelMappingDoc.slot, (rows.mp (List.mem_of_mem_take mem)).2, same]
  · intro row mem same
    injection same with scope named
    refine h.scopedRows row (rows.mpr ⟨mem, scope⟩) ?_
    rwa [named]

/-- What is stored is what a request gets. -/
theorem resolveModel_eq (proper : ∀ row ∈ s.rows.docs, ProperRow row)
    (h : Readable s modelMapping requested channelId) :
    (resolveModel s requested channelId modelMapping).1 =
      ⟨requested,
        .text (intendedName (storedMapping s.rows) modelMapping requested channelId)⟩ := by
  have globally : (globalMappings s).1.property requested =
      (storedMapping s.rows (none, requested)).map .text := by
    rw [Table.property_eq (global_lookup proper h) h.global, storedMapping_filter proper]
  have first : ((globalMappings s).1.property requested).getD (.text requested) =
      .text (afterGlobal (storedMapping s.rows) requested) := by
    rw [globally, afterGlobal]
    cases storedMapping s.rows (none, requested) <;> rfl
  have rows : (globalMappings s).2.rows = s.rows := by
    rw [globalMappings]
    cases s.cached <;> rfl
  have channel : channelScopedMappings (globalMappings s).2 channelId =
      channelScopedMappings s channelId := by
    rw [channelScopedMappings, rows]
    rfl
  have second : applyLayer (channelScopedMappings s channelId) requested
      (.text (afterGlobal (storedMapping s.rows) requested)) =
      .text (afterScoped (storedMapping s.rows) requested channelId) := by
    refine @applyLayer_eq _ (fun key => storedMapping s.rows (some channelId, key)) _ _ ?_ ?_
    · rw [Table.property_eq (scoped_lookup proper h (.inl rfl)) h.channel.1,
        storedMapping_filter proper]
    · intro unmapped
      rw [Table.property_eq (scoped_lookup proper h (.inr rfl)) (h.channel.2 unmapped),
        storedMapping_filter proper]
  have third : applyLayer (modelMapping.getD []) requested
      (.text (afterScoped (storedMapping s.rows) requested channelId)) =
      .text (intendedName (storedMapping s.rows) modelMapping requested channelId) := by
    refine @applyLayer_eq _ (inlineMapping modelMapping) _ _ ?_ ?_
    · exact Table.property_eq rfl h.inline.1
    · exact fun unmapped => Table.property_eq rfl (h.inline.2 unmapped)
  rw [resolveModel]
  dsimp only
  rw [first, channel, second, third]

theorem mapping_edits_take_effect {actions : List MappingAction}
    (own : ∀ e ∈ Machine.trace mappingStep noMappings actions, OwnRow e.before e.action)
    (readable : Readable (Machine.run mappingStep noMappings actions) modelMapping requested
      channelId) :
    (resolveModel (Machine.run mappingStep noMappings actions) requested channelId modelMapping).1 =
        ⟨requested,
          .text (intendedName (intendedMappings actions) modelMapping requested channelId)⟩ ∧
      ∀ s, billedModel (resolveModel s requested channelId modelMapping).1 = requested := by
  have kept : Kept (Machine.run mappingStep noMappings actions).rows (intendedMappings actions) :=
    kept_run own ⟨fun row mem => absurd mem List.not_mem_nil, fun _ => rfl⟩
  have meant : intendedMappings actions =
      storedMapping (Machine.run mappingStep noMappings actions).rows := funext kept.meant
  refine ⟨?_, fun _ => rfl⟩
  rw [meant]
  exact resolveModel_eq kept.proper readable

/-- Two edits of a name, and one of a channel. -/
def sampleEdits : List MappingAction :=
  [.upsert "gpt-4o" "gpt-4.1" none 0, .upsert " gpt-4o " "gpt-5" none 1,
    .upsert "gpt-5" "gpt-5-mini" (some "ch1") 2, .upsert "other" "gpt-6" none 3, .delete "other"]

theorem mapping_edits_take_effect_sample :
    (resolveModel (Machine.run mappingStep noMappings sampleEdits) "gpt-4o" "ch1"
        (some [("gpt-5-mini", "upstream")])).1 =
        ⟨"gpt-4o", .text (intendedName (intendedMappings sampleEdits)
          (some [("gpt-5-mini", "upstream")]) "gpt-4o" "ch1")⟩ ∧
      ∀ s, billedModel (resolveModel s "gpt-4o" "ch1" (some [("gpt-5-mini", "upstream")])).1 =
        "gpt-4o" := by
  refine mapping_edits_take_effect (by decide +kernel) ?_
  exact {
    fresh := fun table cached => by cases cached
    globalRows := fun _ => by decide +kernel
    scopedRows := by decide +kernel
    prototype := by decide +kernel
    global := by decide +kernel
    channel := by decide +kernel
    inline := by decide +kernel }

theorem mapping_edit_hidden_by_cache :
    ¬ ∀ (actions : List MappingAction) (requested channelId : String) (modelMapping : Option Table),
      (resolveModel (Machine.run mappingStep noMappings actions) requested channelId
        modelMapping).1 =
        ⟨requested,
          .text (intendedName (intendedMappings actions) modelMapping requested channelId)⟩ := by
  intro effective
  exact absurd (effective [.upsert "gpt-4o" "gpt-4.1" none 0, .resolve "gpt-4o" "ch1" none,
    .upsert "gpt-4o" "gpt-5" none 1] "gpt-4o" "ch1" none) (by decide +kernel)

end Resolution

end Gateway
