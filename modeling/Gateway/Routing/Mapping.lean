import Gateway.Admin.Catalog

/-!
Model name rewriting.

Three layers apply, each at most once: the global mappings, those of the channel,
and the ones in its own document. The first layer is read from a cache. A layer is
an object, and an object has properties that nobody gave it.
-/

namespace Gateway

section Objects

/-- The own properties of an object, the latest first. -/
abbrev Table := List (String × String)

/-- What a name is mapped to: a text, or the value of an inherited property. -/
inductive MappedName where
  | text (name : String)
  | inherited (property : String)
deriving DecidableEq, Repr

/-- The property that is looked up under a name: a value that is no text is made one. -/
def MappedName.key : MappedName → String
  | .text name => name
  | .inherited property =>
      if property = "__proto__" then "[object Object]"
      else if property = "constructor" then "function Object() \x7b [native code] \x7d"
      else "function " ++ property ++ "() \x7b [native code] \x7d"

/-- The property of an object, unless it counts as false. -/
def Table.property (table : Table) (key : String) : Option MappedName :=
  match table.lookup key with
  | some value => if value = "" then none else some (.text value)
  | none => if key ∈ inheritedNames then some (.inherited key) else none

/-- `table[key] = value`; the prototype is not set to a text. -/
def Table.assign (table : Table) (key value : String) : Table :=
  if key = "__proto__" then table else (key, value) :: table

end Objects

structure ModelMappingDoc where
  id : String
  fromName : String
  toName : String
  channelId : Option String
  createdAt : Int
deriving DecidableEq, Repr

instance : Document ModelMappingDoc String := ⟨ModelMappingDoc.id⟩

@[simp]
theorem ModelMappingDoc.key_eq (d : ModelMappingDoc) : Document.key d = d.id := rfl

/-- A `ResolvedModel`, whose name may be what an object inherits. -/
structure ResolvedName where
  requested : String
  mapped : MappedName
deriving DecidableEq, Repr

/-- The rows, the cached table of the global ones and the generation of the abilities. -/
structure MappingStores where
  rows : Collection ModelMappingDoc
  cached : Option Table
  generation : Nat

section Reading

def addRow (table : Table) (row : ModelMappingDoc) : Table :=
  if row.fromName ≠ "" ∧ row.toName ≠ "" then table.assign row.fromName row.toName else table

def isGlobal (row : ModelMappingDoc) : Bool := row.channelId.getD "" == ""

def globalTable (docs : List ModelMappingDoc) : Table :=
  ((docs.take 2000).filter isGlobal).foldl addRow []

def globalMappings (s : MappingStores) : Table × MappingStores :=
  match s.cached with
  | some table => (table, s)
  | none => (globalTable s.rows.docs, { s with cached := some (globalTable s.rows.docs) })

def channelRows (docs : List ModelMappingDoc) (channelId : String) : List ModelMappingDoc :=
  docs.filter (·.channelId == some channelId)

def channelScopedMappings (s : MappingStores) (channelId : String) : Table :=
  ((channelRows s.rows.docs channelId).take 500).foldl addRow []

/-- A layer that is looked up under the name so far, and else under the requested one. -/
def applyLayer (table : Table) (requested : String) (mapped : MappedName) : MappedName :=
  match table.property mapped.key with
  | some value => value
  | none => (table.property requested).getD mapped

def resolveModel (s : MappingStores) (requested channelId : String) (modelMapping : Option Table) :
    ResolvedName × MappingStores :=
  let (global, s) := globalMappings s
  let mapped := (global.property requested).getD (.text requested)
  let mapped := applyLayer (channelScopedMappings s channelId) requested mapped
  let mapped := applyLayer (modelMapping.getD []) requested mapped
  (⟨requested, mapped⟩, s)

/-- The model whose price applies. -/
def billedModel (resolved : ResolvedName) : String := resolved.requested

end Reading

section Writing

def invalidateAbilities (s : MappingStores) : MappingStores :=
  { s with generation := s.generation + 1 }

/-- The channel that a mapping is limited to, if any. -/
def scopeOf (channelId : Option String) : Option String := (channelId.map jsTrim).filter (· ≠ "")

def mappingId (channelId : Option String) (fromName : String) : String :=
  match channelId with
  | some channelId => channelId ++ ":" ++ fromName
  | none => fromName

/-- The fields of a mapping set anew; the channel is left as it is when none is given. -/
def setMapping (fromName toName : String) (channelId : Option String) (now : Int) :
    Update ModelMappingDoc where
  apply d := { d with
    fromName := fromName, toName := toName, createdAt := now,
    channelId := channelId.or d.channelId }
  key_apply _ := rfl

/-- The unique index: another row has the name and the channel of this one. -/
def isTaken (rows : Collection ModelMappingDoc) (row : ModelMappingDoc) : Bool :=
  rows.docs.any fun other =>
    other.id != row.id && other.fromName == row.fromName && other.channelId == row.channelId

def upsertMapping (s : MappingStores) (fromInput toInput : String) (channelInput : Option String)
    (now : Int) : Except Thrown ModelMappingDoc × MappingStores :=
  match name fromInput "from" 200 with
  | .error e => (.error (.gateway e), s)
  | .ok fromName =>
      match name toInput "to" 200 with
      | .error e => (.error (.gateway e), s)
      | .ok toName =>
          let channelId := scopeOf channelInput
          let doc := ⟨mappingId channelId fromName, fromName, toName, channelId, now⟩
          let rows := s.rows.upsert doc (setMapping fromName toName channelId now)
          if (rows.find doc.id).any (isTaken rows) then (.error .fault, s)
          else (.ok doc, invalidateAbilities { s with rows := rows })

def deleteMapping (s : MappingStores) (id : String) : MappingStores :=
  invalidateAbilities { s with rows := s.rows.deleteOne id }

end Writing

section Runs

inductive MappingAction where
  | upsert (fromInput toInput : String) (channelInput : Option String) (now : Int)
  | delete (id : String)
  | resolve (requested channelId : String) (modelMapping : Option Table)
  /-- the cached table is dropped when its time is up -/
  | expire

inductive MappingReply where
  | upserted (doc : Except Thrown ModelMappingDoc)
  | resolved (model : ResolvedName)
  | done

def mappingStep (s : MappingStores) : MappingAction → MappingStores × MappingReply
  | .upsert fromInput toInput channelInput now =>
      let (doc, s) := upsertMapping s fromInput toInput channelInput now
      (s, .upserted doc)
  | .delete id => (deleteMapping s id, .done)
  | .resolve requested channelId modelMapping =>
      let (model, s) := resolveModel s requested channelId modelMapping
      (s, .resolved model)
  | .expire => ({ s with cached := none }, .done)

def noMappings : MappingStores := ⟨.empty, none, 1⟩

end Runs

end Gateway
