import Gateway.Lib.Collection
import Gateway.Lib.Fallible
import Gateway.Lib.Machine
import Gateway.Http.Errors
import Gateway.Admin.Catalog
import Gateway.Pricing.Catalog

/-!
Prices that the operator types over the catalogue.

A row is stored under the name as it was typed and read under the normalised
name, with a cache in between that keeps what the last lookup resolved. An edit
merges its fields into the row, and a lookup whose read fails resolves to the
catalogue.
-/

namespace Gateway

section Row

/-- The ratios that a row may set. -/
inductive PriceField where
  | modelRatio
  | completionRatio
  | cachedRatio
  | cacheWrite5mRatio
  | cacheWrite1hRatio
  | imageRatio
  | audioRatio
  | audioCompletionRatio
  | perCallQuota
deriving DecidableEq

def PriceField.text : PriceField → String
  | .modelRatio => "modelRatio"
  | .completionRatio => "completionRatio"
  | .cachedRatio => "cachedRatio"
  | .cacheWrite5mRatio => "cacheWrite5mRatio"
  | .cacheWrite1hRatio => "cacheWrite1hRatio"
  | .imageRatio => "imageRatio"
  | .audioRatio => "audioRatio"
  | .audioCompletionRatio => "audioCompletionRatio"
  | .perCallQuota => "perCallQuota"

/-- The fields that an edit may leave out. -/
def optionalPriceFields : List PriceField :=
  [.cachedRatio, .cacheWrite5mRatio, .cacheWrite1hRatio, .imageRatio, .audioRatio,
    .audioCompletionRatio, .perCallQuota]

def ModelPricing.ratio (pricing : ModelPricing) : PriceField → JsNumber
  | .modelRatio => pricing.modelRatio
  | .completionRatio => pricing.completionRatio
  | .cachedRatio => pricing.cachedRatio
  | .cacheWrite5mRatio => pricing.cacheWrite5mRatio
  | .cacheWrite1hRatio => pricing.cacheWrite1hRatio
  | .imageRatio => pricing.imageRatio
  | .audioRatio => pricing.audioRatio
  | .audioCompletionRatio => pricing.audioCompletionRatio
  | .perCallQuota => pricing.perCallQuota

structure ModelPricingDoc where
  id : String
  ratio : PriceField → Option Json
  usageSemantic : Option UsageSemantic

instance : Document ModelPricingDoc String := ⟨ModelPricingDoc.id⟩

/-- A resolved price under the name its key ends in. -/
structure CachedPricing where
  name : String
  pricing : ModelPricing
  expiresAt : Option Int

instance : Document CachedPricing String := ⟨CachedPricing.name⟩

/-- The collection `model_pricing` and the pricing keys of the cache. -/
structure PricingStore where
  rows : Collection ModelPricingDoc
  cache : Collection CachedPricing

end Row

section Edit

/-- `positive` of the console, which throws. -/
def positive (value : Option Json) (field : String) : Except GatewayError ℚ :=
  match toNumber value with
  | .finite q =>
      if 0 ≤ q then .ok q
      else .error (invalidParam (field ++ " must be a non-negative number") field)
  | _ => .error (invalidParam (field ++ " must be a non-negative number") field)

/-- `value === undefined || value === null || value === ""` -/
def isBlank : Option Json → Bool
  | none | some .null => true
  | some (.str text) => text == ""
  | _ => false

def optionalPositive (value : Option Json) (field : String) : Except GatewayError (Option ℚ) :=
  if isBlank value then .ok none else (positive value field).map some

/-- `name` of any value. -/
def nameField (value : Option Json) (field : String) (max : Nat) : Except GatewayError String :=
  match value with
  | some (.str text) => name text field max
  | _ => .error (invalidParam (field ++ " is required") field)

def readOptionalFields (input : Record) :
    List PriceField → Except GatewayError (List (PriceField × ℚ))
  | [] => .ok []
  | field :: rest => do
      let value ← optionalPositive (input.field field.text) field.text
      let more ← readOptionalFields input rest
      return (value.map fun value => (field, value)).toList ++ more

/-- What an edit sets, in the order of the source. -/
structure PriceEdit where
  model : String
  doc : List (PriceField × ℚ)
deriving DecidableEq

def readPriceEdit (input : Record) : Except GatewayError PriceEdit := do
  let model ← nameField (coalesce (input.field "model") (input.field "_id")) "model" 200
  let modelRatio ← positive (input.field "modelRatio") "modelRatio"
  let completionRatio ← positive (input.field "completionRatio") "completionRatio"
  let rest ← readOptionalFields input optionalPriceFields
  return ⟨model, (.modelRatio, modelRatio) :: (.completionRatio, completionRatio) :: rest⟩

def PriceEdit.ratio (edit : PriceEdit) (field : PriceField) : Option ℚ := edit.doc.lookup field

/-- `$set: doc` -/
def PriceEdit.set (edit : PriceEdit) : Update ModelPricingDoc where
  apply row :=
    { row with ratio := fun field => ((edit.ratio field).map Json.ofRat).or (row.ratio field) }
  key_apply _ := rfl

def PriceEdit.row (edit : PriceEdit) : ModelPricingDoc :=
  edit.set.apply ⟨edit.model, fun _ => none, none⟩

end Edit

section Calls

variable (toLowerCase : String → String) (quotaPerUnit : ℚ) (ttlSec : Int)

/-- `positive` of the price lookup, which falls back. -/
def positiveOr (value : Option Json) (fallback : JsNumber) : JsNumber :=
  match toNumber value with
  | .finite q => if 0 ≤ q then .finite q else fallback
  | _ => fallback

/-- A row merged over the catalogue. -/
def resolvePricing (name : String) (row : Option ModelPricingDoc) : ModelPricing :=
  let fallback := defaultPricingFor toLowerCase quotaPerUnit name
  match row with
  | none => fallback
  | some doc =>
      { model := name
        modelRatio := positiveOr (doc.ratio .modelRatio) fallback.modelRatio
        completionRatio := positiveOr (doc.ratio .completionRatio) fallback.completionRatio
        cachedRatio := positiveOr (doc.ratio .cachedRatio) fallback.cachedRatio
        cacheWrite5mRatio := positiveOr (doc.ratio .cacheWrite5mRatio) fallback.cacheWrite5mRatio
        cacheWrite1hRatio := positiveOr (doc.ratio .cacheWrite1hRatio) fallback.cacheWrite1hRatio
        imageRatio := positiveOr (doc.ratio .imageRatio) fallback.imageRatio
        audioRatio := positiveOr (doc.ratio .audioRatio) fallback.audioRatio
        audioCompletionRatio :=
          positiveOr (doc.ratio .audioCompletionRatio) fallback.audioCompletionRatio
        perCallQuota := positiveOr (doc.ratio .perCallQuota) fallback.perCallQuota
        usageSemantic := doc.usageSemantic.getD fallback.usageSemantic }

/-- Which of the calls of a lookup fail. -/
structure LookupFaults where
  cacheRead : Bool
  rowRead : Bool
  cacheWrite : Bool

/-- A ratio that is not a number is stored as `null`, so its entry is no hit. -/
def cachedPricing (name : String) (now : Int) (store : PricingStore) : Option ModelPricing :=
  match store.cache.find name with
  | none => none
  | some entry =>
      if hasPassed entry.expiresAt now then none
      else
        match entry.pricing.modelRatio with
        | .finite _ => some entry.pricing
        | _ => none

/-- When a value that is set now expires. -/
def expiryFrom (now : Int) : Option Int := if 0 < ttlSec then some (now + 1000 * ttlSec) else none

def replaceEntry (resolved : ModelPricing) (expiresAt : Option Int) : Update CachedPricing where
  apply entry := { entry with pricing := resolved, expiresAt := expiresAt }
  key_apply _ := rfl

/-- `redisSetJson` of a resolved price. -/
def cachePricing (name : String) (resolved : ModelPricing) (now : Int) (store : PricingStore) :
    PricingStore :=
  { store with
    cache := store.cache.upsert ⟨name, resolved, expiryFrom ttlSec now⟩
      (replaceEntry resolved (expiryFrom ttlSec now)) }

def getModelPricing (model : String) (faults : LookupFaults) (now : Int) (store : PricingStore) :
    ModelPricing × PricingStore :=
  let name := normalizeNameWith toLowerCase model
  match if faults.cacheRead then none else cachedPricing name now store with
  | some cached => (cached, store)
  | none =>
      let row := if faults.rowRead then none else store.rows.find name
      let resolved := resolvePricing toLowerCase quotaPerUnit name row
      (resolved,
        if faults.cacheWrite then store else cachePricing ttlSec name resolved now store)

/-- `readFails` is the read of the row after the write. -/
def upsertPricing (input : Record) (readFails : Bool) (store : PricingStore) :
    Except Thrown ModelPricingDoc × PricingStore :=
  match readPriceEdit input with
  | .error error => (.error (.gateway error), store)
  | .ok edit =>
      let written : PricingStore :=
        { rows := store.rows.upsert edit.row edit.set
          cache := store.cache.deleteOne (normalizeNameWith toLowerCase edit.model) }
      if readFails then (.error .fault, written)
      else
        match written.rows.find edit.model with
        | none =>
            (.error (.gateway (notFound "pricing row disappeared immediately after write")), written)
        | some saved => (.ok saved, written)

def deletePricing (model : String) (store : PricingStore) : PricingStore :=
  { rows := store.rows.deleteOne model
    cache := store.cache.deleteOne (normalizeNameWith toLowerCase model) }

/-- One call of the three, to completion. -/
inductive PricingCall where
  | upsert (input : Record) (readFails : Bool)
  | delete (model : String)
  | lookup (model : String) (faults : LookupFaults) (now : Int)

inductive PricingReply where
  | saved (row : Except Thrown ModelPricingDoc)
  | deleted
  | priced (pricing : ModelPricing)

def pricingStep (store : PricingStore) : PricingCall → PricingStore × PricingReply
  | .upsert input readFails =>
      ((upsertPricing toLowerCase input readFails store).2,
        .saved (upsertPricing toLowerCase input readFails store).1)
  | .delete model => (deletePricing toLowerCase model store, .deleted)
  | .lookup model faults now =>
      ((getModelPricing toLowerCase quotaPerUnit ttlSec model faults now store).2,
        .priced (getModelPricing toLowerCase quotaPerUnit ttlSec model faults now store).1)

end Calls

section Coherence

variable {toLowerCase : String → String} {quotaPerUnit : ℚ} {ttlSec : Int}

theorem normalizeNameWith_jsTrim (model : String) :
    normalizeNameWith toLowerCase (jsTrim model) = normalizeNameWith toLowerCase model := by
  rw [normalizeNameWith, normalizeNameWith, jsTrim_jsTrim]

theorem find_row (edit : PriceEdit) (rows : Collection ModelPricingDoc) (id : String) :
    (rows.upsert edit.row edit.set).find id =
      if id = edit.model then
        some (edit.set.apply ((rows.find edit.model).getD ⟨edit.model, fun _ => none, none⟩))
      else rows.find id := by
  have key : Document.key edit.row = edit.model := rfl
  rw [Collection.find_upsert, key]
  cases rows.find edit.model with
  | none => rfl
  | some row => rfl

theorem find_cachePricing {name other : String} {resolved : ModelPricing} {now : Int}
    {store : PricingStore} {entry : CachedPricing}
    (found : (cachePricing ttlSec name resolved now store).cache.find other = some entry) :
    other = name ∧ entry.pricing = resolved ∨ store.cache.find other = some entry := by
  have key : Document.key (CachedPricing.mk name resolved (expiryFrom ttlSec now)) = name := rfl
  rw [cachePricing, Collection.find_upsert, key] at found
  by_cases same : other = name
  · rw [if_pos same] at found
    refine .inl ⟨same, ?_⟩
    cases stored : store.cache.find name with
    | none =>
        rw [stored] at found
        rw [← Option.some.inj found]
    | some old =>
        rw [stored] at found
        rw [← Option.some.inj found, replaceEntry]
  · rw [if_neg same] at found
    exact .inr found

theorem resolvePricing_ratio (name : String) (row : ModelPricingDoc) (field : PriceField) :
    (resolvePricing toLowerCase quotaPerUnit name (some row)).ratio field =
      positiveOr (row.ratio field)
        ((defaultPricingFor toLowerCase quotaPerUnit name).ratio field) := by
  cases field <;> rfl

/-- An entry that a lookup would take for a hit is what its row resolves to now. Names that
change when they are normalised again are read by no edit. -/
def Coherent (toLowerCase : String → String) (quotaPerUnit : ℚ) (store : PricingStore) : Prop :=
  ∀ name, normalizeNameWith toLowerCase name = name → ∀ entry, store.cache.find name = some entry →
    entry.pricing = resolvePricing toLowerCase quotaPerUnit name (store.rows.find name)

theorem cachedPricing_eq_some {name : String} {now : Int} {store : PricingStore}
    {cached : ModelPricing} (hit : cachedPricing name now store = some cached) :
    ∃ entry, store.cache.find name = some entry ∧ entry.pricing = cached := by
  rw [cachedPricing] at hit
  cases found : store.cache.find name with
  | none =>
      rw [found] at hit
      cases hit
  | some entry =>
      rw [found] at hit
      dsimp only at hit
      split at hit
      · cases hit
      · split at hit
        · exact ⟨entry, rfl, Option.some.inj hit⟩
        · cases hit

/-- What has to be so for a call to leave every edit in effect: an edit names its model as it is
read and sets all that the row already has, and a lookup does not cache the catalogue over a row
that it failed to read. -/
def Careful (toLowerCase : String → String) (store : PricingStore) : PricingCall → Prop
  | .upsert input _ =>
      ∀ edit, readPriceEdit input = .ok edit →
        normalizeNameWith toLowerCase edit.model = edit.model ∧
          ∀ row, store.rows.find edit.model = some row →
            ∀ field, row.ratio field ≠ none → edit.ratio field ≠ none
  | .delete _ => True
  | .lookup model faults now =>
      faults.rowRead = true → faults.cacheWrite = false →
        (if faults.cacheRead then none
          else cachedPricing (normalizeNameWith toLowerCase model) now store) = none →
        store.rows.find (normalizeNameWith toLowerCase model) = none

theorem coherent_cachePricing {name : String} {now : Int} {store : PricingStore}
    (coherent : Coherent toLowerCase quotaPerUnit store) :
    Coherent toLowerCase quotaPerUnit (cachePricing ttlSec name
      (resolvePricing toLowerCase quotaPerUnit name (store.rows.find name)) now store) := by
  intro other fixed entry found
  cases find_cachePricing found with
  | inl written =>
      rw [written.2, written.1]
      rfl
  | inr kept => exact coherent other fixed entry kept

/-- Entries survive where neither their row nor their key was touched. -/
theorem coherent_write {id : String} {rows : Collection ModelPricingDoc} {store : PricingStore}
    (coherent : Coherent toLowerCase quotaPerUnit store)
    (others : ∀ name, name ≠ id → rows.find name = store.rows.find name) :
    Coherent toLowerCase quotaPerUnit
      ⟨rows, store.cache.deleteOne (normalizeNameWith toLowerCase id)⟩ := by
  intro name fixed entry found
  rw [Collection.find_deleteOne] at found
  split at found
  · cases found
  · next untouched =>
      have other : name ≠ id := by
        intro same
        rw [same] at fixed
        exact untouched (same.trans fixed.symm)
      rw [others name other]
      exact coherent name fixed entry found

theorem upsertPricing_store {input : Record} {readFails : Bool} {store : PricingStore} :
    (upsertPricing toLowerCase input readFails store).2 =
      match readPriceEdit input with
      | .error _ => store
      | .ok edit =>
          { rows := store.rows.upsert edit.row edit.set
            cache := store.cache.deleteOne (normalizeNameWith toLowerCase edit.model) } := by
  rw [upsertPricing]
  cases readPriceEdit input with
  | error error => rfl
  | ok edit =>
      dsimp only
      split
      · rfl
      · split
        · rfl
        · rfl

theorem getModelPricing_coherent {model : String} {faults : LookupFaults} {now : Int}
    {store : PricingStore} (careful : Careful toLowerCase store (.lookup model faults now))
    (coherent : Coherent toLowerCase quotaPerUnit store) :
    Coherent toLowerCase quotaPerUnit
      (getModelPricing toLowerCase quotaPerUnit ttlSec model faults now store).2 := by
  rw [getModelPricing]
  dsimp only
  split
  · exact coherent
  · next missed =>
      dsimp only
      split
      · exact coherent
      · next writes =>
          have kept := careful
          have row : (if faults.rowRead = true then none
              else store.rows.find (normalizeNameWith toLowerCase model)) =
              store.rows.find (normalizeNameWith toLowerCase model) := by
            split
            · next fails => exact (kept fails (Bool.not_eq_true _ ▸ writes) missed).symm
            · rfl
          rw [row]
          exact coherent_cachePricing coherent

theorem pricingStep_coherent (store : PricingStore) (call : PricingCall)
    (careful : Careful toLowerCase store call)
    (coherent : Coherent toLowerCase quotaPerUnit store) :
    Coherent toLowerCase quotaPerUnit
      (pricingStep toLowerCase quotaPerUnit ttlSec store call).1 := by
  cases call with
  | upsert input readFails =>
      change Coherent _ _ (upsertPricing toLowerCase input readFails store).2
      rw [upsertPricing_store]
      split
      · exact coherent
      · next edit read =>
          apply coherent_write coherent
          intro name other
          rw [find_row, if_neg other]
  | delete model =>
      apply coherent_write coherent
      intro name other
      rw [Collection.find_deleteOne, if_neg other]
  | lookup model faults now => exact getModelPricing_coherent careful coherent

/-- A lookup that can read the rows answers what the row resolves to. -/
theorem getModelPricing_reads {model : String} {faults : LookupFaults} {now : Int}
    {store : PricingStore} (coherent : Coherent toLowerCase quotaPerUnit store)
    (fixed : normalizeNameWith toLowerCase (normalizeNameWith toLowerCase model) =
      normalizeNameWith toLowerCase model) (working : faults.rowRead = false) :
    (getModelPricing toLowerCase quotaPerUnit ttlSec model faults now store).1 =
      resolvePricing toLowerCase quotaPerUnit (normalizeNameWith toLowerCase model)
        (store.rows.find (normalizeNameWith toLowerCase model)) := by
  rw [getModelPricing]
  dsimp only
  split
  · next cached hit =>
      split at hit
      · cases hit
      · obtain ⟨entry, found, rfl⟩ := cachedPricing_eq_some hit
        exact coherent _ fixed entry found
  · rw [working]
    rfl

end Coherence

section Effect

variable {toLowerCase : String → String} {quotaPerUnit : ℚ} {ttlSec : Int}

theorem positive_nonneg {value : Option Json} {field : String} {q : ℚ}
    (read : positive value field = .ok q) : 0 ≤ q := by
  rw [positive] at read
  split at read
  · split at read
    · next nonneg =>
        cases read
        exact nonneg
    · cases read
  · cases read

theorem optionalPositive_nonneg {value : Option Json} {field : String} {q : ℚ}
    (read : optionalPositive value field = .ok (some q)) : 0 ≤ q := by
  rw [optionalPositive] at read
  split at read
  · cases read
  · cases number : positive value field with
    | error error =>
        rw [number] at read
        cases read
    | ok q' =>
        rw [number] at read
        cases read
        exact positive_nonneg number

theorem readOptionalFields_nonneg {input : Record} (fields : List PriceField)
    {doc : List (PriceField × ℚ)} (read : readOptionalFields input fields = .ok doc) :
    ∀ entry ∈ doc, 0 ≤ entry.2 := by
  induction fields generalizing doc with
  | nil =>
      cases read
      exact fun entry mem => absurd mem List.not_mem_nil
  | cons field rest ih =>
      obtain ⟨value, first, read⟩ := Fallible.bind_ok read
      obtain ⟨more, others, read⟩ := Fallible.bind_ok read
      cases read
      intro entry mem
      cases List.mem_append.mp mem with
      | inl here =>
          cases value with
          | none => cases here
          | some q =>
              rw [List.mem_singleton.mp here]
              exact optionalPositive_nonneg first
      | inr there => exact ih others entry there

theorem readPriceEdit_nonneg {input : Record} {edit : PriceEdit}
    (read : readPriceEdit input = .ok edit) : ∀ entry ∈ edit.doc, 0 ≤ entry.2 := by
  obtain ⟨model, -, read⟩ := Fallible.bind_ok read
  obtain ⟨modelRatio, first, read⟩ := Fallible.bind_ok read
  obtain ⟨completionRatio, second, read⟩ := Fallible.bind_ok read
  obtain ⟨rest, others, read⟩ := Fallible.bind_ok read
  cases read
  intro entry mem
  cases mem with
  | head => exact positive_nonneg first
  | tail _ mem =>
      cases mem with
      | head => exact positive_nonneg second
      | tail _ mem => exact readOptionalFields_nonneg _ others entry mem

/-- The call writes or removes the row under `id`. -/
def PricingCall.writes (id : String) : PricingCall → Bool
  | .upsert input _ =>
      match readPriceEdit input with
      | .ok edit => edit.model == id
      | .error _ => false
  | .delete model => model == id
  | .lookup .. => false

/-- The row of an edit holds its fields and no others. -/
def Holds (edit : PriceEdit) (store : PricingStore) : Prop :=
  ∃ row, store.rows.find edit.model = some row ∧
    ∀ field, row.ratio field = (edit.ratio field).map Json.ofRat

theorem holds_upsert {input : Record} {readFails : Bool} {edit : PriceEdit} {store : PricingStore}
    (read : readPriceEdit input = .ok edit)
    (careful : Careful toLowerCase store (.upsert input readFails)) :
    Holds edit (upsertPricing toLowerCase input readFails store).2 := by
  rw [upsertPricing_store, read]
  refine ⟨_, (find_row edit store.rows edit.model).trans (if_pos rfl), fun field => ?_⟩
  change ((edit.ratio field).map Json.ofRat).or _ = _
  cases sets : edit.ratio field with
  | some q => rfl
  | none =>
      cases stored : store.rows.find edit.model with
      | none => rfl
      | some row =>
          change row.ratio field = none
          by_contra had
          exact (careful edit read).2 row stored field had sets

theorem pricingStep_holds {edit : PriceEdit} (store : PricingStore) (call : PricingCall)
    (other : call.writes edit.model = false) (holds : Holds edit store) :
    Holds edit (pricingStep toLowerCase quotaPerUnit ttlSec store call).1 := by
  obtain ⟨row, stored, fields⟩ := holds
  refine ⟨row, ?_, fields⟩
  cases call with
  | upsert input readFails =>
      change (upsertPricing toLowerCase input readFails store).2.rows.find edit.model = some row
      rw [upsertPricing_store]
      rw [PricingCall.writes] at other
      cases read : readPriceEdit input with
      | error error => exact stored
      | ok written =>
          rw [read] at other
          have distinct : edit.model ≠ written.model := by
            intro same
            rw [same] at other
            simp at other
          exact ((find_row written store.rows edit.model).trans (if_neg distinct)).trans stored
  | delete model =>
      change (store.rows.deleteOne model).find edit.model = some row
      have distinct : edit.model ≠ model := by
        intro same
        rw [same] at other
        simp [PricingCall.writes] at other
      rw [Collection.find_deleteOne, if_neg distinct]
      exact stored
  | lookup model faults now =>
      change (getModelPricing toLowerCase quotaPerUnit ttlSec model faults now store).2.rows.find
        edit.model = some row
      rw [getModelPricing]
      dsimp only
      split
      · exact stored
      · dsimp only
        split
        · exact stored
        · exact stored

/-- The defaults of a model are those of its normalised name. -/
theorem defaultPricingFor_congr {model other : String}
    (same : normalizeNameWith toLowerCase model = normalizeNameWith toLowerCase other) :
    defaultPricingFor toLowerCase quotaPerUnit model =
      defaultPricingFor toLowerCase quotaPerUnit other := by
  simp only [defaultPricingFor, cardFor, cacheReadRatioFor, usageSemanticWith, same]

theorem positiveOr_set {value : Option ℚ} (nonneg : ∀ q ∈ value, 0 ≤ q) (fallback : JsNumber) :
    positiveOr (value.map Json.ofRat) fallback = (value.map JsNumber.finite).getD fallback := by
  cases value with
  | none => rfl
  | some q => exact if_pos (nonneg q rfl)

theorem getModelPricing_of_holds {edit : PriceEdit} {store : PricingStore} {model : String}
    {faults : LookupFaults} (now : Int) (nonneg : ∀ entry ∈ edit.doc, 0 ≤ entry.2)
    (coherent : Coherent toLowerCase quotaPerUnit store) (holds : Holds edit store)
    (named : normalizeNameWith toLowerCase model = edit.model)
    (fixed : normalizeNameWith toLowerCase edit.model = edit.model)
    (working : faults.rowRead = false) (field : PriceField) :
    (getModelPricing toLowerCase quotaPerUnit ttlSec model faults now store).1.ratio field =
      ((edit.ratio field).map JsNumber.finite).getD
        ((defaultPricingFor toLowerCase quotaPerUnit edit.model).ratio field) := by
  obtain ⟨row, stored, fields⟩ := holds
  rw [getModelPricing_reads coherent (by rw [named, fixed]) working, named, stored,
    resolvePricing_ratio, fields, positiveOr_set]
  intro q sets
  exact nonneg _ (mem_of_lookup sets)

/-- In a run of calls that are all careful a price edit is what lookups answer from then on,
until its row is written again. -/
theorem price_edits_take_effect (rows : Collection ModelPricingDoc)
    (before after : List PricingCall) {input : Record} {readFails : Bool} {edit : PriceEdit}
    (read : readPriceEdit input = .ok edit)
    (careful : ∀ e ∈ Machine.trace (pricingStep toLowerCase quotaPerUnit ttlSec)
      ⟨rows, Collection.empty⟩ (before ++ .upsert input readFails :: after),
      Careful toLowerCase e.before e.action)
    (last : ∀ call ∈ after, call.writes edit.model = false)
    {model : String} (typed : jsTrim model = edit.model)
    {faults : LookupFaults} (working : faults.rowRead = false) (now : Int) (field : PriceField) :
    (getModelPricing toLowerCase quotaPerUnit ttlSec model faults now
      (Machine.run (pricingStep toLowerCase quotaPerUnit ttlSec) ⟨rows, Collection.empty⟩
        (before ++ .upsert input readFails :: after))).1.ratio field =
      ((edit.ratio field).map JsNumber.finite).getD
        ((defaultPricingFor toLowerCase quotaPerUnit model).ratio field) := by
  have start : Coherent toLowerCase quotaPerUnit ⟨rows, Collection.empty⟩ := by
    intro name fixed entry found
    cases found
  have coherent := Machine.run_invariant_where pricingStep_coherent start _ careful
  have edited : Careful toLowerCase
      (Machine.run (pricingStep toLowerCase quotaPerUnit ttlSec) ⟨rows, Collection.empty⟩ before)
      (.upsert input readFails) := by
    apply careful ⟨_, .upsert input readFails, _, _⟩
    rw [Machine.trace_append]
    exact List.mem_append_right _ List.mem_cons_self
  have holds : Holds edit (Machine.run (pricingStep toLowerCase quotaPerUnit ttlSec)
      ⟨rows, Collection.empty⟩ (before ++ .upsert input readFails :: after)) := by
    rw [Machine.run_append, Machine.run_cons]
    exact Machine.run_invariant_of pricingStep_holds (holds_upsert read edited) after last
  have fixed := (edited edit read).1
  have named : normalizeNameWith toLowerCase model = edit.model := by
    rw [← normalizeNameWith_jsTrim, typed, fixed]
  have same : defaultPricingFor toLowerCase quotaPerUnit edit.model =
      defaultPricingFor toLowerCase quotaPerUnit model :=
    defaultPricingFor_congr (fixed.trans named.symm)
  rw [getModelPricing_of_holds now (readPriceEdit_nonneg read) coherent holds named fixed working,
    same]

/-- An edit of both required ratios to one. -/
def unitPrice (model : String) (more : Record) : Record :=
  ("model", .str model) :: ("modelRatio", .ofNat 1) :: ("completionRatio", .ofNat 1) :: more

def noFaults : LookupFaults := ⟨false, false, false⟩

/-- The price of `model` after calls on an empty store. -/
def priceAfter (calls : List PricingCall) (model : String) : ModelPricing :=
  (getModelPricing jsToLower 500000 300 model noFaults 1000
    (Machine.run (pricingStep jsToLower 500000 300) ⟨.empty, .empty⟩ calls)).1

theorem price_edits_take_effect_typed :
    (priceAfter ([] ++ .upsert (unitPrice " gpt-4o" []) true ::
      [.lookup "OpenAI/GPT-4o" ⟨true, false, false⟩ 0]) " gpt-4o").ratio .cachedRatio =
      (defaultPricingFor jsToLower 500000 " gpt-4o").ratio .cachedRatio := by
  have read : readPriceEdit (unitPrice " gpt-4o" []) =
      .ok ⟨"gpt-4o", [(.modelRatio, 1), (.completionRatio, 1)]⟩ := by
    decide +kernel
  refine price_edits_take_effect .empty [] [.lookup "OpenAI/GPT-4o" ⟨true, false, false⟩ 0] read
    ?_ ?_ (by decide +kernel) rfl 1000 .cachedRatio
  · intro e mem
    cases mem with
    | head =>
        intro edit same
        cases read.symm.trans same
        refine ⟨by decide +kernel, fun row stored => ?_⟩
        cases stored
    | tail _ mem =>
        cases mem with
        | head => exact fun fails => by cases fails
        | tail _ mem => cases mem
  · intro call mem
    rw [List.mem_singleton.mp mem]
    rfl

/-- A name with a capital letter is stored where no lookup reads, a failed read puts the
catalogue over the row, and a field that an edit leaves out keeps an earlier value. -/
theorem price_edits_lost :
    readPriceEdit (unitPrice "GPT-4o" []) =
        .ok ⟨"GPT-4o", [(.modelRatio, 1), (.completionRatio, 1)]⟩ ∧
      (priceAfter [.upsert (unitPrice "GPT-4o" []) false] "GPT-4o").modelRatio = .finite (5 / 4) ∧
      (priceAfter [.upsert (unitPrice "gpt-4o" []) false,
        .lookup "gpt-4o" ⟨false, true, false⟩ 0] "gpt-4o").modelRatio = .finite (5 / 4) ∧
      (priceAfter [.upsert (unitPrice "gpt-4o" [("cachedRatio", .ofNat 3)]) false,
        .upsert (unitPrice "gpt-4o" []) false] "gpt-4o").cachedRatio = .finite 3 ∧
      (defaultPricingFor jsToLower 500000 "gpt-4o").cachedRatio = .finite (1 / 2) := by
  decide +kernel

end Effect

end Gateway
