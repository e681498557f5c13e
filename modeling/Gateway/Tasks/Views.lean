import Gateway.Tasks.Task
import Gateway.Util.Leaves
import Gateway.Util.Sanitize
import Gateway.Util.Time

/-!
What a client is shown of a job.

The provider's id is replaced in the texts and the numbers of the result. The keys
of the result, and the fields beside it, are shown as they are.
-/

namespace Gateway

def TaskStatus.text : TaskStatus → String
  | .pending => "pending"
  | .submitted => "submitted"
  | .inProgress => "in_progress"
  | .success => "success"
  | .failure => "failure"
  | .expired => "expired"

def MJ_STATUS : TaskStatus → String
  | .pending => "NOT_START"
  | .submitted => "SUBMITTED"
  | .inProgress => "IN_PROGRESS"
  | .success => "SUCCESS"
  | .failure => "FAILURE"
  | .expired => "FAILURE"

section Rewrite

variable (upstream own : String)

mutual

/-- The copy below the sanitised value: texts and numbers that spell one id become the other. -/
def rewriteValue : Json → Json
  | .str text => if text = upstream then .str own else .str text
  | .num n => if Json.numberString n = upstream then .str own else .num n
  | .arr items => .arr (rewriteItems items)
  | .obj fields => .obj (rewriteFields fields)
  | value => value

def rewriteItems : List Json → List Json
  | [] => []
  | item :: rest => rewriteValue item :: rewriteItems rest

def rewriteFields : List (String × Json) → List (String × Json)
  | [] => []
  | (key, item) :: rest => (key, rewriteValue item) :: rewriteFields rest

end

def rewriteTaskId (limits : JsonLimits) (value : Json) : Except Thrown Json :=
  match value.assertLimits limits with
  | .error limit => .error (.gateway (invalidRequest (limit.message limits)))
  | .ok () =>
      .ok (if upstream = "" then value.cloneSanitized
        else rewriteValue upstream own value.cloneSanitized)

end Rewrite

/-- The result, or the `null` in its place. -/
def TaskDoc.shownResult (doc : TaskDoc) : Json := doc.result.elim .null .obj

def publicTask (limits : JsonLimits) (doc : TaskDoc) : Except Thrown Record :=
  match rewriteTaskId (doc.upstreamTaskId.getD "") doc.taskId limits doc.shownResult with
  | .error e => .error e
  | .ok result =>
      .ok [("id", .str doc.taskId), ("object", .str "task"), ("platform", .str doc.platform),
        ("action", .str doc.action), ("model", .str doc.model), ("status", .str doc.status.text),
        ("progress", .str doc.progress), ("quota", .ofRat doc.quota),
        ("submitTime", .str (isoText doc.submitTime)),
        ("startTime", doc.startTime.elim .null fun date => .str (isoText date)),
        ("finishTime", doc.finishTime.elim .null fun date => .str (isoText date)),
        ("result", result), ("failReason", doc.failReason.elim .null .str)]

/-- `getTime()` as a value. -/
def Json.ofDate (date : Int) : Json := .num (.ofInt date)

def TaskDoc.imageUrl (doc : TaskDoc) : String :=
  asString ((doc.result.getD []).field "imageUrl")

/-- `toUpperCase` is that of the language. -/
def mjTaskView (toUpperCase : String → String) (doc : TaskDoc) : Record :=
  [("id", .str doc.taskId), ("action", .str (toUpperCase doc.action)),
    ("status", .str (MJ_STATUS doc.status)), ("progress", .str doc.progress),
    ("description", .str (doc.failReason.getD "")), ("submitTime", .ofDate doc.submitTime),
    ("startTime", .ofDate (doc.startTime.getD 0)), ("finishTime", .ofDate (doc.finishTime.getD 0)),
    ("imageUrl", .str doc.imageUrl), ("failReason", .str (doc.failReason.getD "")),
    ("properties", .obj [])]

/-- The texts of the public view that are the same for every job, or copied from it. -/
def TaskDoc.publicTexts (doc : TaskDoc) : List String :=
  ["id", "object", "platform", "action", "model", "status", "progress", "quota", "submitTime",
    "startTime", "finishTime", "result", "failReason", "task"] ++
    [doc.platform, doc.action, doc.model, doc.status.text, doc.progress,
      Json.numberString (.finite doc.quota), isoText doc.submitTime] ++
    (doc.startTime.map isoText).toList ++ (doc.finishTime.map isoText).toList ++
    doc.failReason.toList

/-- The same of the other view. -/
def TaskDoc.mjTexts (toUpperCase : String → String) (doc : TaskDoc) : List String :=
  ["id", "action", "status", "progress", "description", "submitTime", "startTime", "finishTime",
    "imageUrl", "failReason", "properties"] ++
    [toUpperCase doc.action, MJ_STATUS doc.status, doc.progress, doc.imageUrl,
      Json.numberString (.ofInt doc.submitTime),
      Json.numberString (.ofInt (doc.startTime.getD 0)),
      Json.numberString (.ofInt (doc.finishTime.getD 0))] ++
    doc.failReason.toList

/-- Nothing in either view spells the text: no key, no text and no number. -/
def ConcealedIn (limits : JsonLimits) (toUpperCase : String → String) (doc : TaskDoc)
    (text : String) : Prop :=
  (∀ view, publicTask limits doc = .ok view → text ∉ (Json.obj view).texts) ∧
    text ∉ (Json.obj (mjTaskView toUpperCase doc)).texts

section Conceal

variable {upstream own : String}

mutual

theorem keys_rewriteValue : (value : Json) → (rewriteValue upstream own value).keys = value.keys
  | .arr items => keys_rewriteItems items
  | .obj fields => keys_rewriteFields fields
  | .null | .bool _ => rfl
  | .num n => by
      rw [rewriteValue]
      split <;> rfl
  | .str text => by
      rw [rewriteValue]
      split <;> rfl

theorem keys_rewriteItems : (items : List Json) →
    Json.itemKeys (rewriteItems upstream own items) = Json.itemKeys items
  | [] => rfl
  | item :: rest => by
      rw [rewriteItems, Json.itemKeys, Json.itemKeys, keys_rewriteValue item,
        keys_rewriteItems rest]

theorem keys_rewriteFields : (fields : List (String × Json)) →
    Json.fieldKeys (rewriteFields upstream own fields) = Json.fieldKeys fields
  | [] => rfl
  | (key, item) :: rest => by
      rw [rewriteFields, Json.fieldKeys, Json.fieldKeys, keys_rewriteValue item,
        keys_rewriteFields rest]

end

mutual

/-- No text and no number that is left spells the id. -/
theorem upstream_not_mem_leaves (other : upstream ≠ own) : (value : Json) →
    ∀ leaf ∈ (rewriteValue upstream own value).leaves, upstream ∉ leaf.spelling
  | .arr items => upstream_not_mem_items other items
  | .obj fields => upstream_not_mem_fields other fields
  | .null | .bool _ => by simp [rewriteValue, Json.leaves, Json.spelling]
  | .num n => by
      rw [rewriteValue]
      split
      · simpa [Json.leaves, Json.spelling] using other
      · next differs => simpa [Json.leaves, Json.spelling] using Ne.symm differs
  | .str text => by
      rw [rewriteValue]
      split
      · simpa [Json.leaves, Json.spelling] using other
      · next differs => simpa [Json.leaves, Json.spelling] using Ne.symm differs

theorem upstream_not_mem_items (other : upstream ≠ own) : (items : List Json) →
    ∀ leaf ∈ Json.itemLeaves (rewriteItems upstream own items), upstream ∉ leaf.spelling
  | [] => by simp [rewriteItems, Json.itemLeaves]
  | item :: rest => by
      rw [rewriteItems, Json.itemLeaves, List.forall_mem_append]
      exact ⟨upstream_not_mem_leaves other item, upstream_not_mem_items other rest⟩

theorem upstream_not_mem_fields (other : upstream ≠ own) : (fields : List (String × Json)) →
    ∀ leaf ∈ Json.fieldLeaves (rewriteFields upstream own fields), upstream ∉ leaf.spelling
  | [] => by simp [rewriteFields, Json.fieldLeaves]
  | (_, item) :: rest => by
      rw [rewriteFields, Json.fieldLeaves, List.forall_mem_append]
      exact ⟨upstream_not_mem_leaves other item, upstream_not_mem_fields other rest⟩

end

/-- In the copy, the id is spelled where a key is. -/
theorem mem_texts_rewriteValue (other : upstream ≠ own) (value : Json) :
    upstream ∈ (rewriteValue upstream own value).texts ↔ upstream ∈ value.keys := by
  rw [Json.texts, List.mem_append, keys_rewriteValue]
  refine or_iff_left fun mem => ?_
  obtain ⟨leaf, within, spelled⟩ := List.mem_flatMap.mp mem
  exact upstream_not_mem_leaves other value leaf within spelled

theorem rewriteTaskId_ok {limits : JsonLimits} {value result : Json} (filled : upstream ≠ "")
    (h : rewriteTaskId upstream own limits value = .ok result) :
    result = rewriteValue upstream own value.cloneSanitized := by
  rw [rewriteTaskId] at h
  split at h
  · cases h
  · rw [if_neg filled] at h
    cases h
    rfl

theorem texts_shown {α : Type*} (value : Option α) (text : α → String) :
    (value.elim Json.null fun a => .str (text a)).texts = (value.map text).toList := by
  cases value <;> rfl

theorem publicTask_ok {limits : JsonLimits} {doc : TaskDoc} {view : Record}
    (known : doc.upstreamTaskId = some upstream) (filled : upstream ≠ "")
    (other : upstream ≠ doc.taskId) (h : publicTask limits doc = .ok view) :
    upstream ∈ (Json.obj view).texts ↔
      upstream ∈ doc.publicTexts ∨ upstream ∈ doc.shownResult.cloneSanitized.keys := by
  rw [publicTask] at h
  split at h
  · cases h
  · next result rewritten =>
      rw [known, Option.getD_some] at rewritten
      cases h
      have in_result := mem_texts_rewriteValue other doc.shownResult.cloneSanitized
      rw [← rewriteTaskId_ok filled rewritten] at in_result
      have reason : (doc.failReason.elim Json.null Json.str).texts = doc.failReason.toList := by
        cases doc.failReason <;> rfl
      simp only [Json.mem_texts_obj, List.mem_cons, List.not_mem_nil, or_false, or_and_right,
        exists_or, exists_eq_left, Json.texts_str, Json.texts_num, Json.ofRat, texts_shown,
        in_result, other, reason, TaskDoc.publicTexts, List.mem_append]
      apply iff_of_eq
      ac_rfl

theorem mem_getD {text : String} (filled : text ≠ "") (value : Option String) :
    text = value.getD "" ↔ text ∈ value.toList := by
  cases value with
  | none => exact iff_of_false filled List.not_mem_nil
  | some own => exact List.mem_singleton.symm

theorem mem_mjTaskView {toUpperCase : String → String} {doc : TaskDoc} (filled : upstream ≠ "")
    (other : upstream ≠ doc.taskId) :
    upstream ∈ (Json.obj (mjTaskView toUpperCase doc)).texts ↔
      upstream ∈ doc.mjTexts toUpperCase := by
  have reason := mem_getD filled doc.failReason
  have empty : ¬ upstream ∈ (Json.obj []).texts := List.not_mem_nil
  simp only [mjTaskView, Json.mem_texts_obj, List.mem_cons, List.not_mem_nil, or_false,
    or_and_right, exists_or, exists_eq_left, Json.texts_str, Json.texts_num, Json.ofDate, other,
    reason, empty, TaskDoc.mjTexts, List.mem_append]
  apply iff_of_eq
  ac_rfl

/-- The public view is made of a job whose result is within the limits. -/
theorem publicTask_isOk {limits : JsonLimits} {doc : TaskDoc} :
    (∃ view, publicTask limits doc = .ok view) ↔ doc.shownResult.assertLimits limits = .ok () := by
  rw [publicTask, rewriteTaskId]
  cases doc.shownResult.assertLimits limits with
  | error limit => simp
  | ok _ => simp

end Conceal

/-- The views of a job conceal the provider's id exactly when it is none of the texts that are
copied or fixed, and no key of the result. -/
theorem views_conceal_upstream_iff (limits : JsonLimits) (toUpperCase : String → String)
    (doc : TaskDoc) (upstream : String) (known : doc.upstreamTaskId = some upstream)
    (filled : upstream ≠ "") (other : upstream ≠ doc.taskId) :
    ConcealedIn limits toUpperCase doc upstream ↔
      upstream ∉ doc.mjTexts toUpperCase ∧
        (doc.shownResult.assertLimits limits = .ok () →
          upstream ∉ doc.publicTexts ∧ upstream ∉ doc.shownResult.cloneSanitized.keys) := by
  rw [ConcealedIn, mem_mjTaskView filled other, ← publicTask_isOk, and_comm]
  refine and_congr_right fun _ => ?_
  rw [forall_exists_index]
  refine forall_congr' fun view => forall_congr' fun shown => ?_
  rw [publicTask_ok known filled other shown, not_or]

end Gateway
