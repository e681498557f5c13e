import Gateway.Lib.Collection
import Gateway.Tasks.Views

/-!
What is read from a provider's reply about a job.

The reply and the records nested in it are put side by side, the outer fields first.
Its texts reach the row of the job as the result, or as the reason of a failure.
-/

namespace Gateway

def SUCCESS_WORDS : List String :=
  ["success", "succeed", "succeeded", "completed", "complete", "finished", "done", "ok"]

def FAILURE_WORDS : List String :=
  ["failure", "failed", "fail", "error", "canceled", "cancelled", "rejected", "banned"]

def RUNNING_WORDS : List String :=
  ["in_progress", "inprogress", "in progress", "running", "processing", "generating", "started",
    "pending", "queued", "submitted", "not_start", "waiting"]

/-- The names that are `in` every object. -/
def INHERITED : List String :=
  ["constructor", "__defineGetter__", "__defineSetter__", "hasOwnProperty", "__lookupGetter__",
    "__lookupSetter__", "isPrototypeOf", "propertyIsEnumerable", "toString", "valueOf",
    "__proto__", "toLocaleString"]

def firstString (record : Record) (fields : List String) : String :=
  (fields.findSome? fun name =>
    match record.field name with
    | some (.str value) => if value = "" then none else some value
    | some (.num (.finite q)) => some (Json.numberString (.finite q))
    | _ => none).getD ""

/-- The fields of a nested record behind those that are there. -/
def addMissing (out inner : Record) : Record :=
  inner.foldl (fun out entry =>
    if INHERITED.contains entry.1 || out.has entry.1 then out else out ++ [entry]) out

/-- What `inner` makes of a nested record, behind the fields that are there. -/
def addNested (inner : Json → Record) (out : Record) : Option Json → Record
  | some (.obj child) => addMissing out (inner (.obj child))
  | _ => out

/-- The items of a list under their positions. -/
def spread (items : List Json) : Record :=
  items.zipIdx.map fun (item, index) => (toString index, item)

def NESTED : List String := ["data", "result", "task", "output", "response"]

/-- `levels` is how much deeper records are looked for. -/
def flatten : (levels : Nat) → Json → Record
  | levels + 1, .obj fields =>
      NESTED.foldl (fun out nested => addNested (flatten levels) out (Record.field fields nested))
        fields
  | _ + 1, .arr items => spread items
  | _, _ => []

structure Interpretation where
  status : TaskStatus
  progress : String
  result : Option Record
  failReason : Option String

def interpretPollResult (payload : Json) : Interpretation :=
  let flat := flatten 4 payload
  let word := jsTrim (jsToLower (firstString flat ["status", "state", "task_status", "taskStatus"]))
  let progressRaw := firstString flat ["progress", "percent", "percentage"]
  let progress :=
    if progressRaw = "" then "0%"
    else if progressRaw.toList.getLast? = some '%' then progressRaw else progressRaw ++ "%"
  let failReason :=
    firstString flat ["failReason", "fail_reason", "error", "error_message", "message"]
  if FAILURE_WORDS.contains word then
    { status := .failure, progress := progress, result := none
      failReason :=
        some (if failReason = "" then "the provider reported a failure" else failReason) }
  else if SUCCESS_WORDS.contains word then
    { status := .success, progress := "100%", result := some flat, failReason := none }
  else if RUNNING_WORDS.contains word then
    { status := .inProgress, progress := progress, result := none, failReason := none }
  else if progress = "100%" then
    { status := .success, progress := progress, result := some flat, failReason := none }
  else { status := .inProgress, progress := progress, result := none, failReason := none }

def POLL_BACKOFF_MS : List Int := [3000, 8000, 15000, 30000, 60000, 120000]

def nextPollDelayMs (pollCount : Nat) : Int :=
  (POLL_BACKOFF_MS[min pollCount (POLL_BACKOFF_MS.length - 1)]?).getD 120000

instance : Document TaskDoc String := ⟨TaskDoc.taskId⟩

/-- What an update sets; a field that is `none` is left as it is. -/
structure TaskPatch where
  upstreamTaskId : Option String
  status : Option TaskStatus
  progress : Option String
  startTime : Option Int
  finishTime : Option Int
  pollCount : Option Nat
  nextPollAt : Option Int
  result : Option Record
  failReason : Option String

namespace TaskPatch

def empty : TaskPatch := ⟨none, none, none, none, none, none, none, none, none⟩

def apply (patch : TaskPatch) : Update TaskDoc where
  apply doc := { doc with
    upstreamTaskId := patch.upstreamTaskId.or doc.upstreamTaskId
    status := patch.status.getD doc.status
    progress := patch.progress.getD doc.progress
    startTime := patch.startTime.or doc.startTime
    finishTime := patch.finishTime.or doc.finishTime
    pollCount := patch.pollCount.getD doc.pollCount
    nextPollAt := patch.nextPollAt.or doc.nextPollAt
    result := patch.result.or doc.result
    failReason := patch.failReason.or doc.failReason }
  key_apply _ := rfl

/-- `markSubmitted` -/
def submitted (upstreamTaskId : String) (now : Int) : TaskPatch :=
  { empty with
    upstreamTaskId := some upstreamTaskId, status := some .submitted, startTime := some now
    nextPollAt := some (now + nextPollDelayMs 0) }

/-- There was nothing to poll: what came back is the whole result. -/
def concluded (payload : Record) (now : Int) : TaskPatch :=
  { empty with
    status := some .success, progress := some "100%", finishTime := some now
    result := some payload }

def expired (now : Int) : TaskPatch :=
  { empty with
    status := some .expired, finishTime := some now
    failReason := some "the provider did not finish within the tracking window" }

def channelGone (now : Int) : TaskPatch :=
  { empty with
    status := some .failure, finishTime := some now
    failReason := some "the channel that accepted this job no longer exists" }

/-- The job was looked at without a verdict on it. -/
def counted (doc : TaskDoc) (now : Int) : TaskPatch :=
  { empty with
    pollCount := some (doc.pollCount + 1)
    nextPollAt := some (now + nextPollDelayMs (doc.pollCount + 1)) }

/-- What is written after a verdict. -/
def ofVerdict (doc : TaskDoc) (now : Int) (verdict : Interpretation) : TaskPatch :=
  let patch := { empty with
    status := some verdict.status, progress := some verdict.progress
    pollCount := some (doc.pollCount + 1) }
  match verdict.status with
  | .success => { patch with finishTime := some now, result := some (verdict.result.getD []) }
  | .failure => { patch with
      finishTime := some now
      failReason := some (verdict.failReason.getD "the provider reported a failure") }
  | _ => { patch with nextPollAt := some (now + nextPollDelayMs (doc.pollCount + 1)) }

def interpreted (doc : TaskDoc) (payload : Json) (now : Int) : TaskPatch :=
  ofVerdict doc now (interpretPollResult payload)

end TaskPatch

def updateTask (tasks : Collection TaskDoc) (taskId : String) (patch : TaskPatch) :
    Collection TaskDoc :=
  tasks.modify taskId patch.apply

/-- The row of a job after a reply about it at the date. -/
def polledTask (doc : TaskDoc) (payload : Json) (now : Int) : TaskDoc :=
  (TaskPatch.interpreted doc payload now).apply.apply doc

section Reply

theorem mem_addMissing {out inner : Record} {entry : String × Json}
    (mem : entry ∈ addMissing out inner) : entry ∈ out ∨ entry ∈ inner := by
  unfold addMissing at mem
  induction inner generalizing out with
  | nil => exact .inl mem
  | cons first rest ih =>
      rw [List.foldl_cons] at mem
      rcases ih mem with before | later
      · split at before
        · exact .inl before
        · exact (List.mem_append.mp before).imp_right fun last =>
            List.mem_cons.mpr (.inl (List.mem_singleton.mp last))
      · exact .inr (List.mem_cons_of_mem first later)

theorem mem_of_field {fields : Record} {key : String} {value : Json}
    (there : Record.field fields key = some value) : (key, value) ∈ fields := by
  induction fields with
  | nil => cases there
  | cons entry rest ih =>
      rw [Record.field_cons] at there
      split at there
      · next same =>
          cases there
          exact same ▸ List.mem_cons_self
      · exact List.mem_cons_of_mem entry (ih there)

/-- What is put side by side was in the reply, at some depth. -/
theorem texts_flatten (levels : Nat) (fields : Record) :
    (Json.obj (flatten levels (.obj fields))).texts ⊆ (Json.obj fields).texts := by
  induction levels generalizing fields with
  | zero => exact List.nil_subset _
  | succ levels ih =>
      suffices folded : ∀ (names : List String) (out : Record),
          (Json.obj out).texts ⊆ (Json.obj fields).texts →
          (Json.obj (names.foldl (fun out nested =>
            addNested (flatten levels) out (Record.field fields nested)) out)).texts ⊆
              (Json.obj fields).texts from
        folded NESTED fields (List.Subset.refl _)
      intro names
      induction names with
      | nil => exact fun _ within => within
      | cons name names run =>
          intro out within
          rw [List.foldl_cons]
          apply run
          cases there : Record.field fields name with
          | none => exact within
          | some value =>
              cases value with
              | null | bool _ | num _ | str _ | arr _ => exact within
              | obj child =>
                  intro text mem
                  obtain ⟨entry, entry_mem, here⟩ := Json.mem_texts_obj.mp mem
                  rcases mem_addMissing entry_mem with outer | nested
                  · exact within (Json.mem_texts_obj.mpr ⟨entry, outer, here⟩)
                  · have below := ih child (Json.mem_texts_obj.mpr ⟨entry, nested, here⟩)
                    exact Json.mem_texts_obj.mpr
                      ⟨(name, .obj child), mem_of_field there, .inr below⟩

/-- A result spells nothing that the reply does not. -/
theorem texts_result {fields result : Record}
    (finished : (interpretPollResult (.obj fields)).result = some result) :
    (Json.obj result).texts ⊆ (Json.obj fields).texts := by
  have flat : result = flatten 4 (.obj fields) := by
    rw [interpretPollResult] at finished
    split_ifs at finished <;> cases finished <;> rfl
  rw [flat]
  exact texts_flatten 4 fields

end Reply

/-- A job of the provider with the number 88991, while it runs. -/
def runningTask : TaskDoc :=
  { (default : TaskDoc) with
    taskId := "task-aaaaaaaaaaaaaaaaaaaaaaaaaaaa", upstreamTaskId := some "88991"
    platform := "midjourney", action := "imagine", model := "mj", status := .submitted
    progress := "0%", quota := 500, submitTime := 1780000000000, startTime := some 1780000001000 }

/-- The views of the job conceal the number as long as the job runs. -/
theorem views_conceal_upstream_running :
    ConcealedIn ⟨64, 20000⟩ String.toUpper runningTask "88991" :=
  (views_conceal_upstream_iff ⟨64, 20000⟩ String.toUpper runningTask "88991" rfl (by decide)
    (by decide)).mpr ⟨by decide +kernel, fun _ => ⟨by decide +kernel, by decide +kernel⟩⟩

/-- A provider that names its number in the reason of a failure has it shown. -/
theorem upstream_shown_as_reason :
    ¬ ConcealedIn ⟨64, 20000⟩ String.toUpper
      (polledTask runningTask (.obj [("status", .str "failed"), ("error", .str "88991")])
        1780000009000) "88991" := by
  intro concealed
  have reason : (polledTask runningTask (.obj [("status", .str "failed"), ("error", .str "88991")])
      1780000009000).failReason = some "88991" := by decide +kernel
  refine concealed.2 ((mem_mjTaskView (by decide) (by decide)).mpr ?_)
  rw [TaskDoc.mjTexts, reason]
  exact List.mem_append_right _ (List.mem_singleton_self _)

end Gateway
