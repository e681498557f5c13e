import Gateway.Http.Errors
import Gateway.Util.Json

/-!
The rows of asynchronous jobs, and who may see them.

A job is looked up under the id that the gateway drew. One that belongs to somebody
else is reported as absent.
-/

namespace Gateway

inductive TaskStatus where
  | pending
  | submitted
  | inProgress
  | success
  | failure
  | expired
deriving DecidableEq, Inhabited, Repr

/-- A row of the collection, as far as the modelled functions read it. -/
structure TaskDoc where
  taskId : String
  upstreamTaskId : Option String
  platform : String
  action : String
  userId : String
  channelId : String
  channelKeyId : Option String
  model : String
  status : TaskStatus
  progress : String
  quota : ℚ
  submitTime : Int
  startTime : Option Int
  finishTime : Option Int
  pollCount : Nat
  nextPollAt : Option Int
  result : Option Record
  failReason : Option String
deriving Inhabited

structure TaskActor where
  userId : String
  role : String

def noSuchTask : Thrown := .gateway (notFound "no such task")

/-- `/^task-[A-Za-z0-9]{28}$/` -/
def isTaskId (taskId : String) : Bool :=
  startsWith taskId "task-" && (taskId.toList.drop 5).length == 28 &&
    (taskId.toList.drop 5).all Char.isAlphanum

/-- A job that the actor may see: one of its own, or any for an administrator. -/
def visibleTo (actor : TaskActor) (doc : TaskDoc) : Bool :=
  actor.role == "admin" || actor.role == "root" || doc.userId == actor.userId

def requireTask (tasks : List TaskDoc) (taskId : String) (actor : TaskActor) :
    Except Thrown TaskDoc :=
  if !isTaskId taskId then .error noSuchTask
  else
    match tasks.find? fun doc => doc.taskId == taskId && visibleTo actor doc with
    | none => .error noSuchTask
    | some doc => .ok doc

/-- A job that is found has the id it was looked up under, and may be seen. -/
theorem requireTask_ok {tasks : List TaskDoc} {taskId : String} {actor : TaskActor} {doc : TaskDoc}
    (h : requireTask tasks taskId actor = .ok doc) :
    isTaskId taskId = true ∧ doc ∈ tasks ∧ doc.taskId = taskId ∧ visibleTo actor doc = true := by
  rw [requireTask] at h
  split at h
  · cases h
  · next known =>
      cases found : tasks.find? fun doc => doc.taskId == taskId && visibleTo actor doc with
      | none =>
          rw [found] at h
          cases h
      | some found_doc =>
          rw [found] at h
          cases h
          have matched := List.find?_some found
          rw [Bool.and_eq_true, beq_iff_eq] at matched
          exact ⟨by simpa using known, List.mem_of_find?_eq_some found, matched⟩

end Gateway
