import Gateway.Lib.Machine
import Gateway.Tasks.Policy
import Gateway.Tasks.Poll
import Mathlib.Logic.Function.Basic

/-!
Runs of the poller beside each other and beside submissions.

A run reads a batch of jobs once and then works through it, asking the provider
about each and writing back what it said. Writes go to the row of the job, whatever
its status has become since it was read. Every action is one access to the
database or one request to the provider.
-/

namespace Gateway

def TaskStatus.isTerminal : TaskStatus → Bool
  | .success | .failure | .expired => true
  | _ => false

def MAX_POLL_COUNT : Nat := 240

def TASK_MAX_AGE_MS : Int := 24 * 60 * 60 * 1000

def SCAN_LIMIT : Int := 500

/-- A row that a scan picks up. -/
def isDue (now : Int) (doc : TaskDoc) : Bool :=
  !doc.status.isTerminal && doc.nextPollAt.all (· ≤ now)

/-- The order of a scan: by the time of the next poll, a missing one first, then by submission. -/
def dueBefore (doc other : TaskDoc) : Bool :=
  match doc.nextPollAt, other.nextPollAt with
  | none, none => doc.submitTime ≤ other.submitTime
  | none, some _ => true
  | some _, none => false
  | some due, some due' => due < due' || (due == due' && doc.submitTime ≤ other.submitTime)

def dueTasks (tasks : Collection TaskDoc) (now limit : Int) : List TaskDoc :=
  ((tasks.docs.filter (isDue now)).mergeSort dueBefore).take (max 1 (min SCAN_LIMIT limit)).toNat

def isExpired (doc : TaskDoc) (now : Int) : Bool :=
  MAX_POLL_COUNT ≤ doc.pollCount || TASK_MAX_AGE_MS ≤ now - doc.submitTime

/-- What came of a request to the provider. -/
inductive PollReply where
  | refused
  | told (payload : Json)

/-- How far the run is with the first job of what is left of its batch. -/
inductive PollStage where
  | ready
  | asking
  | answered (reply : PollReply)

structure Poller where
  batch : List TaskDoc
  stage : PollStage

def Poller.idle : Poller := ⟨[], .ready⟩

inductive PollAction where
  | scan (now limit : Int)
  | next (now : Int)
  | channelGone (now : Int)
  | unreached (now : Int)
  | ask (reply : PollReply)
  | settle (now : Int)

/-- A job that is not asked about: it is too old, or the provider never gave it an id. -/
def Poller.passes (doc : TaskDoc) (now : Int) : Bool :=
  isExpired doc now || !given doc.upstreamTaskId

/-- What an action writes, under which id. -/
def Poller.write : Poller → PollAction → Option (String × TaskPatch)
  | ⟨doc :: _, .ready⟩, .next now =>
      if isExpired doc now then some (doc.taskId, .expired now)
      else if given doc.upstreamTaskId then none
      else some (doc.taskId, .counted doc now)
  | ⟨doc :: _, .asking⟩, .channelGone now => some (doc.taskId, .channelGone now)
  | ⟨doc :: _, .asking⟩, .unreached now => some (doc.taskId, .counted doc now)
  | ⟨doc :: _, .answered .refused⟩, .settle now => some (doc.taskId, .counted doc now)
  | ⟨doc :: _, .answered (.told payload)⟩, .settle now =>
      some (doc.taskId, .interpreted doc payload now)
  | _, _ => none

def Poller.after (tasks : Collection TaskDoc) : Poller → PollAction → Poller
  | ⟨[], .ready⟩, .scan now limit => ⟨dueTasks tasks now limit, .ready⟩
  | ⟨doc :: rest, .ready⟩, .next now =>
      if Poller.passes doc now then ⟨rest, .ready⟩ else ⟨doc :: rest, .asking⟩
  | ⟨_ :: rest, .asking⟩, .channelGone _ => ⟨rest, .ready⟩
  | ⟨_ :: rest, .asking⟩, .unreached _ => ⟨rest, .ready⟩
  | ⟨doc :: rest, .asking⟩, .ask reply => ⟨doc :: rest, .answered reply⟩
  | ⟨_ :: rest, .answered _⟩, .settle _ => ⟨rest, .ready⟩
  | poller, _ => poller

/-- The job that an action asks the provider about. -/
def Poller.asks : Poller → PollAction → Option String
  | ⟨doc :: _, .asking⟩, .ask _ => some doc.taskId
  | _, _ => none

/-- The rows, the requests that the provider had about each job, the runs of the poller, and the
ids of the rows that submissions have created and not written to. -/
structure TaskSystem where
  tasks : Collection TaskDoc
  asked : String → Nat
  pollers : Nat → Poller
  submissions : Nat → Option String

inductive TaskAction where
  | poll (poller : Nat) (action : PollAction)
  | create (submission : Nat) (doc : TaskDoc)
  | markSubmitted (submission : Nat) (upstreamTaskId : String) (now : Int)
  | conclude (submission : Nat) (payload : Record) (now : Int)

/-- The row of `createTask`: whatever was asked for, as a pending job that was never polled. -/
def createdTask (doc : TaskDoc) : TaskDoc :=
  { doc with
    upstreamTaskId := none, status := .pending, progress := "0%", startTime := none
    finishTime := none, pollCount := 0, nextPollAt := some (doc.submitTime + nextPollDelayMs 0)
    result := none, failReason := none }

def TaskSystem.write (s : TaskSystem) : TaskAction → Option (String × TaskPatch)
  | .poll p action => (s.pollers p).write action
  | .create _ _ => none
  | .markSubmitted id upstreamTaskId now =>
      (s.submissions id).map fun taskId => (taskId, .submitted upstreamTaskId now)
  | .conclude id payload now =>
      (s.submissions id).map fun taskId => (taskId, .concluded payload now)

def taskStep (s : TaskSystem) (a : TaskAction) : TaskSystem × Unit :=
  match a with
  | .poll p action =>
      ({ s with
        tasks := (s.write a).elim s.tasks fun w => updateTask s.tasks w.1 w.2
        asked := ((s.pollers p).asks action).elim s.asked fun id =>
          Function.update s.asked id (s.asked id + 1)
        pollers := Function.update s.pollers p ((s.pollers p).after s.tasks action) }, ())
  | .create id doc =>
      match s.tasks.insertOne (createdTask doc) with
      | none => (s, ())
      | some tasks =>
          ({ s with
            tasks := tasks
            submissions := Function.update s.submissions id (some doc.taskId) }, ())
  | .markSubmitted id _ _ | .conclude id _ _ =>
      ({ s with
        tasks := (s.write a).elim s.tasks fun w => updateTask s.tasks w.1 w.2
        submissions := Function.update s.submissions id none }, ())

section Terminal

/-- The row of a job that has ended, and what may not change any more. -/
structure SameEnd (doc other : TaskDoc) : Prop where
  status : other.status = doc.status
  result : other.result = doc.result
  failReason : other.failReason = doc.failReason
  finishTime : other.finishTime = doc.finishTime

/-- What has ended in the one state has ended in the other one, and in the same way. -/
def KeepsEnded (s t : TaskSystem) : Prop :=
  ∀ id doc, s.tasks.find id = some doc → doc.status.isTerminal = true →
    ∃ other, t.tasks.find id = some other ∧ SameEnd doc other

/-- Nobody has ended the job that the action is about to write a status of. -/
def Timely (s : TaskSystem) (a : TaskAction) : Prop :=
  ∀ w ∈ s.write a, w.2.status.isSome = true →
    ∀ doc ∈ s.tasks.find w.1, doc.status.isTerminal = false

instance (s : TaskSystem) (a : TaskAction) : Decidable (Timely s a) :=
  inferInstanceAs (Decidable (∀ w ∈ s.write a, w.2.status.isSome = true →
    ∀ doc ∈ s.tasks.find w.1, doc.status.isTerminal = false))

theorem SameEnd.refl (doc : TaskDoc) : SameEnd doc doc := ⟨rfl, rfl, rfl, rfl⟩

theorem SameEnd.trans {doc mid last : TaskDoc} (first : SameEnd doc mid)
    (second : SameEnd mid last) : SameEnd doc last :=
  ⟨second.status.trans first.status, second.result.trans first.result,
    second.failReason.trans first.failReason, second.finishTime.trans first.finishTime⟩

/-- A patch without a status leaves alone how a job has ended. -/
def TaskPatch.Quiet (patch : TaskPatch) : Prop :=
  patch.status = none ∧ patch.finishTime = none ∧ patch.result = none ∧ patch.failReason = none

theorem TaskPatch.Quiet.sameEnd {patch : TaskPatch} (quiet : patch.Quiet) (doc : TaskDoc) :
    SameEnd doc (patch.apply.apply doc) := by
  obtain ⟨status, finishTime, result, failReason⟩ := quiet
  exact ⟨by simp [TaskPatch.apply, status], by simp [TaskPatch.apply, result],
    by simp [TaskPatch.apply, failReason], by simp [TaskPatch.apply, finishTime]⟩

/-- How a run of the poller goes on: what it becomes, what it writes and whom it asks about. -/
inductive Poller.Step (tasks : Collection TaskDoc) :
    Poller → Poller → Option (String × TaskPatch) → Option String → Prop
  | still (poller : Poller) : Step tasks poller poller none none
  | scan (now limit : Int) : Step tasks .idle ⟨dueTasks tasks now limit, .ready⟩ none none
  | start {doc : TaskDoc} {rest : List TaskDoc} (few : doc.pollCount < MAX_POLL_COUNT) :
      Step tasks ⟨doc :: rest, .ready⟩ ⟨doc :: rest, .asking⟩ none none
  | ask {doc : TaskDoc} {rest : List TaskDoc} (reply : PollReply) :
      Step tasks ⟨doc :: rest, .asking⟩ ⟨doc :: rest, .answered reply⟩ none (some doc.taskId)
  | close {doc : TaskDoc} {rest : List TaskDoc} {stage : PollStage} {patch : TaskPatch}
      (settled : patch.status.isSome = true ∨ patch.Quiet)
      (counted : patch.pollCount = some (doc.pollCount + 1) ∨
        patch.pollCount = none ∧ ∀ reply, stage ≠ .answered reply) :
      Step tasks ⟨doc :: rest, stage⟩ ⟨rest, .ready⟩ (some (doc.taskId, patch)) none

theorem TaskPatch.interpreted_spec (doc : TaskDoc) (payload : Json) (now : Int) :
    (TaskPatch.interpreted doc payload now).status.isSome = true ∧
      (TaskPatch.interpreted doc payload now).pollCount = some (doc.pollCount + 1) := by
  rw [TaskPatch.interpreted, TaskPatch.ofVerdict]
  split <;> exact ⟨rfl, rfl⟩

theorem TaskPatch.quiet_counted (doc : TaskDoc) (now : Int) : (TaskPatch.counted doc now).Quiet :=
  ⟨rfl, rfl, rfl, rfl⟩

theorem Poller.step_of (tasks : Collection TaskDoc) (poller : Poller) (action : PollAction) :
    Poller.Step tasks poller (poller.after tasks action) (poller.write action)
      (poller.asks action) := by
  obtain ⟨batch, stage⟩ := poller
  cases batch with
  | nil =>
      cases stage with
      | ready => cases action <;> first | exact .scan _ _ | exact .still _
      | asking | answered _ => cases action <;> exact .still _
  | cons doc rest =>
      cases stage with
      | ready =>
          cases action with
          | next now =>
              change Poller.Step tasks _
                (if Poller.passes doc now then ⟨rest, .ready⟩ else ⟨doc :: rest, .asking⟩)
                (if isExpired doc now then some (doc.taskId, .expired now)
                  else if given doc.upstreamTaskId then none
                  else some (doc.taskId, .counted doc now)) none
              rw [Poller.passes]
              by_cases old : isExpired doc now = true
              · rw [if_pos old, old, Bool.true_or, if_pos rfl]
                exact .close (.inl rfl) (.inr ⟨rfl, by simp⟩)
              · rw [if_neg old, Bool.eq_false_of_not_eq_true old, Bool.false_or]
                by_cases known : given doc.upstreamTaskId = true
                · rw [if_pos known, known]
                  refine .start ?_
                  rw [isExpired, Bool.or_eq_true, not_or, decide_eq_true_eq, Nat.not_le] at old
                  exact old.1
                · rw [if_neg known, Bool.eq_false_of_not_eq_true known]
                  exact .close (.inr (TaskPatch.quiet_counted doc now)) (.inl rfl)
          | scan _ _ | channelGone _ | unreached _ | ask _ | settle _ => exact .still _
      | asking =>
          cases action with
          | channelGone now => exact .close (.inl rfl) (.inr ⟨rfl, by simp⟩)
          | unreached now => exact .close (.inr (TaskPatch.quiet_counted doc now)) (.inl rfl)
          | ask reply => exact .ask reply
          | scan _ _ | next _ | settle _ => exact .still _
      | answered reply =>
          cases action with
          | settle now =>
              cases reply with
              | refused => exact .close (.inr (TaskPatch.quiet_counted doc now)) (.inl rfl)
              | told payload =>
                  have spec := TaskPatch.interpreted_spec doc payload now
                  exact .close (.inl spec.1) (.inl spec.2)
          | scan _ _ | next _ | channelGone _ | unreached _ | ask _ =>
              cases reply <;> exact .still _

theorem Poller.Step.settles {tasks : Collection TaskDoc} {poller after : Poller}
    {write : Option (String × TaskPatch)} {asks : Option String}
    (step : Poller.Step tasks poller after write asks) {id : String} {patch : TaskPatch}
    (written : write = some (id, patch)) : patch.status.isSome = true ∨ patch.Quiet := by
  cases step with
  | still _ | scan _ _ | start _ | ask _ => cases written
  | close settled counted =>
      cases written
      exact settled

/-- What is written either has a status or leaves alone how a job has ended. -/
theorem TaskSystem.write_spec {s : TaskSystem} {a : TaskAction} {id : String} {patch : TaskPatch}
    (written : s.write a = some (id, patch)) : patch.status.isSome = true ∨ patch.Quiet := by
  cases a with
  | poll p action => exact (Poller.step_of s.tasks (s.pollers p) action).settles written
  | create _ _ => cases written
  | markSubmitted submission _ _ | conclude submission _ _ =>
      obtain ⟨taskId, -, same⟩ := Option.map_eq_some_iff.mp written
      cases same
      exact .inl rfl

/-- A write that comes in time leaves alone what has ended. -/
theorem keepsEnded_write {s : TaskSystem} {a : TaskAction} (timely : Timely s a) (id : String)
    (doc : TaskDoc) (found : s.tasks.find id = some doc) (ended : doc.status.isTerminal = true) :
    ∃ other, ((s.write a).elim s.tasks fun w => updateTask s.tasks w.1 w.2).find id = some other ∧
      SameEnd doc other := by
  cases written : s.write a with
  | none => exact ⟨doc, found, SameEnd.refl doc⟩
  | some w =>
      obtain ⟨taskId, patch⟩ := w
      refine ⟨_, Collection.find_modify_some found taskId patch.apply, ?_⟩
      by_cases same : id = taskId
      · subst same
        rw [if_pos rfl]
        rcases TaskSystem.write_spec written with settles | quiet
        · have open_still := timely (id, patch) written settles doc found
          rw [ended] at open_still
          cases open_still
        · exact quiet.sameEnd doc
      · rw [if_neg same]
        exact SameEnd.refl doc

theorem keepsEnded_step {s : TaskSystem} {a : TaskAction} (timely : Timely s a) :
    KeepsEnded s (taskStep s a).1 := by
  intro id doc found ended
  cases a with
  | poll p action => exact keepsEnded_write timely id doc found ended
  | markSubmitted _ _ _ | conclude _ _ _ => exact keepsEnded_write timely id doc found ended
  | create submission new =>
      rw [taskStep]
      cases inserted : s.tasks.insertOne (createdTask new) with
      | none => exact ⟨doc, found, SameEnd.refl doc⟩
      | some tasks =>
          obtain ⟨fresh, rfl⟩ := Collection.insertOne_eq_some inserted
          refine ⟨doc, ?_, SameEnd.refl doc⟩
          rw [Collection.find_insertFresh, if_neg ?_]
          · exact found
          · rintro rfl
            rw [fresh] at found
            cases found

/-- What has ended stays as it ended in a run whose writes all come in time. -/
theorem keepsEnded_run {s : TaskSystem} (as : List TaskAction)
    (timely : ∀ e ∈ Machine.trace taskStep s as, Timely e.before e.action) :
    KeepsEnded s (Machine.run taskStep s as) := by
  refine Machine.run_invariant_where (I := KeepsEnded s) (fun t a in_time kept => ?_)
    (fun id doc found _ => ⟨doc, found, SameEnd.refl doc⟩) as timely
  intro id doc found ended
  obtain ⟨mid, mid_found, same⟩ := kept id doc found ended
  obtain ⟨last, last_found, same'⟩ :=
    keepsEnded_step in_time id mid mid_found (same.status ▸ ended)
  exact ⟨last, last_found, same.trans same'⟩

end Terminal

section Pace

/-- A run of the poller does not begin while another one goes on. -/
def NoOverlap (s : TaskSystem) (a : TaskAction) : Prop :=
  ∀ p now limit, a = .poll p (.scan now limit) → ∀ q, s.pollers q = .idle

/-- What is left of a batch has been polled as often as the rows say. -/
structure Poller.Fresh (tasks : Collection TaskDoc) (poller : Poller) : Prop where
  distinct : (poller.batch.map TaskDoc.taskId).Nodup
  current : ∀ doc ∈ poller.batch, ∃ row, tasks.find doc.taskId = some row ∧
    row.pollCount = doc.pollCount
  few : poller.stage ≠ .ready → ∀ doc ∈ poller.batch.head?, doc.pollCount < MAX_POLL_COUNT

/-- The provider has been asked as often as the row says, or once more by a run that has still to
write it. -/
def TaskSystem.Accounted (s : TaskSystem) (id : String) (row : TaskDoc) : Prop :=
  s.asked id ≤ row.pollCount ∨ ∃ p doc rest reply,
    s.pollers p = ⟨doc :: rest, .answered reply⟩ ∧ doc.taskId = id ∧
      s.asked id ≤ row.pollCount + 1

structure Paced (s : TaskSystem) : Prop where
  alone : ∀ p q, s.pollers p ≠ .idle → s.pollers q ≠ .idle → p = q
  fresh : ∀ p, (s.pollers p).Fresh s.tasks
  few : ∀ id, s.asked id ≤ MAX_POLL_COUNT
  unknown : ∀ id, s.tasks.find id = none → s.asked id = 0
  accounted : ∀ id row, s.tasks.find id = some row → s.Accounted id row

variable {s : TaskSystem} {p : Nat}

theorem Poller.fresh_idle (tasks : Collection TaskDoc) : Poller.idle.Fresh tasks :=
  ⟨List.nodup_nil, by simp [Poller.idle], by simp [Poller.idle]⟩

theorem Poller.fresh_scan (tasks : Collection TaskDoc) (now limit : Int) :
    Poller.Fresh tasks ⟨dueTasks tasks now limit, .ready⟩ := by
  have perm := List.mergeSort_perm (tasks.docs.filter (isDue now)) dueBefore
  have taken := List.take_sublist (max 1 (min SCAN_LIMIT limit)).toNat
    ((tasks.docs.filter (isDue now)).mergeSort dueBefore)
  refine ⟨?_, fun doc mem => ?_, fun busy => absurd rfl busy⟩
  · have distinct := tasks.distinct.sublist ((List.filter_sublist (p := isDue now)).map _)
    exact ((perm.map TaskDoc.taskId).nodup_iff.mpr distinct).sublist (taken.map _)
  · have stored := List.mem_of_mem_filter (perm.mem_iff.mp (taken.mem mem))
    exact ⟨doc, Collection.find_of_mem stored, rfl⟩

/-- A batch stays fresh while nothing changes the counts of its rows. -/
theorem Poller.Fresh.of_rows {tasks tasks' : Collection TaskDoc} {poller : Poller}
    (fresh : poller.Fresh tasks)
    (rows : ∀ doc ∈ poller.batch, ∀ row, tasks.find doc.taskId = some row →
      ∃ row', tasks'.find doc.taskId = some row' ∧ row'.pollCount = row.pollCount) :
    poller.Fresh tasks' := by
  refine ⟨fresh.distinct, fun doc mem => ?_, fresh.few⟩
  obtain ⟨row, found, same⟩ := fresh.current doc mem
  obtain ⟨row', found', same'⟩ := rows doc mem row found
  exact ⟨row', found', same'.trans same⟩

/-- While nobody has an answer, the rows account for everything. -/
theorem Paced.asked_le (paced : Paced s)
    (waiting : ∀ q reply, (s.pollers q).stage ≠ .answered reply)
    {id : String} {row : TaskDoc} (found : s.tasks.find id = some row) :
    s.asked id ≤ row.pollCount := by
  rcases paced.accounted id row found with settled | ⟨q, doc, rest, reply, here, -⟩
  · exact settled
  · exact absurd (by rw [here]) (waiting q reply)

/-- The one run that is busy stays the only one. -/
theorem Paced.alone_update (paced : Paced s) (busy : s.pollers p ≠ .idle ∨ ∀ q, s.pollers q = .idle)
    (after : Poller) (q r : Nat) (busy_q : Function.update s.pollers p after q ≠ .idle)
    (busy_r : Function.update s.pollers p after r ≠ .idle) : q = r := by
  have only : ∀ q, Function.update s.pollers p after q ≠ .idle → q = p := by
    intro q busy_q
    by_contra other
    rw [Function.update_of_ne other] at busy_q
    rcases busy with busy | idle
    · exact other (paced.alone q p busy_q busy)
    · exact busy_q (idle q)
  rw [only q busy_q, only r busy_r]

/-- Nobody but the busy run can have an answer. -/
theorem Paced.waiting (paced : Paced s) (busy : s.pollers p ≠ .idle)
    (unanswered : ∀ reply, (s.pollers p).stage ≠ .answered reply) (q : Nat) (reply : PollReply) :
    (s.pollers q).stage ≠ .answered reply := by
  intro answered
  have busy_q : s.pollers q ≠ .idle := by
    intro idle
    rw [idle] at answered
    cases answered
  rw [paced.alone q p busy_q busy] at answered
  exact unanswered reply answered

/-- A write to one row: its count becomes `count` if that is given, and no other row changes. -/
theorem find_updateTask {tasks : Collection TaskDoc} {id : String} {row : TaskDoc}
    (found : tasks.find id = some row) (taskId : String) (patch : TaskPatch) :
    ∃ row', (updateTask tasks taskId patch).find id = some row' ∧
      row'.pollCount = if id = taskId then patch.pollCount.getD row.pollCount else row.pollCount :=
  ⟨_, Collection.find_modify_some found taskId patch.apply, by split <;> rfl⟩

theorem find_updateTask_inv {tasks : Collection TaskDoc} {id taskId : String} {patch : TaskPatch}
    {row' : TaskDoc} (found : (updateTask tasks taskId patch).find id = some row') :
    ∃ row, tasks.find id = some row ∧
      row'.pollCount =
        if id = taskId then patch.pollCount.getD row.pollCount else row.pollCount := by
  obtain ⟨row, stored, rfl⟩ := Collection.find_modify_inv found
  exact ⟨row, stored, by split <;> rfl⟩

theorem find_updateTask_none {tasks : Collection TaskDoc} {id taskId : String} {patch : TaskPatch}
    (absent : (updateTask tasks taskId patch).find id = none) : tasks.find id = none := by
  cases found : tasks.find id with
  | none => rfl
  | some row =>
      obtain ⟨row', found', -⟩ := find_updateTask found taskId patch
      rw [absent] at found'
      cases found'

theorem paced_ask (paced : Paced s) {doc : TaskDoc} {rest : List TaskDoc}
    (here : s.pollers p = ⟨doc :: rest, .asking⟩) (reply : PollReply) :
    Paced { s with
      asked := Function.update s.asked doc.taskId (s.asked doc.taskId + 1)
      pollers := Function.update s.pollers p ⟨doc :: rest, .answered reply⟩ } := by
  have busy : s.pollers p ≠ .idle := by
    rw [here]
    simp [Poller.idle]
  have waiting := paced.waiting busy (by simp [here])
  have fresh := paced.fresh p
  rw [here] at fresh
  obtain ⟨row, stored, count⟩ := fresh.current doc List.mem_cons_self
  have few := fresh.few (by simp) doc rfl
  have asked := paced.asked_le waiting stored
  constructor
  · exact paced.alone_update (.inl busy) _
  · intro q
    dsimp only
    by_cases same : q = p
    · subst same
      rw [Function.update_self]
      exact ⟨fresh.distinct, fresh.current, fun _ => fresh.few (by simp)⟩
    · rw [Function.update_of_ne same]
      exact paced.fresh q
  · intro id
    dsimp only
    by_cases same : id = doc.taskId
    · subst same
      rw [Function.update_self]
      omega
    · rw [Function.update_of_ne same]
      exact paced.few id
  · intro id absent
    have other : id ≠ doc.taskId := by
      rintro rfl
      rw [stored] at absent
      cases absent
    dsimp only
    rw [Function.update_of_ne other]
    exact paced.unknown id absent
  · intro id row' found
    by_cases same : id = doc.taskId
    · subst same
      refine .inr ⟨p, doc, rest, reply, Function.update_self .., rfl, ?_⟩
      dsimp only
      rw [Function.update_self]
      exact Nat.succ_le_succ (paced.asked_le waiting found)
    · left
      dsimp only
      rw [Function.update_of_ne same]
      exact paced.asked_le waiting found

/-- The run is done with a job: the row counts the request, if there was one. -/
theorem paced_close (paced : Paced s) {doc : TaskDoc} {rest : List TaskDoc} {stage : PollStage}
    {patch : TaskPatch} (here : s.pollers p = ⟨doc :: rest, stage⟩)
    (counted : patch.pollCount = some (doc.pollCount + 1) ∨
      patch.pollCount = none ∧ ∀ reply, stage ≠ .answered reply) :
    Paced { s with
      tasks := updateTask s.tasks doc.taskId patch
      pollers := Function.update s.pollers p ⟨rest, .ready⟩ } := by
  have busy : s.pollers p ≠ .idle := by
    rw [here]
    simp [Poller.idle]
  have fresh := paced.fresh p
  rw [here] at fresh
  obtain ⟨doc_apart, rest_distinct⟩ := List.nodup_cons.mp fresh.distinct
  constructor
  · exact paced.alone_update (.inl busy) _
  · intro q
    dsimp only
    by_cases same : q = p
    · subst same
      rw [Function.update_self]
      refine ⟨rest_distinct, fun other mem => ?_, fun ready => absurd rfl ready⟩
      obtain ⟨row, stored, count⟩ := fresh.current other (List.mem_cons_of_mem doc mem)
      obtain ⟨row', stored', count'⟩ :=
        find_updateTask stored doc.taskId patch
      have apart : other.taskId ≠ doc.taskId := fun same =>
        doc_apart (same ▸ List.mem_map_of_mem mem)
      rw [if_neg apart] at count'
      exact ⟨row', stored', count'.trans count⟩
    · have idle : s.pollers q = .idle := by
        by_contra busy_q
        exact same (paced.alone q p busy_q busy)
      rw [Function.update_of_ne same, idle]
      exact Poller.fresh_idle _
  · exact paced.few
  · exact fun id absent => paced.unknown id (find_updateTask_none absent)
  · intro id row' found'
    left
    dsimp only
    obtain ⟨row, found, count'⟩ := find_updateTask_inv found'
    have settled := paced.accounted id row found
    rw [count']
    by_cases same : id = doc.taskId
    · subst same
      obtain ⟨row₀, stored, count⟩ := fresh.current doc List.mem_cons_self
      obtain rfl : row = row₀ := Option.some.inj (found.symm.trans stored)
      rw [if_pos rfl]
      rcases counted with counts | ⟨uncounted, unanswered⟩
      · rw [counts, Option.getD_some]
        rcases settled with le | ⟨-, -, -, -, -, -, le⟩ <;> omega
      · rw [uncounted, Option.getD_none]
        exact paced.asked_le (paced.waiting busy (by rw [here]; exact unanswered)) found
    · rw [if_neg same]
      rcases settled with le | ⟨q, doc', rest', reply, there, named, -⟩
      · exact le
      · have busy_q : s.pollers q ≠ .idle := by
          rw [there]
          simp [Poller.idle]
        rw [paced.alone q p busy_q busy, here] at there
        cases there
        exact absurd named.symm same

theorem paced_scan (paced : Paced s) (idle : ∀ q, s.pollers q = .idle) (now limit : Int) :
    Paced { s with
      pollers := Function.update s.pollers p ⟨dueTasks s.tasks now limit, .ready⟩ } := by
  have waiting : ∀ q reply, (s.pollers q).stage ≠ .answered reply := by
    intro q reply
    rw [idle q]
    simp [Poller.idle]
  constructor
  · exact paced.alone_update (.inr idle) _
  · intro q
    dsimp only
    by_cases same : q = p
    · subst same
      rw [Function.update_self]
      exact Poller.fresh_scan s.tasks now limit
    · rw [Function.update_of_ne same]
      exact paced.fresh q
  · exact paced.few
  · exact paced.unknown
  · exact fun id row found => .inl (paced.asked_le waiting found)

theorem paced_start (paced : Paced s) {doc : TaskDoc} {rest : List TaskDoc}
    (here : s.pollers p = ⟨doc :: rest, .ready⟩) (few : doc.pollCount < MAX_POLL_COUNT) :
    Paced { s with pollers := Function.update s.pollers p ⟨doc :: rest, .asking⟩ } := by
  have busy : s.pollers p ≠ .idle := by
    rw [here]
    simp [Poller.idle]
  have waiting := paced.waiting busy (by simp [here])
  have fresh := paced.fresh p
  rw [here] at fresh
  constructor
  · exact paced.alone_update (.inl busy) _
  · intro q
    dsimp only
    by_cases same : q = p
    · subst same
      rw [Function.update_self]
      refine ⟨fresh.distinct, fresh.current, fun _ first mem => ?_⟩
      rw [← Option.some.inj mem]
      exact few
    · rw [Function.update_of_ne same]
      exact paced.fresh q
  · exact paced.few
  · exact paced.unknown
  · exact fun id row found => .inl (paced.asked_le waiting found)

/-- A submission creates rows that were never polled and changes no counts. -/
theorem paced_rows (paced : Paced s) {tasks : Collection TaskDoc}
    {submissions : Nat → Option String}
    (kept : ∀ id row, s.tasks.find id = some row →
      ∃ row', tasks.find id = some row' ∧ row'.pollCount = row.pollCount) :
    Paced { s with tasks := tasks, submissions := submissions } := by
  have absent : ∀ id, tasks.find id = none → s.tasks.find id = none := by
    intro id absent
    cases found : s.tasks.find id with
    | none => rfl
    | some row =>
        obtain ⟨row', found', -⟩ := kept id row found
        rw [absent] at found'
        cases found'
  constructor
  · exact paced.alone
  · exact fun q => (paced.fresh q).of_rows fun doc _ row found => kept doc.taskId row found
  · exact paced.few
  · exact fun id none_there => paced.unknown id (absent id none_there)
  · intro id row' found'
    cases found : s.tasks.find id with
    | none => exact .inl ((paced.unknown id found).trans_le (Nat.zero_le _))
    | some row =>
        obtain ⟨row₂, found₂, same⟩ := kept id row found
        obtain rfl : row₂ = row' := Option.some.inj (found₂.symm.trans found')
        have settled := paced.accounted id row found
        rw [TaskSystem.Accounted, ← same] at settled
        exact settled

theorem paced_poll (paced : Paced s) {poller after : Poller}
    {write : Option (String × TaskPatch)} {asks : Option String} (here : s.pollers p = poller)
    (step : Poller.Step s.tasks poller after write asks)
    (begins : poller = .idle → after ≠ .idle → ∀ q, s.pollers q = .idle) :
    Paced { s with
      tasks := write.elim s.tasks fun w => updateTask s.tasks w.1 w.2
      asked := asks.elim s.asked fun id => Function.update s.asked id (s.asked id + 1)
      pollers := Function.update s.pollers p after } := by
  cases step with
  | still _ =>
      subst here
      rw [Function.update_eq_self]
      exact paced
  | scan now limit =>
      by_cases changed : (⟨dueTasks s.tasks now limit, .ready⟩ : Poller) = .idle
      · rw [changed, ← here, Function.update_eq_self]
        exact paced
      · exact paced_scan paced (begins rfl changed) now limit
  | start few => exact paced_start paced here few
  | ask reply => exact paced_ask paced here reply
  | close settled counted => exact paced_close paced here counted

theorem paced_step {a : TaskAction} (no_overlap : NoOverlap s a) (paced : Paced s) :
    Paced (taskStep s a).1 := by
  cases a with
  | poll p action =>
      refine paced_poll paced rfl (Poller.step_of s.tasks (s.pollers p) action) ?_
      intro idle changed
      cases action with
      | scan now limit => exact no_overlap p now limit rfl
      | next _ | channelGone _ | unreached _ | ask _ | settle _ =>
          rw [idle] at changed
          exact absurd rfl changed
  | create submission doc =>
      rw [taskStep]
      cases inserted : s.tasks.insertOne (createdTask doc) with
      | none => exact paced
      | some tasks =>
          refine paced_rows paced fun id row found => ⟨row, ?_, rfl⟩
          obtain ⟨fresh, rfl⟩ := Collection.insertOne_eq_some inserted
          rw [Collection.find_insertFresh, if_neg]
          · exact found
          · rintro rfl
            rw [fresh] at found
            cases found
  | markSubmitted submission _ _ | conclude submission _ _ =>
      refine paced_rows paced fun id row found => ?_
      rw [TaskSystem.write]
      cases s.submissions submission with
      | none => exact ⟨row, found, rfl⟩
      | some taskId =>
          obtain ⟨row', found', same⟩ := find_updateTask found taskId _
          refine ⟨row', found', same.trans ?_⟩
          split <;> rfl

end Pace

section Overlap

/-- One job that the provider has accepted. -/
def acceptedSystem : TaskSystem where
  tasks := ⟨[runningTask], List.nodup_singleton _⟩
  asked := fun _ => 0
  pollers := fun _ => .idle
  submissions := fun _ => none

def askOnce (p : Nat) (status : String) : List TaskAction :=
  [.poll p (.next 1780000003000), .poll p (.ask (.told (.obj [("status", .str status)])))]

/-- Two runs have read the job before either has ended it. -/
def overlapping : List TaskAction :=
  [.poll 0 (.scan 1780000002000 50), .poll 1 (.scan 1780000002000 50)] ++
    askOnce 0 "success" ++ askOnce 1 "failed" ++ [.poll 0 (.settle 1780000004000)]

end Overlap

end Gateway
