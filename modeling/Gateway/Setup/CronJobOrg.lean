import Gateway.Http.Errors
import Gateway.Lib.Collection
import Gateway.Lib.Machine
import Gateway.Util.Number
import Gateway.Util.Text

/-!
Provisioning of the scheduled jobs at the provider.

A run takes a lease, lists the jobs of the account, checks every match of the plan
before it writes anything, and then updates or creates the jobs one by one. A call
may fail with or without effect, and a run may stop anywhere; several runs may be
under way. A run starts no call after its deadline, which lies before the end of
its lease.
-/

namespace Gateway.Scheduler

section Plan

/-- An entry of `CRON_PLAN`, as far as it is sent to the provider. -/
structure CronJob where
  name : String
  minutes : List Int
  hours : List Int
deriving DecidableEq

def range (step : Nat) : List Int := (List.range (60 / step)).map fun index => (index * step : Nat)

def CRON_PLAN : List CronJob :=
  [⟨"health-check", range 5, [-1]⟩, ⟨"flush-usage", range 2, [-1]⟩, ⟨"poll-tasks", [-1], [-1]⟩,
    ⟨"reconcile-quota", range 10, [-1]⟩, ⟨"rollup", [7], [-1]⟩, ⟨"refresh-pricing", [23], [3]⟩,
    ⟨"expire-tokens", [41], [-1]⟩, ⟨"partition-maint", [13], [4]⟩]

/-- What a run reads of its environment, and `sha256` of the origin in hex. -/
structure SetupEnvironment where
  origin : String
  cronSecret : String
  originDigest : String

structure Schedule where
  timezone : String
  expiresAt : Nat
  minutes : List Int
  hours : List Int
  mdays : List Int
  months : List Int
  wdays : List Int
deriving DecidableEq

structure JobAuth where
  enable : Bool
  user : String
  password : String
deriving DecidableEq

structure JobNotification where
  onFailure : Bool
  onFailureCount : Nat
  onSuccess : Bool
  onDisable : Bool
deriving DecidableEq

/-- The settings of a job that a run sends; `authorization` and `body` are the extended data. -/
structure JobSettings where
  url : String
  title : String
  enabled : Bool
  saveResponses : Bool
  requestMethod : Int
  requestTimeout : Int
  redirectSuccess : Bool
  auth : JobAuth
  authorization : String
  body : String
  notification : JobNotification
  schedule : Schedule
deriving DecidableEq

variable (env : SetupEnvironment)

def jobUrl (job : CronJob) : String := env.origin ++ "/api/cron/" ++ job.name

def titlePrefix : String := "femboy-api / " ++ String.ofList (env.originDigest.toList.take 12)

def jobTitle (job : CronJob) : String := titlePrefix env ++ " / " ++ job.name

/-- The body of an update or a creation. -/
def payload (job : CronJob) : JobSettings where
  url := jobUrl env job
  title := jobTitle env job
  enabled := true
  saveResponses := false
  requestMethod := 0
  requestTimeout := -1
  redirectSuccess := false
  auth := ⟨false, "", ""⟩
  authorization := "Bearer " ++ env.cronSecret
  body := ""
  notification := ⟨true, 3, false, true⟩
  schedule := ⟨"UTC", 0, job.minutes, job.hours, [-1], [-1], [-1]⟩

end Plan

section Provider

/-- A job of the account. -/
structure ProviderJob where
  jobId : Int
  settings : JobSettings
deriving DecidableEq

instance : Document ProviderJob Int := ⟨ProviderJob.jobId⟩

def validJobId (jobId : Int) : Bool := isSafeInteger jobId && decide (0 < jobId)

def setupError (message : String) (status : Nat) : GatewayError :=
  .ofStatus .configurationError status message none

def conflictingJobs : GatewayError :=
  setupError "Conflicting jobs already target this app. Review them in cron-job.org before setup." 409

structure PlannedJob where
  job : CronJob
  jobId : Option Int
deriving DecidableEq

variable (env : SetupEnvironment)

/-- The jobs that target one entry of the plan. -/
def matching (existing : List ProviderJob) (job : CronJob) : List ProviderJob :=
  existing.filter fun row => row.settings.url == jobUrl env job

/-- Validates every match before any write. -/
def matchPlan (existing : List ProviderJob) : List CronJob → Except GatewayError (List PlannedJob)
  | [] => .ok []
  | job :: rest =>
      let found := matching env existing job
      if 1 < found.length ∨
          (found.any fun row => row.settings.title != jobTitle env job || !validJobId row.jobId) then
        .error conflictingJobs
      else (matchPlan existing rest).map (⟨job, found.head?.map ProviderJob.jobId⟩ :: ·)

def setSettings (settings : JobSettings) : Update ProviderJob where
  apply job := { job with settings := settings }
  key_apply _ := rfl

/-- What an update or a creation does at the provider; nothing where it refuses. -/
def applyCall (planned : PlannedJob) (newId : Int) (jobs : Collection ProviderJob) :
    Option (Collection ProviderJob) :=
  match planned.jobId with
  | some jobId =>
      if (jobs.find jobId).isSome then
        some (jobs.modify jobId (setSettings (payload env planned.job)))
      else none
  | none => jobs.insertOne ⟨newId, payload env planned.job⟩

end Provider

section Runs

structure SetupLease where
  owner : String
  expiresAt : Int
deriving DecidableEq

structure ConfiguredJob where
  name : String
  jobId : Int
deriving DecidableEq

/-- A job that was updated or created. -/
structure DoneJob where
  job : CronJob
  jobId : Int
  created : Bool

structure SetupResult where
  jobs : List ConfiguredJob
  created : Nat
  updated : Nat

def resultOf (done : List DoneJob) : SetupResult where
  jobs := done.map fun d => ⟨d.job.name, d.jobId⟩
  created := done.countP (·.created)
  updated := done.countP (!·.created)

/-- Where a run stands; each phase ends with the call it is waiting for. -/
inductive Phase where
  | inserting
  | reclaiming
  | listing
  | applying (done : List DoneJob) (rest : List PlannedJob)
  | saving (done : List DoneJob)
  | releasing (outcome : Except Thrown SetupResult)
  | finished (outcome : Except Thrown SetupResult)

structure SetupRun where
  deadline : Int
  expiresAt : Int
  phase : Phase

/-- The clock, the provider, the database, and the runs by their owner token. -/
structure SetupState where
  now : Int
  jobs : Collection ProviderJob
  lease : Option SetupLease
  configured : Option (List ConfiguredJob)
  runs : String → Option SetupRun

/-- How a call to the database ends: `lost` took effect and fails all the same. -/
inductive DbOutcome where
  | done
  | failed
  | lost

/-- How a call to the provider ends: without an answer, with a status that is no success, with
an answer that cannot be read, or well. -/
inductive CallOutcome where
  | unreachable (applied : Bool)
  | refused (status : Nat) (applied : Bool)
  | invalid
  | answered (complete : Bool)

/-- Whether the call took effect, as far as the provider does not refuse it. -/
def CallOutcome.applied : CallOutcome → Bool
  | .unreachable applied | .refused _ applied => applied
  | .invalid | .answered _ => true

inductive SetupAction where
  | wait (ms : Nat)
  | start (owner : String) (connecting : Nat)
  | lease (owner : String) (outcome : DbOutcome)
  | call (owner : String) (newId : Int) (outcome : CallOutcome)
  | save (owner : String) (outcome : DbOutcome)
  | release (owner : String) (outcome : DbOutcome)

/-- What a run that ended returned or threw. -/
abbrev SetupReply := Option (Except Thrown SetupResult)

def SetupState.moveTo (s : SetupState) (owner : String) (run : SetupRun) (phase : Phase) :
    SetupState :=
  { s with runs := Function.update s.runs owner (some { run with phase := phase }) }

/-- The error leaves the `try`, whose `finally` releases the lease. -/
def SetupState.throwIn (s : SetupState) (owner : String) (run : SetupRun) (error : GatewayError) :
    SetupState :=
  s.moveTo owner run (.releasing (.error (.gateway error)))

/-- The run ends before it has a lease to release. -/
def SetupState.failIn (s : SetupState) (owner : String) (run : SetupRun) (thrown : Thrown) :
    SetupState × SetupReply :=
  (s.moveTo owner run (.finished (.error thrown)), some (.error thrown))

def callError : CallOutcome → GatewayError
  | .unreachable _ =>
      setupError "Could not reach cron-job.org. Rerun setup to finish any remaining jobs." 502
  | .refused 401 _ =>
      setupError
        "cron-job.org rejected the API key. Generate a valid key in Console → Settings." 502
  | .refused 403 _ =>
      setupError "cron-job.org refused this server. Check the API key's IP restrictions." 502
  | .refused 429 _ =>
      setupError ("cron-job.org's API limit was reached. Wait before rerunning setup; existing " ++
        "jobs are preserved.") 502
  | .refused _ _ =>
      setupError "cron-job.org could not save the job. Review the account and rerun setup." 502
  | .invalid | .answered _ =>
      setupError
        "cron-job.org returned an invalid response. Rerun setup after checking the account." 502

def timedOut : GatewayError :=
  setupError "Scheduler setup timed out. Rerun setup to finish any remaining jobs." 504

def incompleteList : GatewayError :=
  setupError "cron-job.org returned an incomplete job list. No jobs were changed; retry later." 502

def unconfirmed : GatewayError :=
  setupError ("cron-job.org did not confirm the job ID. Review the account before rerunning " ++
    "setup.") 502

def alreadyRunning : GatewayError :=
  setupError "Scheduler setup is already running. Retry in five minutes." 409

variable (env : SetupEnvironment)

/-- The lease is inserted, or taken from a run whose lease has expired. -/
def leaseStep (s : SetupState) (owner : String) (run : SetupRun) (outcome : DbOutcome) :
    SetupState × SetupReply :=
  let taken := { s with lease := some ⟨owner, run.expiresAt⟩ }
  match run.phase with
  | .inserting =>
      match outcome with
      | .failed => s.failIn owner run .fault
      | .lost => (if s.lease.isNone then taken else s).failIn owner run .fault
      | .done =>
          if s.lease.isNone then (taken.moveTo owner run .listing, none)
          else (s.moveTo owner run .reclaiming, none)
  | .reclaiming =>
      let free := s.lease.any fun held => decide (held.expiresAt ≤ s.now)
      match outcome with
      | .failed => s.failIn owner run .fault
      | .lost => (if free then taken else s).failIn owner run .fault
      | .done =>
          if free then (taken.moveTo owner run .listing, none)
          else s.failIn owner run (.gateway alreadyRunning)
  | _ => (s, none)

/-- The list of jobs came back. -/
def listed (s : SetupState) (owner : String) (run : SetupRun) (complete : Bool) : SetupState :=
  if complete = false then s.throwIn owner run incompleteList
  else
    match matchPlan env s.jobs.docs CRON_PLAN with
    | .error error => s.throwIn owner run error
    | .ok plan => s.moveTo owner run (.applying [] plan)

/-- An update or a creation came back. -/
def confirmed (s : SetupState) (owner : String) (run : SetupRun) (done : List DoneJob)
    (planned : PlannedJob) (rest : List PlannedJob) (newId : Int) : SetupState :=
  if planned.jobId = none ∧ validJobId newId = false then s.throwIn owner run unconfirmed
  else
    let done := done ++ [⟨planned.job, planned.jobId.getD newId, planned.jobId.isNone⟩]
    match rest with
    | [] => s.moveTo owner run (.saving done)
    | next :: rest => s.moveTo owner run (.applying done (next :: rest))

/-- `call`, which starts nothing after the deadline. -/
def callStep (s : SetupState) (owner : String) (run : SetupRun) (newId : Int)
    (outcome : CallOutcome) : SetupState :=
  match run.phase with
  | .listing =>
      if run.deadline ≤ s.now then s.throwIn owner run timedOut
      else
        match outcome with
        | .answered complete => listed env s owner run complete
        | other => s.throwIn owner run (callError other)
  | .applying done (planned :: rest) =>
      if run.deadline ≤ s.now then s.throwIn owner run timedOut
      else
        match applyCall env planned newId s.jobs with
        | none =>
            match outcome with
            | .answered _ => s.throwIn owner run (callError (.refused 404 false))
            | other => s.throwIn owner run (callError other)
        | some jobs =>
            match outcome with
            | .answered _ => confirmed { s with jobs := jobs } owner run done planned rest newId
            | other =>
                (if other.applied then { s with jobs := jobs } else s).throwIn owner run
                  (callError other)
  | _ => s

def saveStep (s : SetupState) (owner : String) (run : SetupRun) (outcome : DbOutcome) :
    SetupState :=
  match run.phase with
  | .saving done =>
      let saved := { s with configured := some (resultOf done).jobs }
      match outcome with
      | .done => saved.moveTo owner run (.releasing (.ok (resultOf done)))
      | .failed => s.moveTo owner run (.releasing (.error .fault))
      | .lost => saved.moveTo owner run (.releasing (.error .fault))
  | _ => s

/-- The owner token prevents a late run from releasing a newer lease. -/
def releaseStep (s : SetupState) (owner : String) (run : SetupRun) (outcome : DbOutcome) :
    SetupState × SetupReply :=
  match run.phase with
  | .releasing result =>
      let lease :=
        match outcome with
        | .failed => s.lease
        | _ => s.lease.filter fun held => held.owner != owner
      ({ s with lease := lease }.moveTo owner run (.finished result), some result)
  | _ => (s, none)

/-- One step of `configureScheduler` in one of the runs; owner tokens are never drawn twice. -/
def setupStep (s : SetupState) : SetupAction → SetupState × SetupReply
  | .wait ms => ({ s with now := s.now + ms }, none)
  | .start owner connecting =>
      match s.runs owner with
      | some _ => (s, none)
      | none =>
          ({ s with
              now := s.now + connecting
              runs := Function.update s.runs owner
                (some ⟨s.now + 200000, s.now + connecting + 300000, .inserting⟩) }, none)
  | .lease owner outcome =>
      match s.runs owner with
      | none => (s, none)
      | some run => leaseStep s owner run outcome
  | .call owner newId outcome =>
      match s.runs owner with
      | none => (s, none)
      | some run => (callStep env s owner run newId outcome, none)
  | .save owner outcome =>
      match s.runs owner with
      | none => (s, none)
      | some run => (saveStep s owner run outcome, none)
  | .release owner outcome =>
      match s.runs owner with
      | none => (s, none)
      | some run => releaseStep s owner run outcome

end Runs

section Calls

variable {env : SetupEnvironment}

theorem jobUrl_inj {job other : CronJob} (same : jobUrl env job = jobUrl env other) :
    job.name = other.name := by
  have chars := congrArg String.toList same
  simp only [jobUrl, String.toList_append] at chars
  exact String.toList_injective (List.append_cancel_left chars)

/-- The entries of the plan are told apart by their names. -/
theorem plan_inj {job other : CronJob} (mem : job ∈ CRON_PLAN) (mem' : other ∈ CRON_PLAN)
    (same : jobUrl env job = jobUrl env other) : job = other := by
  have names : ∀ a ∈ CRON_PLAN, ∀ b ∈ CRON_PLAN, a.name = b.name → a = b := by decide
  exact names job mem other mem' (jobUrl_inj same)

theorem plan_nodup : CRON_PLAN.Nodup := by decide

/-- Exactly one job targets the entry, and it carries the settings of the plan. -/
def IsProvisioned (env : SetupEnvironment) (jobs : Collection ProviderJob) (job : CronJob) : Prop :=
  ∃ jobId, jobs.find jobId = some ⟨jobId, payload env job⟩ ∧
    ∀ k other, jobs.find k = some other → other.settings.url = jobUrl env job → k = jobId

def Provisioned (env : SetupEnvironment) (jobs : Collection ProviderJob) : Prop :=
  ∀ job ∈ CRON_PLAN, IsProvisioned env jobs job

/-- No entry of the plan is the target of two jobs. -/
def AtMostOne (env : SetupEnvironment) (jobs : Collection ProviderJob) : Prop :=
  ∀ job ∈ CRON_PLAN, ∀ k k' first second, jobs.find k = some first → jobs.find k' = some second →
    first.settings.url = jobUrl env job → second.settings.url = jobUrl env job → k = k'

/-- What a run knows of the jobs for an entry that it has not sent yet. -/
def Matched (env : SetupEnvironment) (jobs : Collection ProviderJob) (planned : PlannedJob) :
    Prop :=
  (∀ jobId, planned.jobId = some jobId →
    ∃ job, jobs.find jobId = some job ∧ job.settings.url = jobUrl env planned.job) ∧
  ∀ k other, jobs.find k = some other → other.settings.url = jobUrl env planned.job →
    planned.jobId = some k

/-- One job carries the settings of an entry; the others are as they were. -/
structure Put (env : SetupEnvironment) (jobs : Collection ProviderJob) (job : CronJob)
    (jobs' : Collection ProviderJob) : Prop where
  planned : job ∈ CRON_PLAN
  stored : ∃ jobId, (∀ k, jobs'.find k =
      if k = jobId then some ⟨jobId, payload env job⟩ else jobs.find k) ∧
    (∀ other, jobs.find jobId = some other → other.settings.url = jobUrl env job) ∧
    ∀ k other, jobs.find k = some other → other.settings.url = jobUrl env job → k = jobId

theorem put_applyCall {planned : PlannedJob} {newId : Int} {jobs jobs' : Collection ProviderJob}
    (mem : planned.job ∈ CRON_PLAN) (matched : Matched env jobs planned)
    (applied : applyCall env planned newId jobs = some jobs') : Put env jobs planned.job jobs' := by
  refine ⟨mem, ?_⟩
  rw [applyCall] at applied
  cases known : planned.jobId with
  | some jobId =>
      obtain ⟨job, found, targets⟩ := matched.1 jobId known
      rw [known] at applied
      dsimp only at applied
      rw [found, Option.isSome_some, if_pos rfl] at applied
      cases applied
      refine ⟨jobId, fun k => ?_, fun other there => ?_, fun k other there url => ?_⟩
      · have id : job.jobId = jobId := Collection.key_of_find found
        rw [Collection.find_modify, found, Option.map_some, ← id]
        rfl
      · cases found.symm.trans there
        exact targets
      · exact Option.some.inj ((matched.2 k other there url).symm.trans known)
  | none =>
      rw [known] at applied
      obtain ⟨fresh, rfl⟩ := Collection.insertOne_eq_some applied
      have none_there : jobs.find newId = none := fresh
      refine ⟨newId, fun k => ?_, fun other there => ?_, fun k other there url => ?_⟩
      · rw [Collection.find_insertFresh]
        rfl
      · rw [none_there] at there
        cases there
      · have there := matched.2 k other there url
        rw [known] at there
        cases there

/-- Only a creation adds a job, under the identifier the provider gives it. -/
theorem find_applyCall {planned : PlannedJob} {newId k : Int} {jobs jobs' : Collection ProviderJob}
    (applied : applyCall env planned newId jobs = some jobs') (known : k ≠ newId)
    (absent : jobs.find k = none) : jobs'.find k = none := by
  rw [applyCall] at applied
  cases target : planned.jobId with
  | some jobId =>
      rw [target] at applied
      dsimp only at applied
      split at applied
      · cases applied
        rw [Collection.find_modify]
        split
        · next same => rw [← same, absent, Option.map_none]
        · exact absent
      · cases applied
  | none =>
      rw [target] at applied
      obtain ⟨fresh, rfl⟩ := Collection.insertOne_eq_some applied
      rw [Collection.find_insertFresh, absent]
      exact if_neg known

theorem Put.provisions {jobs jobs' : Collection ProviderJob} {job : CronJob}
    (put : Put env jobs job jobs') : IsProvisioned env jobs' job := by
  obtain ⟨jobId, stored, -, unique⟩ := put.stored
  refine ⟨jobId, (stored jobId).trans (if_pos rfl), fun k other there url => ?_⟩
  rw [stored k] at there
  split at there
  · next same => exact same
  · exact unique k other there url

/-- A job that does not target the entry is where it was, and nothing else became one. -/
theorem Put.other {jobs jobs' : Collection ProviderJob} {job : CronJob}
    (put : Put env jobs job jobs') {k : Int} {other : ProviderJob}
    (elsewhere : other.settings.url ≠ jobUrl env job) :
    jobs'.find k = some other ↔ jobs.find k = some other := by
  obtain ⟨jobId, stored, own, -⟩ := put.stored
  rw [stored k]
  split
  · next same =>
      subst same
      constructor
      · intro there
        cases there
        exact absurd rfl elsewhere
      · intro there
        exact absurd (own other there) elsewhere
  · rfl

theorem Put.keeps {jobs jobs' : Collection ProviderJob} {job other : CronJob}
    (put : Put env jobs job jobs') (mem : other ∈ CRON_PLAN)
    (provisioned : IsProvisioned env jobs other) : IsProvisioned env jobs' other := by
  by_cases same : other = job
  · rw [same]
    exact put.provisions
  · have apart : jobUrl env other ≠ jobUrl env job := fun url => same (plan_inj mem put.planned url)
    obtain ⟨jobId, found, unique⟩ := provisioned
    refine ⟨jobId, (put.other apart).mpr found, fun k row there url => ?_⟩
    exact unique k row ((put.other (by rw [url]; exact apart)).mp there) url

theorem Put.keeps_matched {jobs jobs' : Collection ProviderJob} {job : CronJob}
    (put : Put env jobs job jobs') {planned : PlannedJob} (mem : planned.job ∈ CRON_PLAN)
    (distinct : planned.job ≠ job) (matched : Matched env jobs planned) :
    Matched env jobs' planned := by
  have apart : jobUrl env planned.job ≠ jobUrl env job :=
    fun url => distinct (plan_inj mem put.planned url)
  refine ⟨fun jobId known => ?_, fun k row there url => ?_⟩
  · obtain ⟨row, found, url⟩ := matched.1 jobId known
    exact ⟨row, (put.other (by rw [url]; exact apart)).mpr found, url⟩
  · exact matched.2 k row ((put.other (by rw [url]; exact apart)).mp there) url

theorem Put.atMostOne {jobs jobs' : Collection ProviderJob} {job : CronJob}
    (put : Put env jobs job jobs') (single : AtMostOne env jobs) : AtMostOne env jobs' := by
  intro other mem k k' first second found found' url url'
  by_cases same : other = job
  · subst same
    obtain ⟨jobId, -, unique⟩ := put.provisions
    exact (unique k first found url).trans (unique k' second found' url').symm
  · have apart : jobUrl env other ≠ jobUrl env job := fun url => same (plan_inj mem put.planned url)
    exact single other mem k k' first second ((put.other (by rw [url]; exact apart)).mp found)
      ((put.other (by rw [url']; exact apart)).mp found') url url'

end Calls

end Gateway.Scheduler
