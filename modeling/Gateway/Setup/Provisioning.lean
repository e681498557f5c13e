import Gateway.Setup.CronJobOrg

/-!
Runs of the scheduler setup, overlapping and cut short.

A run that may still call the provider holds the lease, so what it knows of the
jobs stays true until it calls. From that, every call keeps the plan within one
job for each entry, and a run that succeeded leaves each entry with its job.
-/

namespace Gateway.Scheduler

variable {env : SetupEnvironment}

section Listing

/-- Jobs that a run would not touch: two for one entry, or one of another title or without a
usable id. -/
def Conflict (env : SetupEnvironment) (jobs : Collection ProviderJob) : Prop :=
  ∃ job ∈ CRON_PLAN, ∃ k row, jobs.find k = some row ∧ row.settings.url = jobUrl env job ∧
    (row.settings.title ≠ jobTitle env job ∨ validJobId k = false ∨
      ∃ k' row', jobs.find k' = some row' ∧ row'.settings.url = jobUrl env job ∧ k' ≠ k)

/-- What passed the check of one entry. -/
theorem matched_of_list {jobs : Collection ProviderJob} {job : CronJob}
    (single : ¬1 < (matching env jobs.docs job).length) :
    Matched env jobs ⟨job, (matching env jobs.docs job).head?.map ProviderJob.jobId⟩ := by
  have mem_iff (row : ProviderJob) : row ∈ matching env jobs.docs job ↔
      row ∈ jobs.docs ∧ row.settings.url = jobUrl env job := by
    rw [matching, List.mem_filter, beq_iff_eq]
  constructor
  · intro jobId known
    obtain ⟨row, first, rfl⟩ := Option.map_eq_some_iff.mp known
    obtain ⟨mem, url⟩ := (mem_iff row).mp (List.mem_of_head? first)
    exact ⟨row, Collection.find_of_mem mem, url⟩
  · intro k row found url
    obtain ⟨mem, rfl⟩ := Collection.mem_of_find found
    have listed := (mem_iff row).mpr ⟨mem, url⟩
    cases rows : matching env jobs.docs job with
    | nil =>
        rw [rows] at listed
        cases listed
    | cons first more =>
        rw [rows] at listed single
        cases more with
        | nil =>
            rw [List.mem_singleton.mp listed]
            rfl
        | cons second more =>
            rw [List.length_cons, List.length_cons] at single
            omega

theorem matchPlan_ok {jobs : Collection ProviderJob} {entries : List CronJob}
    {plan : List PlannedJob} (ok : matchPlan env jobs.docs entries = .ok plan) :
    plan.map PlannedJob.job = entries ∧ (∀ planned ∈ plan, Matched env jobs planned) ∧
      ∀ job ∈ entries, ∀ row ∈ jobs.docs, row.settings.url = jobUrl env job →
        row.settings.title = jobTitle env job ∧ validJobId row.jobId = true := by
  induction entries generalizing plan with
  | nil =>
      cases ok
      exact ⟨rfl, fun _ mem => absurd mem List.not_mem_nil, fun _ mem => absurd mem List.not_mem_nil⟩
  | cons job entries ih =>
      rw [matchPlan] at ok
      split at ok
      · cases ok
      · next fine =>
          obtain ⟨single, clean⟩ := not_or.mp fine
          cases rest : matchPlan env jobs.docs entries with
          | error error =>
              rw [rest] at ok
              cases ok
          | ok more =>
              rw [rest] at ok
              cases ok
              obtain ⟨same, matched, titles⟩ := ih rest
              refine ⟨congrArg (job :: ·) same, ?_, ?_⟩
              · intro planned mem
                cases mem with
                | head => exact matched_of_list single
                | tail _ mem => exact matched planned mem
              · intro other mem row there url
                cases mem with
                | head =>
                    by_contra wrong
                    apply clean
                    refine List.any_eq_true.mpr ⟨row, ?_, ?_⟩
                    · rw [matching, List.mem_filter, beq_iff_eq]
                      exact ⟨there, url⟩
                    · rw [not_and_or] at wrong
                      simpa using wrong
                | tail _ mem => exact titles other mem row there url

theorem not_conflict_of_matchPlan {jobs : Collection ProviderJob} {plan : List PlannedJob}
    (ok : matchPlan env jobs.docs CRON_PLAN = .ok plan) : ¬Conflict env jobs := by
  rintro ⟨job, mem, k, row, found, url, wrong⟩
  obtain ⟨there, rfl⟩ := Collection.mem_of_find found
  obtain ⟨entries, matched, titles⟩ := matchPlan_ok ok
  obtain ⟨title, valid⟩ := titles job mem row there url
  rcases wrong with other | unusable | ⟨k', row', found', url', distinct⟩
  · exact other title
  · exact absurd (unusable.symm.trans valid) Bool.false_ne_true
  · have planned : ∃ planned ∈ plan, planned.job = job := by
      rw [← entries] at mem
      exact List.mem_map.mp mem
    obtain ⟨planned, listed, rfl⟩ := planned
    have first := (matched planned listed).2 _ row found url
    have second := (matched planned listed).2 k' row' found' url'
    exact distinct (Option.some.inj (second.symm.trans first))

end Listing

section Invariant

/-- The lease is the run's until it releases it. -/
def Phase.holding : Phase → Bool
  | .listing | .applying _ _ | .saving _ | .releasing _ => true
  | _ => false

/-- Every entry was sent and confirmed. -/
def Phase.provisioned : Phase → Bool
  | .saving _ | .releasing (.ok _) | .finished (.ok _) => true
  | _ => false

/-- How far a run is through its plan. -/
structure Underway (env : SetupEnvironment) (jobs : Collection ProviderJob) (done : List DoneJob)
    (rest : List PlannedJob) : Prop where
  entries : done.map DoneJob.job ++ rest.map PlannedJob.job = CRON_PLAN
  sent : ∀ d ∈ done, IsProvisioned env jobs d.job
  matched : ∀ planned ∈ rest, Matched env jobs planned

/-- What holds of one run at a time, under a lease and with the jobs of the provider. -/
structure RunOk (env : SetupEnvironment) (now : Int) (lease : Option SetupLease)
    (jobs : Collection ProviderJob) (owner : String) (run : SetupRun) : Prop where
  margin : run.deadline ≤ run.expiresAt
  held : run.phase.holding = true → now < run.expiresAt → lease = some ⟨owner, run.expiresAt⟩
  underway : ∀ done rest, run.phase = .applying done rest → now < run.deadline →
    Underway env jobs done rest
  provisioned : run.phase.provisioned = true → Provisioned env jobs

def RunsOk (env : SetupEnvironment) (s : SetupState) : Prop :=
  ∀ owner run, s.runs owner = some run → RunOk env s.now s.lease s.jobs owner run

variable {now : Int} {lease : Option SetupLease} {jobs : Collection ProviderJob} {owner : String}
  {run : SetupRun}

theorem RunOk.later (ok : RunOk env now lease jobs owner run) {now' : Int} (le : now ≤ now') :
    RunOk env now' lease jobs owner run where
  margin := ok.margin
  held holding early := ok.held holding (by omega)
  underway done rest phase early := ok.underway done rest phase (by omega)
  provisioned := ok.provisioned

/-- A lease is only taken from a run that lost it. -/
theorem RunOk.taken (ok : RunOk env now lease jobs owner run)
    (free : ∀ held, lease = some held → held.expiresAt ≤ now) (lease' : Option SetupLease) :
    RunOk env now lease' jobs owner run where
  margin := ok.margin
  held holding early := by
    have there := free _ (ok.held holding early)
    dsimp only at there
    omega
  underway := ok.underway
  provisioned := ok.provisioned

theorem RunOk.released (ok : RunOk env now lease jobs owner run) {other : String}
    (distinct : owner ≠ other) :
    RunOk env now (lease.filter fun held => held.owner != other) jobs owner run where
  margin := ok.margin
  held holding early := by
    rw [ok.held holding early, Option.filter_some]
    simp [distinct]
  underway := ok.underway
  provisioned := ok.provisioned

/-- A run whose lease is another's makes no call any more. -/
theorem RunOk.others (ok : RunOk env now lease jobs owner run) {other : String} {expiry : Int}
    (distinct : owner ≠ other) (held : lease = some ⟨other, expiry⟩)
    {jobs' : Collection ProviderJob} {job : CronJob} (put : Put env jobs job jobs') :
    RunOk env now lease jobs' owner run where
  margin := ok.margin
  held := ok.held
  underway done rest phase early := by
    have mine := ok.held (by rw [phase]; rfl) (early.trans_le ok.margin)
    rw [held] at mine
    cases mine
    exact absurd rfl distinct
  provisioned phase entry mem := put.keeps mem (ok.provisioned phase entry mem)

/-- The step of one run, with what became of the lease and of the jobs. -/
theorem runsOk_step {s s' : SetupState} {run' : SetupRun} (ok : RunsOk env s)
    (runs : s'.runs = Function.update s.runs owner (some run'))
    (own : RunOk env s'.now s'.lease s'.jobs owner run')
    (others : ∀ other run, other ≠ owner → RunOk env s.now s.lease s.jobs other run →
      RunOk env s'.now s'.lease s'.jobs other run) : RunsOk env s' := by
  intro other run there
  rw [runs] at there
  by_cases same : other = owner
  · subst same
    rw [Function.update_self] at there
    cases there
    exact own
  · rw [Function.update_of_ne same] at there
    exact others other run same (ok other run there)

/-- A run that goes on without touching the lease or the jobs. -/
theorem runsOk_moveTo {s : SetupState} {phase : Phase} (ok : RunsOk env s)
    (found : s.runs owner = some run) (held : phase.holding = true → run.phase.holding = true)
    (underway : ∀ done rest, phase = .applying done rest → s.now < run.deadline →
      Underway env s.jobs done rest)
    (provisioned : phase.provisioned = true → Provisioned env s.jobs) :
    RunsOk env (s.moveTo owner run phase) := by
  have mine := ok owner run found
  refine runsOk_step ok rfl ⟨mine.margin, fun holding => mine.held (held holding), underway,
    provisioned⟩ fun _ _ _ there => there

theorem runsOk_throwIn {s : SetupState} {error : GatewayError} (ok : RunsOk env s)
    (found : s.runs owner = some run) (held : run.phase.holding = true) :
    RunsOk env (s.throwIn owner run error) :=
  runsOk_moveTo ok found (fun _ => held) (fun _ _ phase => by cases phase)
    fun phase => by cases phase

end Invariant

section Steps

variable {owner : String} {run : SetupRun} {s : SetupState}

theorem runsOk_acquire {phase : Phase} (ok : RunsOk env s) (found : s.runs owner = some run)
    (free : ∀ held, s.lease = some held → held.expiresAt ≤ s.now)
    (idle : ∀ done rest, phase ≠ .applying done rest) (fresh : phase.provisioned = false) :
    RunsOk env ({ s with lease := some ⟨owner, run.expiresAt⟩ }.moveTo owner run phase) := by
  refine runsOk_step ok rfl ⟨(ok owner run found).margin, fun _ _ => rfl, ?_, ?_⟩ ?_
  · exact fun done rest same => absurd same (idle done rest)
  · intro there
    rw [fresh] at there
    cases there
  · exact fun other run _ there => there.taken free _

theorem runsOk_failIn {thrown : Thrown} (ok : RunsOk env s) (found : s.runs owner = some run) :
    RunsOk env (s.failIn owner run thrown).1 :=
  runsOk_moveTo ok found (fun holding => by cases holding) (fun _ _ phase => by cases phase)
    fun phase => by cases phase

theorem no_reply {P : Prop} (result : SetupResult) (reply : (none : SetupReply) = some (.ok result)) :
    P := by
  cases reply

theorem no_success {P : Prop} {thrown : Thrown} (result : SetupResult)
    (reply : (some (.error thrown) : SetupReply) = some (.ok result)) : P := by
  cases reply

/-- A lease that is still good is only given up by its own run. -/
def LeaseKept (s : SetupState) (owner : String) (lease : Option SetupLease) : Prop :=
  lease = s.lease ∨ (∀ held, s.lease = some held → held.expiresAt ≤ s.now) ∨
    (∃ expiry, s.lease = some ⟨owner, expiry⟩) ∧ lease = none

/-- What a step of a run leaves of the jobs and of the lease, if it is no call. -/
structure Quiet (env : SetupEnvironment) (s : SetupState) (owner : String)
    (next : SetupState × SetupReply) : Prop where
  runs : RunsOk env next.1
  jobs : next.1.jobs = s.jobs
  reply : ∀ result, next.2 = some (.ok result) → Provisioned env s.jobs
  lease : LeaseKept s owner next.1.lease

theorem quiet_failIn {thrown : Thrown} (ok : RunsOk env s) (found : s.runs owner = some run) :
    Quiet env s owner (s.failIn owner run thrown) :=
  ⟨runsOk_failIn ok found, rfl, no_success, .inl rfl⟩

theorem quiet_taken {phase : Phase} {reply : SetupReply} (ok : RunsOk env s)
    (found : s.runs owner = some run)
    (free : ∀ held, s.lease = some held → held.expiresAt ≤ s.now)
    (idle : ∀ done rest, phase ≠ .applying done rest) (fresh : phase.provisioned = false)
    (unsaid : ∀ result, reply ≠ some (.ok result)) :
    Quiet env s owner ({ s with lease := some ⟨owner, run.expiresAt⟩ }.moveTo owner run phase, reply) :=
  ⟨runsOk_acquire ok found free idle fresh, rfl, fun result same => absurd same (unsaid result),
    .inr (.inl free)⟩

theorem quiet_takenFail {thrown : Thrown} (ok : RunsOk env s) (found : s.runs owner = some run)
    (free : ∀ held, s.lease = some held → held.expiresAt ≤ s.now) :
    Quiet env s owner ({ s with lease := some ⟨owner, run.expiresAt⟩ }.failIn owner run thrown) :=
  quiet_taken ok found free (fun _ _ same => by cases same) rfl fun _ same => by cases same

theorem leaseStep_quiet (outcome : DbOutcome) (ok : RunsOk env s)
    (found : s.runs owner = some run) : Quiet env s owner (leaseStep s owner run outcome) := by
  have listing (free : ∀ held, s.lease = some held → held.expiresAt ≤ s.now) :
      Quiet env s owner
        ({ s with lease := some ⟨owner, run.expiresAt⟩ }.moveTo owner run .listing, none) :=
    quiet_taken ok found free (fun _ _ same => by cases same) rfl fun _ same => by cases same
  unfold leaseStep
  cases phase : run.phase with
  | inserting =>
      have free (none_ : s.lease.isNone = true) :
          ∀ held, s.lease = some held → held.expiresAt ≤ s.now := by
        intro held there
        rw [there] at none_
        cases none_
      cases outcome with
      | failed => exact quiet_failIn ok found
      | lost =>
          dsimp only
          split
          · next empty => exact quiet_takenFail ok found (free empty)
          · exact quiet_failIn ok found
      | done =>
          dsimp only
          split
          · next empty => exact listing (free empty)
          · refine ⟨runsOk_moveTo ok found ?_ ?_ ?_, rfl, no_reply,
              .inl rfl⟩
            · exact fun holding => by cases holding
            · exact fun _ _ phase => by cases phase
            · exact fun phase => by cases phase
  | reclaiming =>
      have free_of (free : (s.lease.any fun held => decide (held.expiresAt ≤ s.now)) = true) :
          ∀ held, s.lease = some held → held.expiresAt ≤ s.now := by
        intro held there
        rw [there] at free
        exact of_decide_eq_true free
      cases outcome with
      | failed => exact quiet_failIn ok found
      | lost =>
          dsimp only
          split
          · next free => exact quiet_takenFail ok found (free_of free)
          · exact quiet_failIn ok found
      | done =>
          dsimp only
          split
          · next free => exact listing (free_of free)
          · exact quiet_failIn ok found
  | listing | applying | saving | releasing | finished =>
      exact ⟨ok, rfl, no_reply, .inl rfl⟩

theorem saveStep_quiet (outcome : DbOutcome) (ok : RunsOk env s) (found : s.runs owner = some run) :
    Quiet env s owner (saveStep s owner run outcome, none) := by
  unfold saveStep
  cases phase : run.phase with
  | saving done =>
      have mine := ok owner run found
      have held : run.phase.holding = true := by rw [phase]; rfl
      have sent : Provisioned env s.jobs := mine.provisioned (by rw [phase]; rfl)
      have saved : RunsOk env { s with configured := some (resultOf done).jobs } := ok
      cases outcome with
      | done =>
          refine ⟨runsOk_moveTo saved found (fun _ => held) (fun _ _ phase => by cases phase)
            fun _ => sent, rfl, no_reply, .inl rfl⟩
      | failed =>
          refine ⟨runsOk_moveTo ok found (fun _ => held) (fun _ _ phase => by cases phase)
            (fun phase => by cases phase), rfl, no_reply, .inl rfl⟩
      | lost =>
          refine ⟨runsOk_moveTo saved found (fun _ => held) (fun _ _ phase => by cases phase)
            (fun phase => by cases phase), rfl, no_reply, .inl rfl⟩
  | inserting | reclaiming | listing | applying | releasing | finished =>
      exact ⟨ok, rfl, no_reply, .inl rfl⟩

theorem releaseStep_quiet (outcome : DbOutcome) (ok : RunsOk env s)
    (found : s.runs owner = some run) : Quiet env s owner (releaseStep s owner run outcome) := by
  unfold releaseStep
  cases phase : run.phase with
  | releasing result =>
      have mine := ok owner run found
      have sent (value : SetupResult) (same : result = .ok value) : Provisioned env s.jobs :=
        mine.provisioned (by rw [phase, same]; rfl)
      have ended : (Phase.finished result).provisioned = true → Provisioned env s.jobs := by
        cases result with
        | ok value => exact fun _ => sent value rfl
        | error error => exact fun there => by cases there
      have released (lease : Option SetupLease)
          (kept : ∀ other run, other ≠ owner → RunOk env s.now s.lease s.jobs other run →
            RunOk env s.now lease s.jobs other run) :
          RunsOk env ({ s with lease := lease }.moveTo owner run (.finished result)) :=
        runsOk_step ok rfl ⟨mine.margin, fun holding => (by cases holding),
          fun _ _ phase => (by cases phase), ended⟩ kept
      have reply : ∀ value, some result = some (.ok value) → Provisioned env s.jobs :=
        fun value same => sent value (Option.some.inj same)
      have given : Quiet env s owner ({ s with
          lease := s.lease.filter fun held => held.owner != owner }.moveTo owner run
            (.finished result), some result) := by
        refine ⟨released _ fun other run distinct there => there.released distinct, rfl, reply,
          ?_⟩
        change LeaseKept s owner (s.lease.filter _)
        cases lease : s.lease with
        | none => exact .inl lease.symm
        | some held =>
            rw [Option.filter_some]
            split
            · exact .inl lease.symm
            · next own =>
                refine .inr (.inr ⟨⟨held.expiresAt, ?_⟩, rfl⟩)
                rw [bne_iff_ne, not_not] at own
                rw [lease, ← own]
      cases outcome with
      | failed =>
          exact ⟨released _ fun _ _ _ there => there, rfl, reply, .inl rfl⟩
      | done => exact given
      | lost => exact given
  | inserting | reclaiming | listing | applying | saving | finished =>
      exact ⟨ok, rfl, no_reply, .inl rfl⟩

end Steps

section Calls

variable {owner : String} {run : SetupRun} {s : SetupState} {jobs : Collection ProviderJob}
  {done : List DoneJob} {planned : PlannedJob} {rest : List PlannedJob} {newId : Int}

theorem Underway.all_sent (underway : Underway env jobs done []) : Provisioned env jobs := by
  intro job mem
  rw [← underway.entries, List.map_nil, List.append_nil] at mem
  obtain ⟨d, listed, rfl⟩ := List.mem_map.mp mem
  exact underway.sent d listed

/-- The entry at hand goes over to those that were sent. -/
theorem Underway.next (underway : Underway env s.jobs done (planned :: rest))
    (put : Put env s.jobs planned.job jobs) (jobId : Int) (created : Bool) :
    Underway env jobs (done ++ [⟨planned.job, jobId, created⟩]) rest := by
  have entries := underway.entries
  have inPlan (job : CronJob) (mem : job ∈ done.map DoneJob.job ∨ job ∈ rest.map PlannedJob.job) :
      job ∈ CRON_PLAN := by
    rw [← entries, List.mem_append]
    exact mem.imp id (List.mem_cons_of_mem _)
  refine ⟨?_, fun d mem => ?_, fun other mem => ?_⟩
  · rw [List.map_append, List.append_assoc]
    exact entries
  · rcases List.mem_append.mp mem with before | last
    · exact put.keeps (inPlan _ (.inl (List.mem_map_of_mem before))) (underway.sent d before)
    · rw [List.mem_singleton.mp last]
      exact put.provisions
  · have distinct : other.job ≠ planned.job := by
      have nodup := plan_nodup
      rw [← entries, List.nodup_append] at nodup
      have apart := (List.nodup_cons.mp nodup.2.1).1
      intro same
      exact apart (List.mem_map.mpr ⟨other, mem, same⟩)
    exact put.keeps_matched (inPlan _ (.inr (List.mem_map_of_mem mem))) distinct
      (underway.matched other (List.mem_cons_of_mem _ mem))

/-- The jobs change under the lease of the run that calls, and nowhere else. -/
structure Called (env : SetupEnvironment) (s : SetupState) (owner : String) (newId : Int)
    (next : SetupState) : Prop where
  runs : RunsOk env next
  lease : next.lease = s.lease
  jobs : next.jobs = s.jobs ∨
    (∃ expiry, s.lease = some ⟨owner, expiry⟩ ∧ s.now < expiry) ∧
      (∃ job, Put env s.jobs job next.jobs) ∧
        ∀ k, k ≠ newId → s.jobs.find k = none → next.jobs.find k = none

theorem called_throwIn {error : GatewayError} (ok : RunsOk env s)
    (found : s.runs owner = some run) (held : run.phase.holding = true) :
    Called env s owner newId (s.throwIn owner run error) :=
  ⟨runsOk_throwIn ok found held, rfl, .inl rfl⟩

/-- A call of the run that holds the lease took effect. -/
theorem called_put {job : CronJob} {phase : Phase} (ok : RunsOk env s)
    (found : s.runs owner = some run) (holding : run.phase.holding = true)
    (early : s.now < run.deadline) (put : Put env s.jobs job jobs)
    (fresh : ∀ k, k ≠ newId → s.jobs.find k = none → jobs.find k = none)
    (underway : ∀ done rest, phase = .applying done rest → Underway env jobs done rest)
    (provisioned : phase.provisioned = true → Provisioned env jobs) :
    Called env s owner newId ({ s with jobs := jobs }.moveTo owner run phase) := by
  have mine := ok owner run found
  have inTime : s.now < run.expiresAt := early.trans_le mine.margin
  have held := mine.held holding inTime
  refine ⟨?_, rfl, .inr ⟨⟨run.expiresAt, held, inTime⟩, ⟨job, put⟩, fresh⟩⟩
  exact runsOk_step ok rfl
    ⟨mine.margin, fun _ _ => held, fun done rest same _ => underway done rest same, provisioned⟩
    fun other run distinct there => there.others distinct held put

theorem confirmed_called (ok : RunsOk env s) (found : s.runs owner = some run)
    (phase : run.phase = .applying done (planned :: rest)) (early : s.now < run.deadline)
    (put : Put env s.jobs planned.job jobs)
    (fresh : ∀ k, k ≠ newId → s.jobs.find k = none → jobs.find k = none) :
    Called env s owner newId
      (confirmed { s with jobs := jobs } owner run done planned rest newId) := by
  have holding : run.phase.holding = true := by rw [phase]; rfl
  have next := ((ok owner run found).underway _ _ phase early).next put
    (planned.jobId.getD newId) planned.jobId.isNone
  unfold confirmed
  split
  · exact called_put ok found holding early put fresh (fun _ _ same => by cases same)
      fun same => by cases same
  · cases rest with
    | nil =>
        exact called_put ok found holding early put fresh (fun _ _ same => by cases same)
          fun _ => next.all_sent
    | cons first more =>
        refine called_put ok found holding early put fresh (fun done rest same => ?_)
          fun same => by cases same
        cases same
        exact next

theorem listed_called (complete : Bool) (ok : RunsOk env s) (found : s.runs owner = some run)
    (phase : run.phase = .listing) : Called env s owner newId (listed env s owner run complete) := by
  have holding : run.phase.holding = true := by rw [phase]; rfl
  unfold listed
  split
  · exact called_throwIn ok found holding
  · cases plan : matchPlan env s.jobs.docs CRON_PLAN with
    | error error => exact called_throwIn ok found holding
    | ok plan' =>
        obtain ⟨entries, matched, -⟩ := matchPlan_ok plan
        refine ⟨runsOk_moveTo ok found (fun _ => holding) (fun done rest same _ => ?_)
          (fun same => by cases same), rfl, .inl rfl⟩
        cases same
        exact ⟨entries, fun _ mem => absurd mem List.not_mem_nil, matched⟩

theorem callStep_called (newId : Int) (outcome : CallOutcome) (ok : RunsOk env s)
    (found : s.runs owner = some run) :
    Called env s owner newId (callStep env s owner run newId outcome) := by
  have nothing : Called env s owner newId s := ⟨ok, rfl, .inl rfl⟩
  unfold callStep
  cases phase : run.phase with
  | listing =>
      have holding : run.phase.holding = true := by rw [phase]; rfl
      dsimp only
      split
      · exact called_throwIn ok found holding
      · cases outcome with
        | answered complete => exact listed_called complete ok found phase
        | unreachable | refused | invalid => exact called_throwIn ok found holding
  | applying done rest =>
      have holding : run.phase.holding = true := by rw [phase]; rfl
      cases rest with
      | nil => exact nothing
      | cons planned rest =>
          dsimp only
          split
          · exact called_throwIn ok found holding
          · next inTime =>
              have early : s.now < run.deadline := by omega
              have underway := (ok owner run found).underway _ _ phase early
              cases applied : applyCall env planned newId s.jobs with
              | none =>
                  cases outcome with
                  | answered | unreachable | refused | invalid =>
                      exact called_throwIn ok found holding
              | some jobs =>
                  have inPlan : planned.job ∈ CRON_PLAN := by
                    rw [← underway.entries, List.mem_append]
                    exact .inr List.mem_cons_self
                  have put := put_applyCall inPlan
                    (underway.matched planned List.mem_cons_self) applied
                  have fresh (k : Int) (known : k ≠ newId) (absent : s.jobs.find k = none) :
                      jobs.find k = none := find_applyCall applied known absent
                  have thrown (error : GatewayError) :
                      Called env s owner newId ({ s with jobs := jobs }.throwIn owner run error) :=
                    called_put ok found holding early put fresh (fun _ _ same => by cases same)
                      fun same => by cases same
                  have either (effect : Bool) (error : GatewayError) : Called env s owner newId
                      ((if effect then { s with jobs := jobs } else s).throwIn owner run error) := by
                    cases effect with
                    | true => exact thrown error
                    | false => exact called_throwIn ok found holding
                  cases outcome with
                  | answered => exact confirmed_called ok found phase early put fresh
                  | unreachable | refused | invalid => exact either _ _
  | inserting | reclaiming | saving | releasing | finished => exact nothing

end Calls

section Histories

variable {s : SetupState}

/-- The run that takes a step. -/
def SetupAction.owner : SetupAction → Option String
  | .wait _ => none
  | .start owner _ | .lease owner _ | .call owner _ _ | .save owner _ | .release owner _ =>
      some owner

/-- What one step of any run keeps. -/
structure Stepped (env : SetupEnvironment) (s : SetupState) (action : SetupAction)
    (next : SetupState × SetupReply) : Prop where
  runs : RunsOk env next.1
  reply : ∀ result, next.2 = some (.ok result) → Provisioned env next.1.jobs
  jobs : next.1.jobs = s.jobs ∨ ∃ owner newId outcome, action = .call owner newId outcome ∧
    (∃ expiry, s.lease = some ⟨owner, expiry⟩ ∧ s.now < expiry) ∧
      (∃ job, Put env s.jobs job next.1.jobs) ∧
        ∀ k, k ≠ newId → s.jobs.find k = none → next.1.jobs.find k = none
  lease : next.1.lease = s.lease ∨ (∀ held, s.lease = some held → held.expiresAt ≤ s.now) ∨
    ∃ owner expiry, action.owner = some owner ∧ s.lease = some ⟨owner, expiry⟩

theorem stepped_quiet {action : SetupAction} {owner : String} {next : SetupState × SetupReply}
    (own : action.owner = some owner) (quiet : Quiet env s owner next) :
    Stepped env s action next where
  runs := quiet.runs
  reply result same := by
    rw [quiet.jobs]
    exact quiet.reply result same
  jobs := .inl quiet.jobs
  lease := quiet.lease.imp id (Or.imp id fun ⟨⟨expiry, held⟩, _⟩ => ⟨owner, expiry, own, held⟩)

theorem setupStep_stepped (action : SetupAction) (ok : RunsOk env s) :
    Stepped env s action (setupStep env s action) := by
  have nothing : Stepped env s action (s, none) := ⟨ok, no_reply, .inl rfl, .inl rfl⟩
  cases action with
  | wait ms =>
      refine ⟨fun owner run found => (ok owner run found).later ?_, no_reply, .inl rfl, .inl rfl⟩
      exact Int.le_add_of_nonneg_right (Int.natCast_nonneg ms)
  | start owner connecting =>
      cases found : s.runs owner with
      | some run =>
          simp only [setupStep, found]
          exact nothing
      | none =>
          simp only [setupStep, found]
          refine ⟨?_, no_reply, .inl rfl, .inl rfl⟩
          have le : s.now ≤ s.now + (connecting : Int) := by omega
          refine runsOk_step ok rfl ⟨?_, fun same => (by cases same), fun _ _ same => (by cases same),
            fun same => (by cases same)⟩ fun other run distinct there => there.later le
          change s.now + 200000 ≤ s.now + (connecting : Int) + 300000
          omega
  | lease owner outcome =>
      cases found : s.runs owner with
      | none =>
          simp only [setupStep, found]
          exact nothing
      | some run =>
          simp only [setupStep, found]
          exact stepped_quiet rfl (leaseStep_quiet outcome ok found)
  | call owner newId outcome =>
      cases found : s.runs owner with
      | none =>
          simp only [setupStep, found]
          exact nothing
      | some run =>
          simp only [setupStep, found]
          have called := callStep_called newId outcome ok found
          refine ⟨called.runs, no_reply, ?_, .inl called.lease⟩
          exact called.jobs.imp id fun changed => ⟨owner, newId, outcome, rfl, changed⟩
  | save owner outcome =>
      cases found : s.runs owner with
      | none =>
          simp only [setupStep, found]
          exact nothing
      | some run =>
          simp only [setupStep, found]
          exact stepped_quiet rfl (saveStep_quiet outcome ok found)
  | release owner outcome =>
      cases found : s.runs owner with
      | none =>
          simp only [setupStep, found]
          exact nothing
      | some run =>
          simp only [setupStep, found]
          exact stepped_quiet rfl (releaseStep_quiet outcome ok found)

/-- Two runs that both hold an unexpired lease are one. -/
theorem holding_unique (ok : RunsOk env s) {a b : String} {first second : SetupRun}
    (found : s.runs a = some first) (found' : s.runs b = some second)
    (holds : first.phase.holding = true) (holds' : second.phase.holding = true)
    (early : s.now < first.expiresAt) (early' : s.now < second.expiresAt) : a = b := by
  have mine := (ok a first found).held holds early
  have theirs := (ok b second found').held holds' early'
  exact congrArg SetupLease.owner (Option.some.inj (mine.symm.trans theirs))

/-- The provider's jobs at one time and at a later one, as far as they are not the plan's. -/
def ForeignKept (env : SetupEnvironment) (jobs jobs' : Collection ProviderJob) : Prop :=
  ∀ k row, (∀ job ∈ CRON_PLAN, row.settings.url ≠ jobUrl env job) →
    (jobs'.find k = some row ↔ jobs.find k = some row)

/-- Every job that targets an entry is one of this app's own. -/
def Titled (env : SetupEnvironment) (jobs : Collection ProviderJob) : Prop :=
  ∀ job ∈ CRON_PLAN, ∀ k row, jobs.find k = some row → row.settings.url = jobUrl env job →
    row.settings.title = jobTitle env job ∧ validJobId k = true

theorem not_conflict_iff {jobs : Collection ProviderJob} :
    ¬Conflict env jobs ↔ AtMostOne env jobs ∧ Titled env jobs := by
  constructor
  · intro clear
    constructor
    · intro job mem k k' first second found found' url url'
      by_contra distinct
      exact clear ⟨job, mem, k', second, found', url', .inr (.inr ⟨k, first, found, url, distinct⟩)⟩
    · intro job mem k row found url
      by_contra wrong
      rw [not_and_or, Bool.not_eq_true] at wrong
      exact clear ⟨job, mem, k, row, found, url, wrong.imp id .inl⟩
  · rintro ⟨single, titled⟩ ⟨job, mem, k, row, found, url, wrong⟩
    obtain ⟨title, valid⟩ := titled job mem k row found url
    rcases wrong with other | unusable | ⟨k', row', found', url', distinct⟩
    · exact other title
    · rw [valid] at unusable
      cases unusable
    · exact distinct (single job mem k' k row' row found' found url' url)

theorem Put.titled {jobs jobs' : Collection ProviderJob} {job : CronJob} {newId : Int}
    (put : Put env jobs job jobs') (fresh : ∀ k, k ≠ newId → jobs.find k = none → jobs'.find k = none)
    (usable : validJobId newId = true) (titled : Titled env jobs) : Titled env jobs' := by
  intro other mem k row found url
  by_cases same : other = job
  · subst same
    obtain ⟨jobId, stored, own, unique⟩ := put.stored
    have before := found
    rw [stored k] at before
    split at before
    · next here =>
        cases before
        refine ⟨rfl, ?_⟩
        by_cases created : k = newId
        · rw [created]
          exact usable
        · cases old : jobs.find k with
          | none =>
              rw [fresh k created old] at found
              cases found
          | some row =>
              rw [here] at old
              rw [here]
              exact (titled other mem jobId row old (own row old)).2
    · next elsewhere => exact absurd (unique k row before url) elsewhere
  · have apart : jobUrl env other ≠ jobUrl env job := fun url => same (plan_inj mem put.planned url)
    exact titled other mem k row ((put.other (by rw [url]; exact apart)).mp found) url

/-- Nothing was sent, and no run is about to send anything. -/
structure Barred (jobs : Collection ProviderJob) (s : SetupState) : Prop where
  jobs : s.jobs = jobs
  runs : ∀ owner run, s.runs owner = some run → ∀ done rest, run.phase ≠ .applying done rest

theorem barred_moveTo {jobs : Collection ProviderJob} {s' : SetupState} {owner : String}
    {run : SetupRun} (barred : Barred jobs s) (sameJobs : s'.jobs = s.jobs)
    (runs : s'.runs = Function.update s.runs owner (some run))
    (idle : ∀ done rest, run.phase ≠ .applying done rest) : Barred jobs s' := by
  refine ⟨sameJobs.trans barred.jobs, fun other run' found => ?_⟩
  rw [runs] at found
  by_cases same : other = owner
  · subst same
    rw [Function.update_self] at found
    cases found
    exact idle
  · rw [Function.update_of_ne same] at found
    exact barred.runs other run' found

theorem listed_barred {owner : String} {run : SetupRun} {complete : Bool}
    (conflict : Conflict env s.jobs) (barred : Barred s.jobs s) :
    Barred s.jobs (listed env s owner run complete) := by
  unfold listed
  split
  · exact barred_moveTo barred rfl rfl fun _ _ same => by cases same
  · cases plan : matchPlan env s.jobs.docs CRON_PLAN with
    | error error => exact barred_moveTo barred rfl rfl fun _ _ same => by cases same
    | ok plan' => exact absurd conflict (not_conflict_of_matchPlan plan)

theorem callStep_barred {owner : String} {run : SetupRun} (newId : Int) (outcome : CallOutcome)
    (conflict : Conflict env s.jobs) (barred : Barred s.jobs s) (found : s.runs owner = some run) :
    Barred s.jobs (callStep env s owner run newId outcome) := by
  have thrown (error : GatewayError) : Barred s.jobs (s.throwIn owner run error) :=
    barred_moveTo barred rfl rfl fun _ _ same => by cases same
  unfold callStep
  cases phase : run.phase with
  | listing =>
      dsimp only
      split
      · exact thrown _
      · cases outcome with
        | answered complete => exact listed_barred conflict barred
        | unreachable | refused | invalid => exact thrown _
  | applying done rest => exact absurd phase (barred.runs owner run found done rest)
  | inserting | reclaiming | saving | releasing | finished => exact barred

theorem leaseStep_barred {jobs : Collection ProviderJob} {owner : String} {run : SetupRun}
    (outcome : DbOutcome) (barred : Barred jobs s) :
    Barred jobs (leaseStep s owner run outcome).1 := by
  have moved (s' : SetupState) (phase : Phase) (sameJobs : s'.jobs = s.jobs)
      (sameRuns : s'.runs = s.runs) (idle : ∀ done rest, phase ≠ .applying done rest) :
      Barred jobs (s'.moveTo owner run phase) := by
    have runs : (s'.moveTo owner run phase).runs =
        Function.update s.runs owner (some { run with phase := phase }) := by
      rw [SetupState.moveTo, sameRuns]
    exact barred_moveTo barred sameJobs runs idle
  unfold leaseStep
  cases run.phase with
  | inserting =>
      cases outcome with
      | failed => exact moved _ _ rfl rfl fun _ _ same => by cases same
      | lost =>
          dsimp only
          split <;> exact moved _ _ rfl rfl fun _ _ same => by cases same
      | done =>
          dsimp only
          split <;> exact moved _ _ rfl rfl fun _ _ same => by cases same
  | reclaiming =>
      cases outcome with
      | failed => exact moved _ _ rfl rfl fun _ _ same => by cases same
      | lost =>
          dsimp only
          split <;> exact moved _ _ rfl rfl fun _ _ same => by cases same
      | done =>
          dsimp only
          split <;> exact moved _ _ rfl rfl fun _ _ same => by cases same
  | listing | applying | saving | releasing | finished => exact barred

theorem setupStep_barred {jobs : Collection ProviderJob} (conflict : Conflict env jobs)
    (action : SetupAction) (barred : Barred jobs s) : Barred jobs (setupStep env s action).1 := by
  cases action with
  | wait ms => exact ⟨barred.jobs, barred.runs⟩
  | start owner connecting =>
      cases found : s.runs owner with
      | some run =>
          simp only [setupStep, found]
          exact barred
      | none =>
          simp only [setupStep, found]
          exact barred_moveTo barred rfl rfl fun _ _ same => by cases same
  | lease owner outcome =>
      cases found : s.runs owner with
      | none =>
          simp only [setupStep, found]
          exact barred
      | some run =>
          simp only [setupStep, found]
          exact leaseStep_barred outcome barred
  | call owner newId outcome =>
      cases found : s.runs owner with
      | none =>
          simp only [setupStep, found]
          exact barred
      | some run =>
          simp only [setupStep, found]
          cases barred.jobs
          exact callStep_barred newId outcome conflict barred found
  | save owner outcome =>
      cases found : s.runs owner with
      | none =>
          simp only [setupStep, found]
          exact barred
      | some run =>
          simp only [setupStep, found, saveStep]
          cases run.phase with
          | saving done =>
              cases outcome with
              | done | failed | lost =>
                  exact barred_moveTo barred rfl rfl fun _ _ same => by cases same
          | inserting | reclaiming | listing | applying | releasing | finished => exact barred
  | release owner outcome =>
      cases found : s.runs owner with
      | none =>
          simp only [setupStep, found]
          exact barred
      | some run =>
          simp only [setupStep, found, releaseStep]
          cases run.phase with
          | releasing result =>
              exact barred_moveTo barred rfl rfl fun _ _ same => by cases same
          | inserting | reclaiming | listing | applying | saving | finished => exact barred

/-- No run has started; a lease may be left over from a process that stopped. -/
def idle (now : Int) (jobs : Collection ProviderJob) (lease : Option SetupLease)
    (configured : Option (List ConfiguredJob)) : SetupState where
  now := now
  jobs := jobs
  lease := lease
  configured := configured
  runs _ := none

variable {now : Int} {jobs : Collection ProviderJob} {lease : Option SetupLease}
  {configured : Option (List ConfiguredJob)}

theorem runsOk_idle : RunsOk env (idle now jobs lease configured) :=
  fun _ _ found => by cases found

theorem barred_idle : Barred jobs (idle now jobs lease configured) :=
  ⟨rfl, fun _ _ found => by cases found⟩

theorem runsOk_run (ok : RunsOk env s) (actions : List SetupAction) :
    RunsOk env (Machine.run (setupStep env) s actions) :=
  Machine.run_invariant (I := RunsOk env)
    (fun _ action ok => (setupStep_stepped action ok).runs) ok actions

/-- What a write under the plan keeps is kept by every history. -/
theorem run_keeps {P : Collection ProviderJob → Prop} (ok : RunsOk env s)
    (put : ∀ {jobs jobs' : Collection ProviderJob} {job : CronJob}, Put env jobs job jobs' →
      P jobs → P jobs') (initial : P s.jobs) (actions : List SetupAction) :
    P (Machine.run (setupStep env) s actions).jobs := by
  have both : RunsOk env (Machine.run (setupStep env) s actions) ∧
      P (Machine.run (setupStep env) s actions).jobs := by
    refine Machine.run_invariant (I := fun s => RunsOk env s ∧ P s.jobs) ?_ ⟨ok, initial⟩ actions
    intro s action now
    have stepped := setupStep_stepped action now.1
    refine ⟨stepped.runs, ?_⟩
    rcases stepped.jobs with same | ⟨_, _, _, _, _, ⟨_, changed⟩, _⟩
    · rw [same]
      exact now.2
    · exact put changed now.2
  exact both.2

theorem stepped_of_mem_trace (ok : RunsOk env s) {actions : List SetupAction}
    {e : Machine.Event SetupState SetupAction SetupReply}
    (mem : e ∈ Machine.trace (setupStep env) s actions) :
    Stepped env e.before e.action (e.after, e.reply) := by
  obtain ⟨same, pre, before⟩ := Machine.mem_trace mem
  rw [← same]
  apply setupStep_stepped
  rw [before]
  exact runsOk_run ok pre

theorem not_conflict_run (clear : ¬Conflict env s.jobs) (ok : RunsOk env s)
    {actions : List SetupAction} (usable : ∀ owner newId outcome,
      .call owner newId outcome ∈ actions → validJobId newId = true) :
    ¬Conflict env (Machine.run (setupStep env) s actions).jobs := by
  have allowed : ∀ action ∈ actions, ∀ owner newId outcome,
      action = .call owner newId outcome → validJobId newId = true := by
    intro action mem owner newId outcome same
    subst same
    exact usable owner newId outcome mem
  have both : RunsOk env (Machine.run (setupStep env) s actions) ∧
      ¬Conflict env (Machine.run (setupStep env) s actions).jobs := by
    refine Machine.run_invariant_of (I := fun s => RunsOk env s ∧ ¬Conflict env s.jobs) ?_
      ⟨ok, clear⟩ actions allowed
    intro s action allowed now
    have stepped := setupStep_stepped action now.1
    refine ⟨stepped.runs, ?_⟩
    rcases stepped.jobs with same | ⟨owner, newId, outcome, call, _, ⟨_, put⟩, fresh⟩
    · rw [same]
      exact now.2
    · obtain ⟨single, titled⟩ := not_conflict_iff.mp now.2
      exact not_conflict_iff.mpr ⟨put.atMostOne single,
        put.titled fresh (allowed owner newId outcome call) titled⟩
  exact both.2

theorem foreignKept_run (ok : RunsOk env s) (actions : List SetupAction) :
    ForeignKept env s.jobs (Machine.run (setupStep env) s actions).jobs := by
  refine run_keeps ok ?_ (fun _ _ _ => Iff.rfl) actions
  intro jobs jobs' job put kept k row foreign
  exact (put.other (foreign job put.planned)).trans (kept k row foreign)

theorem provisioned_run {actions : List SetupAction} (ok : RunsOk env s)
    {e : Machine.Event SetupState SetupAction SetupReply} {result : SetupResult}
    (mem : e ∈ Machine.trace (setupStep env) s actions) (reply : e.reply = some (.ok result)) :
    Provisioned env (Machine.run (setupStep env) s actions).jobs := by
  have stepped := stepped_of_mem_trace ok mem
  obtain ⟨post, final⟩ := Machine.run_of_mem_trace mem
  rw [final]
  exact run_keeps stepped.runs (fun put sent job mem => put.keeps mem (sent job mem))
    (stepped.reply result reply) post

/-- What a history of runs comes to, from a state in which none has started. -/
structure Convergence (env : SetupEnvironment) (s : SetupState) (actions : List SetupAction) :
    Prop where
  converges : ∀ e ∈ Machine.trace (setupStep env) s actions, ∀ result,
    e.reply = some (.ok result) → Provisioned env (Machine.run (setupStep env) s actions).jobs
  single : AtMostOne env s.jobs → AtMostOne env (Machine.run (setupStep env) s actions).jobs
  resumable : AtMostOne env s.jobs ∧ Titled env s.jobs →
    (∀ owner newId outcome, .call owner newId outcome ∈ actions → validJobId newId = true) →
      ¬Conflict env (Machine.run (setupStep env) s actions).jobs
  foreign : ForeignKept env s.jobs (Machine.run (setupStep env) s actions).jobs
  refused : Conflict env s.jobs → (Machine.run (setupStep env) s actions).jobs = s.jobs
  exclusive : ∀ a b first second, (Machine.run (setupStep env) s actions).runs a = some first →
    (Machine.run (setupStep env) s actions).runs b = some second →
    first.phase.holding = true → second.phase.holding = true →
    (Machine.run (setupStep env) s actions).now < first.expiresAt →
    (Machine.run (setupStep env) s actions).now < second.expiresAt → a = b
  writes : ∀ e ∈ Machine.trace (setupStep env) s actions, e.after.jobs ≠ e.before.jobs →
    ∃ owner expiry, e.action.owner = some owner ∧ e.before.lease = some ⟨owner, expiry⟩ ∧
      e.before.now < expiry
  leases : ∀ e ∈ Machine.trace (setupStep env) s actions, e.after.lease ≠ e.before.lease →
    (∀ held, e.before.lease = some held → held.expiresAt ≤ e.before.now) ∨
      ∃ owner expiry, e.action.owner = some owner ∧ e.before.lease = some ⟨owner, expiry⟩

/-- Provisioning converges without duplicates, whatever calls fail and whatever was lost. -/
theorem provisioning_converges (env : SetupEnvironment) (now : Int)
    (jobs : Collection ProviderJob) (lease : Option SetupLease)
    (configured : Option (List ConfiguredJob)) (actions : List SetupAction) :
    Convergence env (idle now jobs lease configured) actions where
  converges e mem result reply := provisioned_run runsOk_idle mem reply
  single initial := run_keeps runsOk_idle (fun put single => put.atMostOne single) initial actions
  resumable initial usable := not_conflict_run (not_conflict_iff.mpr initial) runsOk_idle usable
  foreign := foreignKept_run runsOk_idle actions
  refused conflict :=
    (Machine.run_invariant (I := Barred jobs) (fun _ => setupStep_barred conflict) barred_idle
      actions).jobs
  exclusive _ _ _ _ found found' := holding_unique (runsOk_run runsOk_idle actions) found found'
  writes e mem changed := by
    rcases (stepped_of_mem_trace runsOk_idle mem).jobs with same | ⟨owner, _, _, call, held, _⟩
    · exact absurd same changed
    · obtain ⟨expiry, held, early⟩ := held
      exact ⟨owner, expiry, by rw [call, SetupAction.owner], held, early⟩
  leases e mem changed :=
    (stepped_of_mem_trace runsOk_idle mem).lease.resolve_left changed

/-- The answer to the first creation is lost; the run after it finds the job and succeeds. -/
theorem provisioning_converges_lost_answer :
    Provisioned ⟨"https://a.io", "s", "d"⟩
      (Machine.run (setupStep ⟨"https://a.io", "s", "d"⟩)
        (idle 0 (Collection.empty) none none)
        ([.start "x" 0, .lease "x" .done, .call "x" 1 (.answered true),
          .call "x" 1 (.unreachable true), .release "x" .done, .start "y" 0, .lease "y" .done] ++
          (List.range 9).map (fun index => .call "y" (index + 1 : Nat) (.answered true)) ++
          [.save "y" .done, .release "y" .done])).jobs := by
  have succeeded : (Machine.trace (setupStep ⟨"https://a.io", "s", "d"⟩)
      (idle 0 (Collection.empty) none none)
        ([.start "x" 0, .lease "x" .done, .call "x" 1 (.answered true),
          .call "x" 1 (.unreachable true), .release "x" .done, .start "y" 0, .lease "y" .done] ++
          (List.range 9).map (fun index => .call "y" (index + 1 : Nat) (.answered true)) ++
          [.save "y" .done, .release "y" .done])).any
      (fun e => e.reply.any Except.isOk) = true := by decide +kernel
  obtain ⟨e, mem, ok⟩ := List.any_eq_true.mp succeeded
  cases reply : e.reply with
  | none =>
      rw [reply] at ok
      cases ok
  | some outcome =>
      cases outcome with
      | error thrown =>
          rw [reply] at ok
          cases ok
      | ok result =>
          exact (provisioning_converges _ 0 Collection.empty none none _).converges e mem result
            reply

end Histories

end Gateway.Scheduler
