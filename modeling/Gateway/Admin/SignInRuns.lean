import Gateway.Admin.Vouched

/-!
Sign-in requests that are under way at the same time.

Their questions come in any order, each may fail, with or without its effect, and between
two of them other parts of the gateway edit the accounts.
-/

namespace Gateway.Admin.SignIn

open Gateway.Auth Gateway.RateLimit Transaction Dialogue

section Service

/-- What others do in between. Nobody else writes states, which are dropped when they are old, or
counts attempts to sign in. -/
structure Outside where
  change : SignInDb → SignInDb
  drops : ∀ db id row, (change db).states.find id = some row → db.states.find id = some row
  counts : ∀ db ipHash, (change db).counters (attemptKey ipHash) = db.counters (attemptKey ipHash)

variable (config : SignInConfig) (platform : SignInPlatform)

def signInService :
    Service SignInDb AdminRequest World Outside Thrown Ask Ask.Answer AuthReply where
  body := handleAuthRequest config platform
  answer := answerAsk config platform
  outside db other := other.change db

abbrev SignInEvent := System.Event (signInService config platform)

abbrev signInTrace (db : SignInDb) (actions : List (Action AdminRequest World Outside)) :
    List (SignInEvent config platform) :=
  Machine.trace (step (signInService config platform)) (.initial _ db) actions

abbrev signInRun (db : SignInDb) (actions : List (Action AdminRequest World Outside)) :
    System (signInService config platform) :=
  Machine.run (step (signInService config platform)) (.initial _ db) actions

end Service

section States

variable {config : SignInConfig} {platform : SignInPlatform}

/-- A request hands the code to GitHub under this state. -/
def exchanges (stateId : String) (req : AdminRequest) : Utterance Thrown Ask Ask.Answer → Bool
  | ⟨.exchange _, _⟩ => stateOf req == stateId
  | _ => false

/-- The state is claimed. -/
def claims (stateId : String) (_ : AdminRequest) : Utterance Thrown Ask Ask.Answer → Bool
  | ⟨.claim other, .ok (some _)⟩ => other == stateId
  | _ => false

/-- The state appears. -/
def issued (stateId : String) (before after : Collection OAuthStateDoc) : Bool :=
  (before.find stateId).isNone && (after.find stateId).isSome

def issues (stateId : String) (e : SignInEvent config platform) : Bool :=
  issued stateId e.before.state.states e.after.state.states

/-- Whether a state waits to be claimed. -/
def waiting (stateId : String) (states : Collection OAuthStateDoc) : Nat :=
  if (states.find stateId).any (·.consumedAt.isNone) = true then 1 else 0

/-- The states after an answer. -/
def statesAfter (w : World) (states : Collection OAuthStateDoc) : Ask → Collection OAuthStateDoc
  | .insertState state => (atomically .fault w.commit (insertState state) states).2
  | .claim stateId => (atomically .fault w.commit (claimState w.now stateId) states).2
  | _ => states

theorem states_answer (db : SignInDb) (w : World) (q : Ask) :
    (answerAsk config platform db w q).2.states = statesAfter w db.states q := by
  cases q with
  | audit entry =>
      rw [answerAsk]
      split <;> rfl
  | _ => rfl

theorem insertState_cases (w : World) (state : OAuthStateDoc) (states : Collection OAuthStateDoc) :
    statesAfter w states (.insertState state) = states ∨
      ∃ fresh, statesAfter w states (.insertState state) = states.insertFresh state fresh := by
  rw [statesAfter]
  cases atomically_cases .fault w.commit (insertState state) states with
  | inl undone => exact .inl undone.1
  | inr written =>
      obtain ⟨_, effect, -⟩ := written
      rw [insertState] at effect
      split at effect
      · cases effect
      · next inserted =>
          obtain ⟨fresh, rfl⟩ := Collection.insertOne_eq_some inserted
          exact .inr ⟨fresh, (congrArg Prod.snd effect).symm⟩

/-- A claim takes a row that waits, or changes nothing. -/
theorem claim_cases (db : SignInDb) (w : World) (stateId : String) :
    (statesAfter w db.states (.claim stateId) = db.states ∧
        ∀ row, (answerAsk config platform db w (.claim stateId)).1 ≠ .ok (some row)) ∨
      ∃ row, db.states.find stateId = some row ∧ claimable w.now row = true ∧
        statesAfter w db.states (.claim stateId) =
          db.states.modify stateId (consumedUpdate w.now) := by
  have result : (answerAsk config platform db w (.claim stateId)).1 =
      (atomically .fault w.commit (claimState w.now stateId) db.states).1 := rfl
  rw [statesAfter, result]
  cases atomically_cases .fault w.commit (claimState w.now stateId) db.states with
  | inl undone =>
      refine .inl ⟨undone.1, fun row found => ?_⟩
      obtain ⟨e, failed⟩ := undone.2
      rw [failed] at found
      cases found
  | inr written =>
      obtain ⟨answer, effect, told⟩ := written
      rw [claimState] at effect
      split at effect
      · refine .inl ⟨(congrArg Prod.snd effect).symm, fun row found => ?_⟩
        obtain rfl := Except.ok.inj (congrArg Prod.fst effect)
        rw [found] at told
        cases told with
        | inl same => cases same
        | inr failed => cases failed
      · next claimed =>
          obtain ⟨row, found, waits, -, rfl⟩ := Collection.findOneAndUpdate_eq_some claimed
          exact .inr ⟨row, found, waits, (congrArg Prod.snd effect).symm⟩

theorem waiting_le_one (stateId : String) (states : Collection OAuthStateDoc) :
    waiting stateId states ≤ 1 := by
  rw [waiting]
  split <;> omega

theorem waiting_of_find {stateId : String} {states states' : Collection OAuthStateDoc}
    (same : states'.find stateId = states.find stateId) :
    waiting stateId states' = waiting stateId states := by
  rw [waiting, waiting, same]

theorem waiting_insertFresh (stateId : String) (state : OAuthStateDoc)
    (states : Collection OAuthStateDoc) (fresh : states.find (Document.key state) = none) :
    waiting stateId (states.insertFresh state fresh) ≤ waiting stateId states +
      if issued stateId states (states.insertFresh state fresh) = true then 1 else 0 := by
  by_cases named : stateId = Document.key state
  · have le := waiting_le_one stateId (states.insertFresh state fresh)
    have new : issued stateId states (states.insertFresh state fresh) = true := by
      rw [issued, Collection.find_insertFresh, if_pos named, named, fresh]
      rfl
    rw [if_pos new]
    omega
  · have still : waiting stateId (states.insertFresh state fresh) = waiting stateId states :=
      waiting_of_find (by rw [Collection.find_insertFresh, if_neg named])
    omega

theorem claims_claim {stateId other : String} {req : AdminRequest}
    {a : Checked (Option OAuthStateDoc)}
    (claimed : claims stateId req ⟨.claim other, a⟩ = true) :
    other = stateId ∧ ∃ row, a = .ok (some row) := by
  cases a with
  | error e => cases claimed
  | ok found =>
      cases found with
      | none => cases claimed
      | some row => exact ⟨eq_of_beq claimed, row, rfl⟩

/-- A claim takes a state that waits, and only an issue makes one wait. -/
theorem waiting_answer (db : SignInDb) (w : World) (q : Ask) (stateId : String)
    (req : AdminRequest) :
    waiting stateId (answerAsk config platform db w q).2.states +
        (if claims stateId req ⟨q, (answerAsk config platform db w q).1⟩ = true then 1 else 0) ≤
      waiting stateId db.states + if issued stateId db.states
        (answerAsk config platform db w q).2.states = true then 1 else 0 := by
  rw [states_answer]
  cases q with
  | insertState state =>
      change waiting stateId (statesAfter w db.states (.insertState state)) + 0 ≤ _
      cases insertState_cases w state db.states with
      | inl same =>
          rw [same]
          omega
      | inr inserted =>
          obtain ⟨fresh, added⟩ := inserted
          rw [added]
          exact waiting_insertFresh stateId state db.states fresh
  | claim other =>
      cases @claim_cases config platform db w other with
      | inl untouched =>
          rw [untouched.1, if_neg fun claimed => ?_]
          · omega
          · obtain ⟨-, row, found⟩ := claims_claim claimed
            exact untouched.2 row found
      | inr taken =>
          obtain ⟨row, found, waits, effect⟩ := taken
          rw [effect]
          by_cases same : other = stateId
          · have consumed : waiting stateId (db.states.modify other (consumedUpdate w.now)) = 0 := by
              rw [waiting, Collection.find_modify, if_pos same.symm, found]
              rfl
            have waited : waiting stateId db.states = 1 := by
              rw [claimable, Bool.and_eq_true] at waits
              rw [waiting, ← same, found, Option.any_some, if_pos waits.1]
            rw [consumed, waited]
            split <;> omega
          · have still : waiting stateId (db.states.modify other (consumedUpdate w.now)) =
                waiting stateId db.states :=
              waiting_of_find (by rw [Collection.find_modify, if_neg (Ne.symm same)])
            rw [if_neg fun claimed => same (claims_claim claimed).1, still]
            omega
  | _ => exact Nat.le_add_right _ _

theorem waiting_outside (other : Outside) (db : SignInDb) (stateId : String) :
    waiting stateId (other.change db).states ≤ waiting stateId db.states := by
  cases found : (other.change db).states.find stateId with
  | none =>
      rw [waiting, found]
      exact Nat.zero_le _
  | some row => exact (waiting_of_find (found.trans (other.drops db stateId row found).symm)).le

theorem claims_balance (sys : System (signInService config platform))
    (action : Action AdminRequest World Outside) (stateId : String) :
    waiting stateId (step (signInService config platform) sys action).1.state.states +
        (if tells (claims stateId) ⟨sys, action, (step (signInService config platform) sys action).2,
          (step (signInService config platform) sys action).1⟩ = true then 1 else 0) ≤
      waiting stateId sys.state.states + if issues stateId ⟨sys, action,
        (step (signInService config platform) sys action).2,
        (step (signInService config platform) sys action).1⟩ = true then 1 else 0 := by
  cases said : (step (signInService config platform) sys action).2 with
  | some r =>
      have effect : step (signInService config platform) sys action =
          ((step (signInService config platform) sys action).1, some r) := Prod.ext rfl said
      obtain ⟨world, -, -, -, -, answer⟩ := remark_asked handleAuthRequest_keeps effect
      have balance := @waiting_answer config platform sys.state world r.utterance.1 stateId r.call
      change answerAsk config platform sys.state world r.utterance.1 = _ at answer
      rw [answer] at balance
      exact balance
  | none =>
      have le : waiting stateId (step (signInService config platform) sys action).1.state.states ≤
          waiting stateId sys.state.states := by
        cases step_silent said with
        | inl same => rw [same]
        | inr outside =>
            obtain ⟨change, -, same⟩ := outside
            rw [same]
            exact waiting_outside change sys.state stateId
      exact Nat.le_trans le (Nat.le_add_right _ _)

/-- Over a whole run no state is claimed more often than it was issued. -/
theorem claims_le_issues (db : SignInDb) (actions : List (Action AdminRequest World Outside))
    (stateId : String) :
    (signInTrace config platform db actions).countP (tells (claims stateId)) ≤
      waiting stateId db.states +
        (signInTrace config platform db actions).countP (issues stateId) := by
  have balance := @Machine.trace_countP_add_le _ _ _ (step (signInService config platform))
    (fun sys => waiting stateId sys.state.states) (tells (claims stateId)) (issues stateId)
    (fun sys action => claims_balance sys action stateId) (.initial _ db) actions
  exact Nat.le_trans (Nat.le_add_left _ _) balance

/-- A code is exchanged in return for a claim. -/
theorem exchanges_le_claims (db : SignInDb) (actions : List (Action AdminRequest World Outside))
    (stateId : String) :
    (signInTrace config platform db actions).countP (tells (exchanges stateId)) ≤
      (signInTrace config platform db actions).countP (tells (claims stateId)) := by
  refine countP_le_countP (fun req => (handleAuthRequest_keeps req).mono ?_ fun _ _ => id) db actions
  intro said q grounded a exchanged
  cases q with
  | exchange code =>
      obtain ⟨-, -, row, rfl⟩ := grounded
      have named : stateOf req = stateId := eq_of_beq exchanged
      rw [List.countP_singleton, List.countP_singleton, claims, named, beq_self_eq_true]
      exact Nat.one_pos
  | _ => cases exchanged

/-- The state was issued in the run, by a request that had read the clock then. -/
def IssuedAt (events : List (SignInEvent config platform)) (stateId : String) (now : Int) : Prop :=
  ∃ e ∈ events, issues stateId e = true ∧ ∃ number req state a,
    e.reply = some ⟨number, req, ⟨.insertState state, a⟩⟩ ∧
      ∃ e' ∈ events, e'.reply = some ⟨number, req, ⟨.clock, .ok now⟩⟩

theorem IssuedAt.mono {events later : List (SignInEvent config platform)} {stateId : String}
    {now : Int} (given : IssuedAt events stateId now) (le : events ⊆ later) :
    IssuedAt later stateId now := by
  obtain ⟨e, mem, appears, number, req, state, a, reply, e', mem', clock⟩ := given
  exact ⟨e, le mem, appears, number, req, state, a, reply, e', le mem', clock⟩

/-- A row is there after an answer if it was before, or if it was just written. -/
theorem find_answer {db : SignInDb} {w : World} {q : Ask} {stateId : String} {row : OAuthStateDoc}
    (found : (answerAsk config platform db w q).2.states.find stateId = some row) :
    (∃ before, db.states.find stateId = some before ∧ row.expiresAt = before.expiresAt) ∨
      q = .insertState row ∧ db.states.find stateId = none := by
  rw [states_answer] at found
  cases q with
  | insertState state =>
      cases insertState_cases w state db.states with
      | inl same => exact .inl ⟨row, same ▸ found, rfl⟩
      | inr inserted =>
          obtain ⟨fresh, added⟩ := inserted
          rw [added, Collection.find_insertFresh] at found
          split at found
          · next named =>
              cases found
              exact .inr ⟨rfl, named ▸ fresh⟩
          · exact .inl ⟨row, found, rfl⟩
  | claim other =>
      cases @claim_cases config platform db w other with
      | inl untouched => exact .inl ⟨row, untouched.1 ▸ found, rfl⟩
      | inr taken =>
          obtain ⟨-, -, -, effect⟩ := taken
          rw [effect] at found
          obtain ⟨before, stored, rfl⟩ := Collection.find_modify_inv found
          refine .inl ⟨before, stored, ?_⟩
          split <;> rfl
  | _ => exact .inl ⟨row, found, rfl⟩

/-- Where a state comes from. -/
theorem issuedAt_of_find {db : SignInDb} (fresh : db.states.docs = [])
    (actions : List (Action AdminRequest World Outside)) {stateId : String} {row : OAuthStateDoc}
    (found : (signInRun config platform db actions).state.states.find stateId = some row) :
    ∃ now, row.expiresAt = now + STATE_TTL_MS ∧
      IssuedAt (signInTrace config platform db actions) stateId now := by
  induction actions using List.reverseRecOn generalizing row with
  | nil =>
      change db.states.find stateId = some row at found
      rw [Collection.find, fresh] at found
      cases found
  | append_singleton actions action ih =>
      have earlier : signInTrace config platform db actions ⊆
          signInTrace config platform db (actions ++ [action]) := by
        rw [signInTrace, signInTrace, Machine.trace_append]
        exact List.subset_append_left _ _
      have before (row' : OAuthStateDoc)
          (stored : (signInRun config platform db actions).state.states.find stateId = some row')
          (date : row.expiresAt = row'.expiresAt) : ∃ now, row.expiresAt = now + STATE_TTL_MS ∧
            IssuedAt (signInTrace config platform db (actions ++ [action])) stateId now := by
        obtain ⟨now, expires, given⟩ := ih stored
        exact ⟨now, date.trans expires, given.mono earlier⟩
      rw [signInRun, Machine.run_append] at found
      change (step (signInService config platform) (signInRun config platform db actions)
        action).1.state.states.find stateId = some row at found
      cases said : (step (signInService config platform) (signInRun config platform db actions)
        action).2 with
      | none =>
          cases step_silent said with
          | inl same => exact before row (same ▸ found) rfl
          | inr outside =>
              obtain ⟨change, -, same⟩ := outside
              rw [same] at found
              exact before row (change.drops _ _ _ found) rfl
      | some r =>
          have effect : step (signInService config platform) (signInRun config platform db actions)
              action = ((step (signInService config platform)
                (signInRun config platform db actions) action).1, some r) := Prod.ext rfl said
          obtain ⟨world, -, begun, -, grounded, answer⟩ :=
            remark_asked handleAuthRequest_keeps effect
          change answerAsk config platform _ world r.utterance.1 = _ at answer
          have state : (answerAsk config platform (signInRun config platform db actions).state
              world r.utterance.1).2 = (step (signInService config platform)
                (signInRun config platform db actions) action).1.state := congrArg Prod.snd answer
          have stored := found
          rw [← state] at stored
          cases find_answer stored with
          | inl kept =>
              obtain ⟨row', stored', date⟩ := kept
              exact before row' stored' date
          | inr written =>
              obtain ⟨asked, absent⟩ := written
              obtain ⟨number, req, q, a⟩ := r
              obtain rfl : q = .insertState row := asked
              obtain ⟨now, clock, expires, -⟩ := grounded
              obtain ⟨e', mem, reply⟩ := exists_event begun clock
              have last : Machine.Event.mk (signInRun config platform db actions) action
                  (some ⟨number, req, ⟨.insertState row, a⟩⟩)
                  (step (signInService config platform) (signInRun config platform db actions)
                    action).1 ∈ signInTrace config platform db (actions ++ [action]) := by
                rw [signInTrace, Machine.trace_append, ← said]
                exact List.mem_append_right _ List.mem_cons_self
              refine ⟨now, expires, _, last, ?_, number, req, row, a, rfl, e', earlier mem, reply⟩
              rw [issues, issued, Bool.and_eq_true]
              dsimp only
              rw [absent, found]
              exact ⟨rfl, rfl⟩

/-- Every exchange of a code is one that its request may make: its browser holds the state, which
the request itself has claimed before within ten minutes of its issue. -/
theorem exchanged_in_time {db : SignInDb} (fresh : db.states.docs = [])
    (actions : List (Action AdminRequest World Outside)) {action : Action AdminRequest World Outside}
    {number : Nat} {req : AdminRequest} {code : String} {a : Checked String}
    (said : (step (signInService config platform) (signInRun config platform db actions) action).2 =
      some ⟨number, req, ⟨.exchange code, a⟩⟩) :
    browserStateOf platform req = stateOf req ∧
      ∃ e ∈ signInTrace config platform db actions, ∃ world row,
        e.action = .answer number world ∧
        e.reply = some ⟨number, req, ⟨.claim (stateOf req), .ok (some row)⟩⟩ ∧
        ∃ now, world.now < now + STATE_TTL_MS ∧
          IssuedAt (signInTrace config platform db actions) (stateOf req) now := by
  have effect : step (signInService config platform) (signInRun config platform db actions) action =
      ((step (signInService config platform) (signInRun config platform db actions) action).1,
        some ⟨number, req, ⟨.exchange code, a⟩⟩) := Prod.ext rfl said
  obtain ⟨-, -, begun, -, grounded, -⟩ := remark_asked handleAuthRequest_keeps effect
  obtain ⟨-, browser, row, history⟩ := grounded
  dsimp only at begun history
  refine ⟨browser.symm, ?_⟩
  have first : (⟨.claim (stateOf req), .ok (some row)⟩ : Utterance Thrown Ask Ask.Answer) ∈
      (signInRun config platform db actions).saidIn number := history ▸ List.mem_cons_self
  obtain ⟨e, mem, reply⟩ := exists_event begun first
  obtain ⟨taken, -⟩ := Machine.mem_trace mem
  rw [reply] at taken
  obtain ⟨world, answered, -, -, -, answer⟩ := remark_asked handleAuthRequest_keeps taken
  change answerAsk config platform _ world (.claim (stateOf req)) = _ at answer
  refine ⟨e, mem, world, row, answered, reply, ?_⟩
  cases @claim_cases config platform e.before.state world (stateOf req) with
  | inl untouched => exact absurd (congrArg Prod.fst answer) (untouched.2 row)
  | inr claimed =>
      obtain ⟨row, found, waits, -⟩ := claimed
      obtain ⟨pre, before, earlier⟩ := Machine.trace_before mem
      rw [before] at found
      obtain ⟨now, expires, given⟩ := issuedAt_of_find fresh pre found
      rw [claimable, Bool.and_eq_true, expires, decide_eq_true_eq] at waits
      exact ⟨now, waits.2, given.mono earlier⟩

/-- Over any run of sign-in requests, however they interleave and fail, no state is used for more
exchanges than it was issued, and each exchange is one that its request may make. -/
theorem states_exchanged_once {db : SignInDb} (fresh : db.states.docs = [])
    (actions : List (Action AdminRequest World Outside)) :
    (∀ stateId, (signInTrace config platform db actions).countP (tells (exchanges stateId)) ≤
      (signInTrace config platform db actions).countP (issues stateId)) ∧
    ∀ e ∈ signInTrace config platform db actions, ∀ number req code a,
      e.reply = some ⟨number, req, ⟨.exchange code, a⟩⟩ →
      browserStateOf platform req = stateOf req ∧
        ∃ e' ∈ signInTrace config platform db actions, ∃ world row,
          e'.action = .answer number world ∧
          e'.reply = some ⟨number, req, ⟨.claim (stateOf req), .ok (some row)⟩⟩ ∧
          ∃ now, world.now < now + STATE_TTL_MS ∧
            IssuedAt (signInTrace config platform db actions) (stateOf req) now := by
  constructor
  · intro stateId
    have none_waits : waiting stateId db.states = 0 := by
      rw [waiting, Collection.find, fresh]
      rfl
    have first := @exchanges_le_claims config platform db actions stateId
    have second := @claims_le_issues config platform db actions stateId
    omega
  · intro e mem number req code a reply
    obtain ⟨pre, before, earlier⟩ := Machine.trace_before mem
    have said := congrArg Prod.snd (Machine.mem_trace mem).1
    rw [before, reply] at said
    obtain ⟨browser, e', mem', world, row, answered, claimed, now, early, given⟩ :=
      exchanged_in_time fresh pre said
    exact ⟨browser, e', earlier mem', world, row, answered, claimed, now, early, given.mono earlier⟩

/-- A browser is sent to GitHub, comes back and signs in with a new account. -/
def sampleActions : List (Action AdminRequest World Outside) :=
  .begin sampleStart :: List.replicate 5 (.answer 0 sampleWorld) ++
    .begin sampleCallback :: List.replicate 14 (.answer 1 sampleWorld)

theorem states_exchanged_once_sample :
    (signInTrace sampleSignIn sampleSignInPlatform sampleSignInDb sampleActions).countP
        (tells (exchanges sampleState)) = 1 ∧
      1 ≤ (signInTrace sampleSignIn sampleSignInPlatform sampleSignInDb sampleActions).countP
        (issues sampleState) := by
  have exchanged : (signInTrace sampleSignIn sampleSignInPlatform sampleSignInDb
      sampleActions).countP (tells (exchanges sampleState)) = 1 := by decide +kernel
  have once := (@states_exchanged_once sampleSignIn sampleSignInPlatform sampleSignInDb rfl
    sampleActions).1 sampleState
  exact ⟨exchanged, exchanged ▸ once⟩

end States

end Gateway.Admin.SignIn
