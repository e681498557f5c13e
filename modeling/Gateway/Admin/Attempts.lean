import Gateway.Admin.SignInRuns
import Gateway.RateLimit.Ceiling

/-!
How often passwords can be tried from one address.

A password is looked at only after an attempt was admitted, and the attempts of an address
are counted in windows of a quarter of an hour.
-/

namespace Gateway.Admin.SignIn

open Gateway.Auth Gateway.RateLimit Transaction Dialogue

section Guesses

variable {config : SignInConfig} {platform : SignInPlatform}

variable (config platform) in
/-- A sign-in from the address looks up the account whose password it tries. -/
def tries (ipHash : String) (req : AdminRequest) : Utterance Thrown Ask Ask.Answer → Bool
  | ⟨.userNamed _, _⟩ =>
      req.segments.headD "" == "login" && ipHashOf config platform req == ipHash
  | _ => false

/-- An attempt of the address is admitted. -/
def admits (ipHash : String) (_ : AdminRequest) : Utterance Thrown Ask Ask.Answer → Bool
  | ⟨.attempt key _ _ _, .ok _⟩ => key == attemptKey ipHash
  | _ => false

def clockOf : Action AdminRequest World Outside → Option Int
  | .answer _ world => some world.now
  | _ => none

/-- An attempt is admitted in the quarter of an hour from `t` on. -/
def admitsFrom (ipHash : String) (t : Int) (e : SignInEvent config platform) : Bool :=
  tells (admits ipHash) e && (clockOf e.action).any fun now =>
    decide (t ≤ now ∧ now < t + ATTEMPT_WINDOW_SEC * 1000)

/-- A password is tried in return for an attempt. -/
theorem tries_le_admits (db : SignInDb) (actions : List (Action AdminRequest World Outside))
    (ipHash : String) :
    (signInTrace config platform db actions).countP (tells (tries config platform ipHash)) ≤
      (signInTrace config platform db actions).countP (tells (admits ipHash)) := by
  refine countP_le_countP (fun req => (handleAuthRequest_keeps req).mono ?_ fun _ _ => id) db actions
  intro said q grounded a tried
  cases q with
  | userNamed username =>
      have both : (req.segments.headD "" == "login" &&
        ipHashOf config platform req == ipHash) = true := tried
      rw [Bool.and_eq_true, beq_iff_eq, beq_iff_eq] at both
      rw [grounded both.1, List.countP_singleton, List.countP_singleton, admits, both.2,
        beq_self_eq_true]
      exact Nat.one_pos
  | _ => cases tried

/-- The counters after an answer. -/
theorem counters_answer (db : SignInDb) (w : World) {q : Ask}
    (other : ∀ key limit windowSec message, q ≠ .attempt key limit windowSec message) :
    (answerAsk config platform db w q).2.counters = db.counters := by
  cases q with
  | attempt key limit windowSec message => exact absurd rfl (other key limit windowSec message)
  | audit entry =>
      rw [answerAsk]
      split <;> rfl
  | _ => rfl

/-- An attempt runs the script, unless it fails before that. -/
theorem enforceAttemptLimit_cases (w : World) (key : String) (limit windowSec : Int)
    (message : String) (counters : Redis.Store) :
    ((enforceAttemptLimit w key limit windowSec message counters).2 = counters ∧
        ∀ u, (enforceAttemptLimit w key limit windowSec message counters).1 ≠ .ok u) ∨
      (enforceAttemptLimit w key limit windowSec message counters).2 =
          (Redis.fixedWindow (Redis.command w.now) key limit windowSec 1 counters).2 ∧
        ∀ u, (enforceAttemptLimit w key limit windowSec message counters).1 = .ok u →
          (Redis.fixedWindow (Redis.command w.now) key limit windowSec 1 counters).1.head? =
            some 1 := by
  rw [enforceAttemptLimit]
  split
  · refine .inl ⟨rfl, fun u passed => ?_⟩
    cases passed
  · refine .inr ?_
    dsimp only
    split
    · refine ⟨rfl, fun u passed => ?_⟩
      cases passed
    · split
      · next granted => exact ⟨rfl, fun _ _ => granted⟩
      · refine ⟨rfl, fun u passed => ?_⟩
        cases passed

/-- Where the counter of the address is left alone, nothing is admitted. -/
theorem spent_still {sys : System (signInService config platform)}
    {action : Action AdminRequest World Outside} {ipHash : String} {t last : Int}
    {window : Option CountedWindow} {n : Nat}
    (counts : RateLimit.Counts ATTEMPT_WINDOW_SEC (sys.state.counters (attemptKey ipHash)) window)
    (spent : Spent ATTEMPT_WINDOW_SEC t 10 window last n)
    (forward : ∀ now, clockOf action = some now → last ≤ now)
    (same : (step (signInService config platform) sys action).1.state.counters (attemptKey ipHash) =
      sys.state.counters (attemptKey ipHash))
    (refused : tells (admits ipHash) ⟨sys, action,
      (step (signInService config platform) sys action).2,
      (step (signInService config platform) sys action).1⟩ = false) :
    ∃ window', RateLimit.Counts ATTEMPT_WINDOW_SEC ((step (signInService config platform) sys
        action).1.state.counters (attemptKey ipHash)) window' ∧
      Spent ATTEMPT_WINDOW_SEC t 10 window' ((clockOf action).getD last)
        (n + if admitsFrom ipHash t ⟨sys, action, (step (signInService config platform) sys action).2,
          (step (signInService config platform) sys action).1⟩ = true then 1 else 0) := by
  refine ⟨window, same ▸ counts, ?_⟩
  have silent : admitsFrom ipHash t ⟨sys, action,
      (step (signInService config platform) sys action).2,
      (step (signInService config platform) sys action).1⟩ = false := by
    rw [admitsFrom, refused, Bool.false_and]
  rw [silent, if_neg Bool.false_ne_true, Nat.add_zero]
  apply spent.later
  cases clock : clockOf action with
  | none => exact le_refl last
  | some now => exact forward now clock

/-- What a step leaves of what an address may try. -/
theorem spent_step (sys : System (signInService config platform))
    (action : Action AdminRequest World Outside) {ipHash : String} {t last : Int}
    {window : Option CountedWindow} {n : Nat}
    (counts : RateLimit.Counts ATTEMPT_WINDOW_SEC (sys.state.counters (attemptKey ipHash)) window)
    (spent : Spent ATTEMPT_WINDOW_SEC t 10 window last n)
    (forward : ∀ now, clockOf action = some now → last ≤ now) :
    ∃ window', RateLimit.Counts ATTEMPT_WINDOW_SEC ((step (signInService config platform) sys
        action).1.state.counters (attemptKey ipHash)) window' ∧
      Spent ATTEMPT_WINDOW_SEC t 10 window' ((clockOf action).getD last)
        (n + if admitsFrom ipHash t ⟨sys, action, (step (signInService config platform) sys action).2,
          (step (signInService config platform) sys action).1⟩ = true then 1 else 0) := by
  cases said : (step (signInService config platform) sys action).2 with
  | none =>
      rw [← said]
      refine spent_still counts spent forward ?_ (by rw [said]; rfl)
      cases step_silent said with
      | inl same => rw [same]
      | inr outside =>
          obtain ⟨other, -, same⟩ := outside
          rw [same]
          exact other.counts sys.state ipHash
  | some r =>
      have effect : step (signInService config platform) sys action =
          ((step (signInService config platform) sys action).1, some r) := Prod.ext rfl said
      obtain ⟨world, rfl, -, -, grounded, answer⟩ := remark_asked handleAuthRequest_keeps effect
      obtain ⟨number, req, q, a⟩ := r
      change answerAsk config platform sys.state world q = _ at answer
      have state : (answerAsk config platform sys.state world q).2 =
          (step (signInService config platform) sys (.answer number world)).1.state :=
        congrArg Prod.snd answer
      have told : (answerAsk config platform sys.state world q).1 = a := congrArg Prod.fst answer
      rw [← said]
      cases q with
      | attempt key limit windowSec message =>
          have counters : (step (signInService config platform) sys
              (.answer number world)).1.state.counters =
                (enforceAttemptLimit world key limit windowSec message sys.state.counters).2 := by
            rw [← state]
            rfl
          change (enforceAttemptLimit world key limit windowSec message sys.state.counters).1 = a
            at told
          by_cases ours : key = attemptKey ipHash
          · obtain ⟨rfl, rfl⟩ := grounded ipHash ours
            cases enforceAttemptLimit_cases world key MAX_LOGIN_ATTEMPTS ATTEMPT_WINDOW_SEC message
              sys.state.counters with
            | inl failed =>
                refine spent_still counts spent forward (by rw [counters, failed.1]) ?_
                rw [said]
                cases a with
                | error e => rfl
                | ok u => exact absurd told (failed.2 u)
            | inr ran =>
                obtain ⟨next, spent'⟩ := @Spent.step ATTEMPT_WINDOW_SEC t last world.now 10 n
                  (attemptKey ipHash) ⟨sys.state.counters, window⟩ spent counts
                  (forward world.now rfl) (by decide) (by decide)
                refine ⟨_, ?_, spent'.fewer ?_⟩
                · rw [counters, ran.1, ours]
                  exact next
                · apply Nat.add_le_add_left
                  split
                  · next admitted =>
                      rw [admitsFrom, said, Bool.and_eq_true, clockOf, Option.any_some,
                        decide_eq_true_eq] at admitted
                      cases a with
                      | error e => cases admitted.1
                      | ok u =>
                          have granted := ran.2 u told
                          rw [ours] at granted
                          rw [if_pos ⟨granted, admitted.2⟩]
                  · exact Nat.zero_le _
          · refine spent_still counts spent forward ?_ ?_
            · rw [counters]
              cases enforceAttemptLimit_cases world key limit windowSec message
                sys.state.counters with
              | inl failed => rw [failed.1]
              | inr ran => rw [ran.1, fixedWindow_other (Ne.symm ours)]
            · rw [said]
              cases a with
              | error e => rfl
              | ok u => exact beq_eq_false_iff_ne.mpr ours
      | _ =>
          refine spent_still counts spent forward ?_ (by rw [said]; rfl)
          rw [← state]
          exact congrFun (counters_answer _ _ fun _ _ _ _ other => by cases other) _

theorem admitsFrom_run {sys : System (signInService config platform)} {ipHash : String} {t last : Int}
    {window : Option CountedWindow} {n : Nat}
    (counts : RateLimit.Counts ATTEMPT_WINDOW_SEC (sys.state.counters (attemptKey ipHash)) window)
    (spent : Spent ATTEMPT_WINDOW_SEC t 10 window last n)
    {actions : List (Action AdminRequest World Outside)}
    (forward : (last :: actions.filterMap clockOf).Pairwise (· ≤ ·)) :
    n + (Machine.trace (step (signInService config platform)) sys actions).countP
      (admitsFrom ipHash t) ≤ 20 := by
  induction actions generalizing sys last window n with
  | nil => exact spent.bounded
  | cons action actions ih =>
      rw [List.filterMap_cons] at forward
      have ahead : ∀ now, clockOf action = some now → last ≤ now := by
        intro now clock
        rw [clock] at forward
        exact (List.pairwise_cons.mp forward).1 now List.mem_cons_self
      obtain ⟨window', counts', spent'⟩ := spent_step sys action counts spent ahead
      have rest : ((clockOf action).getD last :: actions.filterMap clockOf).Pairwise (· ≤ ·) := by
        cases clock : clockOf action with
        | none =>
            rw [clock] at forward
            exact forward
        | some now =>
            rw [clock] at forward
            exact (List.pairwise_cons.mp forward).2
      have total := ih counts' spent' rest
      rw [Machine.trace, List.countP_cons]
      omega

end Guesses

end Gateway.Admin.SignIn
