import Gateway.Lib.ExclusiveQueue
import Mathlib.Data.List.Perm.Basic

/-!
The serial order of a run.

The jobs take effect once each and in the order in which they were submitted, a routine
that fails is rolled back, and left to itself the system gets through its line.
-/

namespace ExclusiveQueue

universe u v w x y z

variable {σ : Type x} {P : Type u} {C : Type v} {A : Type w} {R : Type y} {V : Type z}

section Jobs

def Serial.job? : Serial P C A R → Option (Nat × Job P C A R)
  | .probe _ => none
  | .call number c => some (number, .call c)
  | .routine number body => some (number, .routine body)

def Serial.probe? : Serial P C A R → Option P
  | .probe p => some p
  | _ => none

def Action.probe? : Action P C A R → Option P
  | .probe p => some p
  | _ => none

/-- The jobs of some actions, numbered from the given number on. -/
def submitted : Nat → List (Action P C A R) → List (Nat × Job P C A R)
  | _, [] => []
  | number, .submit job :: rest => (number, job) :: submitted (number + 1) rest
  | number, .probe _ :: rest => submitted number rest
  | number, .advance :: rest => submitted number rest

/-- The jobs that have not taken effect, the one that holds the state first. -/
def System.pending (s : System σ P C A R) : List (Nat × Job P C A R) :=
  (s.running.toList.map fun r => (r.number, .routine r.whole)) ++ s.line

variable {m : Shared σ P C A R}

theorem advance_pending (s : System σ P C A R) :
    ((takesEffect s .advance).bind Serial.job?).toList ++ (advance m s).1.pending = s.pending ∧
      (takesEffect s .advance).bind Serial.probe? = none ∧ (advance m s).1.next = s.next := by
  cases running : s.running with
  | some r =>
      cases settled : r.rest.result? <;>
        simp [advance, takesEffect, System.pending, running, settled, Serial.job?, Serial.probe?]
  | none =>
      cases line : s.line with
      | nil => simp [advance, takesEffect, System.pending, running, line]
      | cons entry rest =>
          obtain ⟨number, job⟩ := entry
          cases job <;>
            simp [advance, takesEffect, System.pending, running, line, Serial.job?, Serial.probe?]

theorem filterMap_toList {α : Type u} {β : Type v} (f : α → Option β) (o : Option α) :
    o.toList.filterMap f = (o.bind f).toList := by
  cases o with
  | none => rfl
  | some a =>
      cases image : f a <;> simp [image]

/-- Every job that was submitted has taken effect once or is pending, in the order in which
they were submitted. -/
theorem effects_jobs (s : System σ P C A R) (actions : List (Action P C A R)) :
    (effects m s actions).filterMap Serial.job? ++ (Machine.run (step m) s actions).pending =
      s.pending ++ submitted s.next actions := by
  induction actions generalizing s with
  | nil => exact (List.append_nil _).symm
  | cons a rest ih =>
      rw [effects_cons, List.filterMap_append, List.append_assoc, Machine.run_cons, ih,
        filterMap_toList]
      cases a with
      | probe p => rfl
      | submit job => simp [takesEffect, step, System.pending, submitted]
      | advance =>
          obtain ⟨kept, -, next⟩ := advance_pending (m := m) s
          have same : (step m s .advance).1 = (advance m s).1 := rfl
          rw [same, next, ← List.append_assoc, kept]
          rfl

theorem effects_probes (s : System σ P C A R) (actions : List (Action P C A R)) :
    (effects m s actions).filterMap Serial.probe? = actions.filterMap Action.probe? := by
  induction actions generalizing s with
  | nil => rfl
  | cons a rest ih =>
      rw [effects_cons, List.filterMap_append, ih, filterMap_toList]
      cases a with
      | probe p => rfl
      | submit job => rfl
      | advance =>
          obtain ⟨-, silent, -⟩ := advance_pending (m := m) s
          rw [silent]
          rfl

end Jobs

section Rollback

variable {m : Shared σ P C A R} {K : σ → σ → Prop}

/-- A relation of the state to the one that the running routine started from. -/
def Keeps (K : σ → σ → Prop) (s : System σ P C A R) : Prop :=
  ∀ r, s.running = some r → K r.start s.state

theorem advance_keeps (refl : ∀ s, K s s) {s : System σ P C A R}
    (asked : ∀ r, s.running = some r → ∀ q, r.rest.next? = some q → K r.start s.state →
      K r.start (m.answer s.state q).1) (keeps : Keeps K s) : Keeps K (advance m s).1 := by
  intro r' busy
  cases running : s.running with
  | some r =>
      cases settled : r.rest.result? with
      | some result =>
          simp only [advance, running, settled] at busy
          exact absurd busy (Option.some_ne_none r').symm
      | none =>
          simp only [advance, running, settled, Option.some.injEq] at busy ⊢
          rw [← busy]
          exact Routine.step_invariant r.rest
            (fun q next => asked r running q next (keeps r running)) (keeps r running)
  | none =>
      cases line : s.line with
      | nil =>
          simp only [advance, running, line] at busy
          exact absurd busy (Option.some_ne_none r').symm
      | cons entry rest =>
          obtain ⟨number, job⟩ := entry
          cases job with
          | call c =>
              simp only [advance, running, line] at busy
              exact absurd busy (Option.some_ne_none r').symm
          | routine body =>
              simp only [advance, running, line, Option.some.injEq] at busy ⊢
              rw [← busy]
              exact refl s.state

/-- A transparent probe changes nothing while a routine is under way. -/
theorem step_keeps (refl : ∀ s, K s s) {s : System σ P C A R} {a : Action P C A R}
    (transparent : Transparent m s a)
    (asked : a = .advance → ∀ r, s.running = some r → ∀ q, r.rest.next? = some q →
      K r.start s.state → K r.start (m.answer s.state q).1) (keeps : Keeps K s) :
    Keeps K (step m s a).1 := by
  cases a with
  | probe p =>
      intro r busy
      have same := (transparent r busy).1
      simp only [step, same]
      exact keeps r busy
  | submit job => exact keeps
  | advance => exact advance_keeps refl (asked rfl) keeps

/-- The running routine whose end takes effect. -/
theorem takesEffect_routine {s : System σ P C A R} {a : Action P C A R} {number : Nat}
    {body : Body P C A R} (effect : takesEffect s a = some (.routine number body)) :
    ∃ r result, s.running = some r ∧ r.whole = body ∧ r.rest = .done result := by
  cases a with
  | probe p => cases effect
  | submit job => cases effect
  | advance =>
      cases running : s.running with
      | some r =>
          simp only [takesEffect, running, Option.map_eq_some_iff, Serial.routine.injEq] at effect
          obtain ⟨result, settled, -, whole⟩ := effect
          exact ⟨r, result, rfl, whole, Routine.result?_eq_some settled⟩
      | none =>
          simp only [takesEffect, running] at effect
          split at effect <;> cases effect

/-- A routine that fails in the serial order is undone from a state that is related to the
one before it. -/
theorem serial_failed {s : System σ P C A R} {t : σ} {actions : List (Action P C A R)}
    (transparent : ∀ e ∈ events m s actions, Transparent m e.before e.action)
    (serves : Serves m s t) (keeps : ∀ e ∈ events m s actions, Keeps K e.before) :
    ∀ e ∈ Machine.trace (serialStep m) t (effects m s actions), ∀ number result,
      e.reply = .finished number result → m.failed result = true →
        ∃ now, K e.before now ∧ e.after = m.rollback e.before now := by
  intro e mem number result ends failed
  obtain ⟨e', listed, effect, before, -⟩ := serial_event transparent serves e mem
  have stepped := (Machine.mem_trace mem).1
  cases action : e.action with
  | probe p =>
      rw [action] at stepped
      exact absurd ((congrArg Prod.snd stepped).trans ends) (by simp [serialStep])
  | call n c =>
      rw [action] at stepped
      exact absurd ((congrArg Prod.snd stepped).trans ends) (by simp [serialStep])
  | routine n body =>
      rw [action] at stepped effect
      obtain ⟨r, last, running, whole, rest⟩ := takesEffect_routine effect
      obtain ⟨start, left⟩ := before.busy r running
      rw [whole, rest, ← start] at left
      have reply := (congrArg Prod.snd stepped).trans ends
      have after := congrArg Prod.fst stepped
      simp only [serialStep, left, Routine.run, Outcome.finished.injEq, Shared.ended] at reply after
      rw [reply.2, if_pos failed] at after
      refine ⟨e'.before.state, ?_, after.symm⟩
      rw [start]
      exact keeps e' listed r running

end Rollback

section Progress

variable {m : Shared σ P C A R}

abbrev advances (k : Nat) : List (Action P C A R) := List.replicate k .advance

theorem run_advances_add (s : System σ P C A R) (j k : Nat) :
    Machine.run (step m) s (advances (j + k)) =
      Machine.run (step m) (Machine.run (step m) s (advances j)) (advances k) := by
  rw [advances, List.replicate_add, Machine.run_append]

theorem routine_ends {now : σ} {rest : Body P C A R}
    (settles : Routine.Settles m.answer now rest) {s : System σ P C A R}
    {r : Running σ P C A R} (running : s.running = some r) (left : r.rest = rest)
    (state : s.state = now) :
    ∃ k, (Machine.run (step m) s (advances k)).running = none ∧
      (Machine.run (step m) s (advances k)).line = s.line := by
  induction settles generalizing s r with
  | done now result =>
      refine ⟨1, ?_⟩
      have settled : r.rest.result? = some result := by
        rw [left]
        rfl
      simp [advances, step, advance, running, settled]
  | @step now rest unsettled later ih =>
      subst left
      subst state
      have next : advance m s =
          ({ s with
              state := (r.rest.step m.answer s.state).1
              running := some { r with rest := (r.rest.step m.answer s.state).2 } }, none) := by
        simp only [advance, running, unsettled]
      obtain ⟨k, ended, line⟩ := @ih (advance m s).1
        { r with rest := (r.rest.step m.answer s.state).2 } (by rw [next]) rfl (by rw [next])
      refine ⟨k + 1, ended, line.trans ?_⟩
      rw [next]

theorem line_ends (line : List (Nat × Job P C A R)) {s : System σ P C A R}
    (idle : s.running = none) (waits : s.line = line) :
    ∃ k, (Machine.run (step m) s (advances k)).running = none ∧
      (Machine.run (step m) s (advances k)).line = [] := by
  induction line generalizing s with
  | nil => exact ⟨0, idle, waits⟩
  | cons entry rest ih =>
      obtain ⟨number, job⟩ := entry
      cases job with
      | call c =>
          have next : advance m s =
              ({ s with state := (m.call s.state c).1, line := rest },
                some (.answered number (m.call s.state c).2)) := by
            simp only [advance, idle, waits]
          obtain ⟨k, ended, empty⟩ := @ih (advance m s).1 (by rw [next, idle]) (by rw [next])
          exact ⟨k + 1, ended, empty⟩
      | routine body =>
          have next : advance m s =
              ({ s with
                  line := rest
                  running := some ⟨number, s.state, body, body⟩ }, none) := by
            simp only [advance, idle, waits]
          obtain ⟨j, ended, line⟩ :=
            routine_ends (m := m) (Routine.settles body s.state) (s := (advance m s).1)
              (r := ⟨number, s.state, body, body⟩) (by rw [next]) rfl (by rw [next])
          have left : (advance m s).1.line = rest := by rw [next]
          obtain ⟨k, ended', empty⟩ := ih ended (line.trans left)
          refine ⟨j + 1 + k, ?_⟩
          rw [run_advances_add, Nat.add_comm j 1, run_advances_add]
          exact ⟨ended', empty⟩

/-- Left to itself, the system gets through its line. -/
theorem drains (s : System σ P C A R) :
    ∃ k, (Machine.run (step m) s (advances k)).pending = [] := by
  cases running : s.running with
  | none =>
      obtain ⟨k, ended, empty⟩ := line_ends (m := m) s.line running rfl
      exact ⟨k, by simp [System.pending, ended, empty]⟩
  | some r =>
      obtain ⟨j, idle, line⟩ :=
        routine_ends (m := m) (Routine.settles r.rest s.state) running rfl rfl
      obtain ⟨k, ended, empty⟩ := line_ends (m := m) s.line idle line
      refine ⟨j + k, ?_⟩
      rw [run_advances_add]
      simp [System.pending, ended, empty]

end Progress

section Orders

variable (m : Shared σ P C A R) (view : σ → V)

/-- The jobs and probes of a run, one after the other in some order, show what the run shows
and lead to the same state. -/
structure InSerialOrder (s : σ) (actions : List (Action P C A R)) (order : List (Serial P C A R)) :
    Prop where
  jobs : (order.filterMap Serial.job? ++
    (Machine.run (step m) (.initial s) actions).pending).Perm (submitted 0 actions)
  probes : (order.filterMap Serial.probe?).Perm (actions.filterMap Action.probe?)
  outcomes : (serialOutcomes m s order).Perm (outcomes m (.initial s) actions)
  settled : (Machine.run (step m) (.initial s) actions).running = none →
    view (Machine.run (serialStep m) s order) =
      view (Machine.run (step m) (.initial s) actions).state

variable {m}

/-- A run in which no probe can tell that a routine is under way is in the serial order in
which its jobs take effect. -/
theorem effects_inSerialOrder {s : σ} {actions : List (Action P C A R)}
    (transparent : ∀ e ∈ events m (.initial s) actions, Transparent m e.before e.action) :
    InSerialOrder m view s actions (effects m (.initial s) actions) where
  jobs := .of_eq (effects_jobs (.initial s) actions)
  probes := .of_eq (effects_probes (.initial s) actions)
  outcomes := .of_eq (outcomes_serial transparent (initial_serves s)).symm
  settled idle := congrArg view ((run_serves transparent (initial_serves s)).idle idle)

end Orders

end ExclusiveQueue
