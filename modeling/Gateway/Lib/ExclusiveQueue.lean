import Gateway.Lib.Machine
import Gateway.Lib.Routine

/-!
Jobs that take turns on a shared state.

A job is one call or a routine. The jobs wait in line and one at a time holds the
state; a routine that fails is rolled back to where it started. Probes do not wait:
they look at the state, or change it, while a routine is under way. Where no probe can
tell that one is, everything that is seen of the concurrent system is what a machine
shows that runs every job as a whole.
-/

universe u v w x y

namespace ExclusiveQueue

variable {σ : Type x} {P : Type u} {C : Type v} {A : Type w} {R : Type y}

/-- What a routine may ask for: both go through at once while it holds the state. -/
inductive Request (P : Type u) (C : Type v) where
  | probe (p : P)
  | call (c : C)

/-- A state with its operations. `rollback start now` undoes a routine that fails. -/
structure Shared (σ : Type x) (P : Type u) (C : Type v) (A : Type w) (R : Type y) where
  probe : σ → P → σ × A
  call : σ → C → σ × A
  failed : R → Bool
  rollback : σ → σ → σ

def Shared.answer (m : Shared σ P C A R) (s : σ) : Request P C → σ × A
  | .probe p => m.probe s p
  | .call c => m.call s c

abbrev Body (P : Type u) (C : Type v) (A : Type w) (R : Type y) := Routine (Request P C) A R

/-- What waits in line. -/
inductive Job (P : Type u) (C : Type v) (A : Type w) (R : Type y) where
  | call (c : C)
  | routine (body : Body P C A R)

/-- The routine that holds the state: where it started, all of it and what is left of it. -/
structure Running (σ : Type x) (P : Type u) (C : Type v) (A : Type w) (R : Type y) where
  number : Nat
  start : σ
  whole : Body P C A R
  rest : Body P C A R

structure System (σ : Type x) (P : Type u) (C : Type v) (A : Type w) (R : Type y) where
  state : σ
  line : List (Nat × Job P C A R)
  running : Option (Running σ P C A R)
  next : Nat

def System.initial (s : σ) : System σ P C A R := ⟨s, [], none, 0⟩

inductive Action (P : Type u) (C : Type v) (A : Type w) (R : Type y) where
  | probe (p : P)
  | submit (job : Job P C A R)
  | advance

/-- What is seen from outside. -/
inductive Outcome (P : Type u) (A : Type w) (R : Type y) where
  | probed (p : P) (answer : A)
  | answered (number : Nat) (answer : A)
  | finished (number : Nat) (result : R)

section Steps

variable (m : Shared σ P C A R)

/-- The state after a routine has ended. -/
def Shared.ended (m : Shared σ P C A R) (start now : σ) (result : R) : σ :=
  if m.failed result then m.rollback start now else now

def advance (s : System σ P C A R) : System σ P C A R × Option (Outcome P A R) :=
  match s.running with
  | some r =>
      match r.rest.result? with
      | some result =>
          ({ s with state := m.ended r.start s.state result, running := none },
            some (.finished r.number result))
      | none =>
          ({ s with
              state := (r.rest.step m.answer s.state).1
              running := some { r with rest := (r.rest.step m.answer s.state).2 } }, none)
  | none =>
      match s.line with
      | [] => (s, none)
      | (number, .call c) :: line =>
          ({ s with state := (m.call s.state c).1, line := line },
            some (.answered number (m.call s.state c).2))
      | (number, .routine body) :: line =>
          ({ s with line := line, running := some ⟨number, s.state, body, body⟩ }, none)

def step (s : System σ P C A R) : Action P C A R → System σ P C A R × Option (Outcome P A R)
  | .probe p => ({ s with state := (m.probe s.state p).1 }, some (.probed p (m.probe s.state p).2))
  | .submit job => ({ s with line := s.line ++ [(s.next, job)], next := s.next + 1 }, none)
  | .advance => advance m s

/-- A job or a probe as a whole. -/
inductive Serial (P : Type u) (C : Type v) (A : Type w) (R : Type y) where
  | probe (p : P)
  | call (number : Nat) (c : C)
  | routine (number : Nat) (body : Body P C A R)

def serialStep (s : σ) : Serial P C A R → σ × Outcome P A R
  | .probe p => ((m.probe s p).1, .probed p (m.probe s p).2)
  | .call number c => ((m.call s c).1, .answered number (m.call s c).2)
  | .routine number body =>
      (m.ended s (body.run m.answer s).1 (body.run m.answer s).2,
        .finished number (body.run m.answer s).2)

end Steps

/-- What takes effect in a step: a routine when it ends. -/
def takesEffect (s : System σ P C A R) : Action P C A R → Option (Serial P C A R)
  | .probe p => some (.probe p)
  | .submit _ => none
  | .advance =>
      match s.running with
      | some r => r.rest.result?.map fun _ => .routine r.number r.whole
      | none =>
          match s.line with
          | (number, .call c) :: _ => some (.call number c)
          | _ => none

section Order

variable (m : Shared σ P C A R)

abbrev events (s : System σ P C A R) (actions : List (Action P C A R)) :=
  Machine.trace (step m) s actions

/-- The jobs and probes of a run in the order in which they take effect. -/
def effects (s : System σ P C A R) (actions : List (Action P C A R)) : List (Serial P C A R) :=
  (events m s actions).filterMap fun e => takesEffect e.before e.action

def outcomes (s : System σ P C A R) (actions : List (Action P C A R)) : List (Outcome P A R) :=
  (events m s actions).filterMap Machine.Event.reply

def serialOutcomes (s : σ) (order : List (Serial P C A R)) : List (Outcome P A R) :=
  (Machine.trace (serialStep m) s order).map Machine.Event.reply

end Order

section Simulation

variable (m : Shared σ P C A R)

/-- A probe that cannot tell that a routine is under way: it changes nothing, and it
answers what it would have answered before the routine started. -/
def Transparent (s : System σ P C A R) : Action P C A R → Prop
  | .probe p => ∀ r, s.running = some r →
      (m.probe s.state p).1 = s.state ∧ m.probe r.start p = (r.start, (m.probe s.state p).2)
  | _ => True

/-- The state of the serial machine is the one that the running routine started from. -/
structure Serves (s : System σ P C A R) (t : σ) : Prop where
  idle : s.running = none → t = s.state
  busy : ∀ r, s.running = some r →
    t = r.start ∧ r.whole.run m.answer r.start = r.rest.run m.answer s.state

def serialEffect (t : σ) : Option (Serial P C A R) → σ × Option (Outcome P A R)
  | none => (t, none)
  | some x => ((serialStep m t x).1, some (serialStep m t x).2)

variable {m} {s : System σ P C A R} {t : σ}

theorem probe_serves {p : P} (transparent : Transparent m s (.probe p)) (serves : Serves m s t) :
    Serves m (step m s (.probe p)).1 (m.probe t p).1 ∧
      (m.probe s.state p).2 = (m.probe t p).2 := by
  cases running : s.running with
  | none =>
      rw [serves.idle running]
      refine ⟨⟨fun _ => rfl, ?_⟩, rfl⟩
      intro r busy
      exact absurd (running.symm.trans busy) (Option.some_ne_none r).symm
  | some r =>
      obtain ⟨same, before⟩ := transparent r running
      obtain ⟨start, left⟩ := serves.busy r running
      rw [start, before]
      refine ⟨⟨?_, ?_⟩, rfl⟩
      · intro idle
        exact absurd (running.symm.trans idle) (Option.some_ne_none r)
      · intro r' busy
        have holder : r = r' := Option.some.inj (running.symm.trans busy)
        subst holder
        refine ⟨rfl, ?_⟩
        simp only [step, same]
        exact left

theorem advance_serves (serves : Serves m s t) :
    Serves m (advance m s).1 (serialEffect m t (takesEffect s .advance)).1 ∧
      (advance m s).2 = (serialEffect m t (takesEffect s .advance)).2 := by
  cases running : s.running with
  | some r =>
      obtain ⟨start, left⟩ := serves.busy r running
      cases settled : r.rest.result? with
      | some result =>
          rw [Routine.result?_eq_some settled] at left
          simp only [advance, takesEffect, running, settled, Option.map_some, serialEffect,
            serialStep, start, left, Routine.run]
          refine ⟨⟨fun _ => rfl, ?_⟩, trivial⟩
          intro r' busy
          exact absurd busy (Option.some_ne_none r').symm
      | none =>
          simp only [advance, takesEffect, running, settled, Option.map_none, serialEffect]
          refine ⟨⟨fun idle => absurd idle (Option.some_ne_none _), ?_⟩, trivial⟩
          intro r' busy
          have holder := Option.some.inj busy
          subst holder
          exact ⟨start, left.trans (Routine.run_step r.rest s.state).symm⟩
  | none =>
      have state := serves.idle running
      cases line : s.line with
      | nil =>
          simp only [advance, takesEffect, running, line, serialEffect]
          exact ⟨serves, trivial⟩
      | cons entry rest =>
          obtain ⟨number, job⟩ := entry
          cases job with
          | call c =>
              simp only [advance, takesEffect, running, line, serialEffect, serialStep, state]
              refine ⟨⟨fun _ => rfl, ?_⟩, trivial⟩
              intro r busy
              exact absurd busy (Option.some_ne_none r).symm
          | routine body =>
              simp only [advance, takesEffect, running, line, serialEffect]
              refine ⟨⟨fun idle => absurd idle (Option.some_ne_none _), ?_⟩, trivial⟩
              intro r busy
              have holder := Option.some.inj busy
              subst holder
              exact ⟨state, rfl⟩

/-- Each step shows what its effect shows when it happens as a whole. -/
theorem step_serves {a : Action P C A R} (transparent : Transparent m s a)
    (serves : Serves m s t) :
    Serves m (step m s a).1 (serialEffect m t (takesEffect s a)).1 ∧
      (step m s a).2 = (serialEffect m t (takesEffect s a)).2 := by
  cases a with
  | probe p =>
      obtain ⟨next, same⟩ := probe_serves transparent serves
      exact ⟨next, congrArg (some ∘ Outcome.probed p) same⟩
  | submit job => exact ⟨⟨serves.idle, serves.busy⟩, rfl⟩
  | advance => exact advance_serves serves

theorem effects_cons (a : Action P C A R) (actions : List (Action P C A R)) :
    effects m s (a :: actions) =
      (takesEffect s a).toList ++ effects m (step m s a).1 actions := by
  rw [effects, events, Machine.trace, List.filterMap_cons]
  cases takesEffect s a <;> rfl

theorem outcomes_cons (a : Action P C A R) (actions : List (Action P C A R)) :
    outcomes m s (a :: actions) = (step m s a).2.toList ++ outcomes m (step m s a).1 actions := by
  rw [outcomes, events, Machine.trace, List.filterMap_cons]
  cases (step m s a).2 <;> rfl

/-- The outcomes of a run are those of the serial machine, in the order of the effects. -/
theorem outcomes_serial {actions : List (Action P C A R)}
    (transparent : ∀ e ∈ events m s actions, Transparent m e.before e.action)
    (serves : Serves m s t) :
    outcomes m s actions = serialOutcomes m t (effects m s actions) := by
  induction actions generalizing s t with
  | nil => rfl
  | cons a rest ih =>
      obtain ⟨now, later⟩ := List.forall_mem_cons.mp transparent
      obtain ⟨next, same⟩ := step_serves now serves
      rw [outcomes_cons, effects_cons, ih later next, same]
      cases takesEffect s a <;> rfl

theorem run_serves {actions : List (Action P C A R)}
    (transparent : ∀ e ∈ events m s actions, Transparent m e.before e.action)
    (serves : Serves m s t) :
    Serves m (Machine.run (step m) s actions)
      (Machine.run (serialStep m) t (effects m s actions)) := by
  induction actions generalizing s t with
  | nil => exact serves
  | cons a rest ih =>
      obtain ⟨now, later⟩ := List.forall_mem_cons.mp transparent
      have next := ih later (step_serves now serves).1
      rw [effects_cons]
      cases effect : takesEffect s a <;> rw [effect] at next <;> exact next

/-- Each step of the serial machine is the effect of a step of the system. -/
theorem serial_event {actions : List (Action P C A R)}
    (transparent : ∀ e ∈ events m s actions, Transparent m e.before e.action)
    (serves : Serves m s t) :
    ∀ e ∈ Machine.trace (serialStep m) t (effects m s actions),
      ∃ e' ∈ events m s actions, takesEffect e'.before e'.action = some e.action ∧
        Serves m e'.before e.before ∧ Serves m e'.after e.after := by
  induction actions generalizing s t with
  | nil => exact fun e mem => absurd mem List.not_mem_nil
  | cons a rest ih =>
      obtain ⟨now, later⟩ := List.forall_mem_cons.mp transparent
      have next := (step_serves now serves).1
      have further := ih later next
      intro e mem
      rw [effects_cons] at mem
      cases effect : takesEffect s a with
      | none =>
          rw [effect] at mem further
          obtain ⟨e', listed, rest⟩ := further e mem
          exact ⟨e', List.mem_cons_of_mem _ listed, rest⟩
      | some x =>
          rw [effect] at mem further next
          cases mem with
          | head => exact ⟨_, List.mem_cons_self, effect, serves, next⟩
          | tail _ mem =>
              obtain ⟨e', listed, rest⟩ := further e mem
              exact ⟨e', List.mem_cons_of_mem _ listed, rest⟩

theorem initial_serves (s : σ) : Serves m (System.initial s) s :=
  ⟨fun _ => rfl, fun r busy => absurd busy (Option.some_ne_none r).symm⟩

end Simulation

end ExclusiveQueue
