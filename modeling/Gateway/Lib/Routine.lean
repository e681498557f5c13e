import Mathlib.Init

/-!
Bodies that ask a state for one thing after the other.

What a routine asks next depends on the answers, so it is a tree. It can be run as a
whole, or step by step with other things happening in between.
-/

universe u v w x

/-- A body that asks for one thing after the other. A nested routine runs in its place,
and the outer one goes on with its result. -/
inductive Routine (Q : Type u) (A : Type v) (R : Type w) where
  | done (result : R)
  | ask (request : Q) (resume : A → Routine Q A R)
  | nested (inner : Routine Q A R) (resume : R → Routine Q A R)

namespace Routine

variable {σ : Type x} {Q : Type u} {A : Type v} {R : Type w}

def result? : Routine Q A R → Option R
  | .done result => some result
  | _ => none

/-- The request that is made next, if the next step makes one. -/
def next? : Routine Q A R → Option Q
  | .done _ => none
  | .ask request _ => some request
  | .nested inner _ => inner.next?

def andThen : Routine Q A R → (R → Routine Q A R) → Routine Q A R
  | .done result, k => k result
  | .ask request resume, k => .ask request fun a => (resume a).andThen k
  | .nested inner resume, k => .nested inner fun r => (resume r).andThen k

section Runs

variable (answer : σ → Q → σ × A)

def step : Routine Q A R → σ → σ × Routine Q A R
  | .done result, s => (s, .done result)
  | .ask request resume, s => ((answer s request).1, resume (answer s request).2)
  | .nested inner resume, s =>
      match inner.result? with
      | some result => (s, resume result)
      | none => ((step inner s).1, .nested (step inner s).2 resume)

/-- All of it, with nothing in between. -/
def run : Routine Q A R → σ → σ × R
  | .done result, s => (s, result)
  | .ask request resume, s => run (resume (answer s request).2) (answer s request).1
  | .nested inner resume, s => run (resume (run inner s).2) (run inner s).1

variable {answer}

theorem result?_eq_some {r : Routine Q A R} {result : R} (settled : r.result? = some result) :
    r = .done result := by
  cases r with
  | done result' => exact congrArg Routine.done (Option.some.inj settled)
  | ask request resume => cases settled
  | nested inner resume => cases settled

theorem run_step (r : Routine Q A R) (s : σ) :
    (r.step answer s).2.run answer (r.step answer s).1 = r.run answer s := by
  induction r generalizing s with
  | done result => rfl
  | ask request resume => rfl
  | nested inner resume ihInner ihResume =>
      cases settled : inner.result? with
      | some result =>
          rw [result?_eq_some settled]
          rfl
      | none =>
          simp only [step, settled, run]
          rw [ihInner s]

/-- A nested routine does what its steps do in its place. -/
theorem run_andThen (r : Routine Q A R) (k : R → Routine Q A R) (s : σ) :
    (r.andThen k).run answer s = (k (r.run answer s).2).run answer (r.run answer s).1 := by
  induction r generalizing s with
  | done result => rfl
  | ask request resume ih => exact ih _ _
  | nested inner resume ihInner ihResume => exact ihResume _ _

theorem run_nested (inner : Routine Q A R) (resume : R → Routine Q A R) (s : σ) :
    (Routine.nested inner resume).run answer s = (inner.andThen resume).run answer s :=
  (run_andThen inner resume s).symm

/-- A step answers the next request, or leaves the state alone. -/
theorem step_invariant {I : σ → Prop} (r : Routine Q A R) {s : σ}
    (kept : ∀ q, r.next? = some q → I (answer s q).1) (holds : I s) : I (r.step answer s).1 := by
  induction r with
  | done result => exact holds
  | ask request resume => exact kept request rfl
  | nested inner resume ihInner ihResume =>
      cases settled : inner.result? with
      | some result =>
          simp only [step, settled]
          exact holds
      | none =>
          simp only [step, settled]
          exact ihInner kept

/-- The routine ends after some of its steps. -/
inductive Settles (answer : σ → Q → σ × A) : σ → Routine Q A R → Prop where
  | done (s : σ) (result : R) : Settles answer s (.done result)
  | step {s : σ} {r : Routine Q A R} (unsettled : r.result? = none)
      (later : Settles answer (r.step answer s).1 (r.step answer s).2) : Settles answer s r

theorem settles_nested {inner : Routine Q A R} {resume : R → Routine Q A R} {s : σ}
    (settles : Settles answer s inner) (further : ∀ result s, Settles answer s (resume result)) :
    Settles answer s (.nested inner resume) := by
  induction settles with
  | done s result => exact .step rfl (further result s)
  | step unsettled later ih =>
      apply Settles.step rfl
      simp only [Routine.step, unsettled]
      exact ih

theorem settles (r : Routine Q A R) (s : σ) : Settles answer s r := by
  induction r generalizing s with
  | done result => exact .done s result
  | ask request resume ih => exact .step rfl (ih _ _)
  | nested inner resume ihInner ihResume => exact settles_nested (ihInner s) ihResume

end Runs

end Routine
