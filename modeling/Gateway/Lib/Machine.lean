import Mathlib.Data.List.Basic

/-!
Runs of a deterministic machine that answers every action it takes.

Nondeterminism of an environment is part of the action: an interleaving of
several parties is one list of actions, and a statement about every list is a
statement about every interleaving. The rules below say what survives a whole
run once it is known what one step preserves.
-/

namespace Machine

universe u v w

variable {σ : Type u} {α : Type v} {ρ : Type w}

/-- One executed action with the states around it and what its caller saw. -/
structure Event (σ : Type u) (α : Type v) (ρ : Type w) where
  before : σ
  action : α
  reply : ρ
  after : σ

def run (step : σ → α → σ × ρ) : σ → List α → σ
  | s, [] => s
  | s, a :: as => run step (step s a).1 as

def trace (step : σ → α → σ × ρ) : σ → List α → List (Event σ α ρ)
  | _, [] => []
  | s, a :: as => ⟨s, a, (step s a).2, (step s a).1⟩ :: trace step (step s a).1 as

variable {step : σ → α → σ × ρ}

@[simp]
theorem run_nil (s : σ) : run step s [] = s := rfl

@[simp]
theorem run_cons (s : σ) (a : α) (as : List α) :
    run step s (a :: as) = run step (step s a).1 as := rfl

theorem run_append (s : σ) (as bs : List α) :
    run step s (as ++ bs) = run step (run step s as) bs := by
  induction as generalizing s with
  | nil => rfl
  | cons a as ih => exact ih (step s a).1

theorem run_invariant {I : σ → Prop} (preserved : ∀ s a, I s → I (step s a).1)
    {s : σ} (initial : I s) (as : List α) : I (run step s as) := by
  induction as generalizing s with
  | nil => exact initial
  | cons a as ih => exact ih (preserved s a initial)

/-- An invariant that only some actions preserve holds after a run of those. -/
theorem run_invariant_of {I : σ → Prop} {allowed : α → Prop}
    (preserved : ∀ s a, allowed a → I s → I (step s a).1)
    {s : σ} (initial : I s) (as : List α) (h : ∀ a ∈ as, allowed a) :
    I (run step s as) := by
  induction as generalizing s with
  | nil => exact initial
  | cons a as ih =>
      exact ih (preserved s a (h a List.mem_cons_self) initial)
        (fun b hb => h b (List.mem_cons_of_mem a hb))

theorem trace_append (s : σ) (as bs : List α) :
    trace step s (as ++ bs) = trace step s as ++ trace step (run step s as) bs := by
  induction as generalizing s with
  | nil => rfl
  | cons a as ih => exact congrArg (Event.mk s a (step s a).2 (step s a).1 :: ·) (ih (step s a).1)

/-- An invariant that a step preserves where a condition on it is met holds after every run
whose steps all meet it. -/
theorem run_invariant_where {I : σ → Prop} {meets : σ → α → Prop}
    (preserved : ∀ s a, meets s a → I s → I (step s a).1)
    {s : σ} (initial : I s) (as : List α)
    (h : ∀ e ∈ trace step s as, meets e.before e.action) : I (run step s as) := by
  induction as generalizing s with
  | nil => exact initial
  | cons a as ih =>
      exact ih (preserved s a (h _ List.mem_cons_self) initial)
        fun e mem => h e (List.mem_cons_of_mem _ mem)

/-- And it holds before each of these steps. -/
theorem trace_invariant_where {I : σ → Prop} {meets : σ → α → Prop}
    (preserved : ∀ s a, meets s a → I s → I (step s a).1)
    {s : σ} (initial : I s) {as : List α}
    (h : ∀ e ∈ trace step s as, meets e.before e.action) : ∀ e ∈ trace step s as, I e.before := by
  induction as generalizing s with
  | nil => exact fun e mem => absurd mem List.not_mem_nil
  | cons a as ih =>
      rw [trace, List.forall_mem_cons] at h ⊢
      exact ⟨initial, ih (preserved s a h.1 initial) h.2⟩

/-- A preorder that contains every step contains every run. -/
theorem run_related {R : σ → σ → Prop} (refl : ∀ s, R s s)
    (trans : ∀ s t u, R s t → R t u → R s u) (single : ∀ s a, R s (step s a).1)
    (s : σ) (as : List α) : R s (run step s as) := by
  induction as generalizing s with
  | nil => exact refl s
  | cons a as ih => exact trans _ _ _ (single s a) (ih _)

theorem mem_trace {s : σ} {as : List α} {e : Event σ α ρ} (h : e ∈ trace step s as) :
    step e.before e.action = (e.after, e.reply) ∧
      ∃ pre, e.before = run step s pre := by
  induction as generalizing s with
  | nil => simp [trace] at h
  | cons a as ih =>
      simp only [trace, List.mem_cons] at h
      rcases h with rfl | h
      · exact ⟨rfl, [], rfl⟩
      · obtain ⟨hstep, pre, hpre⟩ := ih h
        exact ⟨hstep, a :: pre, hpre⟩

/-- A run goes on from the state after each of its events. -/
theorem run_of_mem_trace {s : σ} {as : List α} {e : Event σ α ρ} (h : e ∈ trace step s as) :
    ∃ post, run step s as = run step e.after post := by
  induction as generalizing s with
  | nil => cases h
  | cons a as ih =>
      cases h with
      | head => exact ⟨as, rfl⟩
      | tail _ h => exact ih h

/-- An event comes after the events of the run before it. -/
theorem trace_before {s : σ} {as : List α} {e : Event σ α ρ} (h : e ∈ trace step s as) :
    ∃ pre, e.before = run step s pre ∧ trace step s pre ⊆ trace step s as := by
  induction as generalizing s with
  | nil => cases h
  | cons a as ih =>
      cases h with
      | head => exact ⟨[], rfl, List.nil_subset _⟩
      | tail _ h =>
          obtain ⟨pre, before, earlier⟩ := ih h
          exact ⟨a :: pre, before, List.cons_subset_cons _ earlier⟩

/-- An event that closes a state for good, and cannot happen in a closed
state, happens at most once in a run. -/
theorem trace_countP_le_one (p : Event σ α ρ → Bool) (closed : σ → Prop)
    (preserved : ∀ s a, closed s → closed (step s a).1)
    (closes : ∀ s a, p ⟨s, a, (step s a).2, (step s a).1⟩ = true → closed (step s a).1)
    (blocked : ∀ s a, closed s → p ⟨s, a, (step s a).2, (step s a).1⟩ = false)
    (s : σ) (as : List α) : (trace step s as).countP p ≤ 1 := by
  have none_after (t : σ) (ht : closed t) (bs : List α) :
      (trace step t bs).countP p = 0 := by
    induction bs generalizing t with
    | nil => rfl
    | cons b bs ih =>
        simp only [trace, List.countP_cons, blocked t b ht, ih _ (preserved t b ht),
          Bool.false_eq_true, if_false, Nat.add_zero]
  induction as generalizing s with
  | nil => simp [trace]
  | cons a as ih =>
      simp only [trace, List.countP_cons]
      by_cases hp : p ⟨s, a, (step s a).2, (step s a).1⟩ = true
      · simp only [hp, if_true, none_after _ (closes s a hp)]
        omega
      · simp only [hp, Bool.false_eq_true, if_false]
        exact ih _

/-- Where each event of one kind uses up what one of another kind supplies, a run has at most as
many of the first as were supplied. -/
theorem trace_countP_add_le {stock : σ → Nat} {uses supplies : Event σ α ρ → Bool}
    (balanced : ∀ s a, stock (step s a).1 +
        (if uses ⟨s, a, (step s a).2, (step s a).1⟩ = true then 1 else 0) ≤
      stock s + if supplies ⟨s, a, (step s a).2, (step s a).1⟩ = true then 1 else 0)
    (s : σ) (as : List α) :
    stock (run step s as) + (trace step s as).countP uses ≤
      stock s + (trace step s as).countP supplies := by
  induction as generalizing s with
  | nil => exact Nat.le_refl _
  | cons a as ih =>
      have first := balanced s a
      have rest := ih (step s a).1
      rw [trace, List.countP_cons, List.countP_cons, run_cons]
      omega

/-- A flag that no step takes down is raised by one event of a run, or by none. -/
theorem trace_countP_rise {I : σ → Prop} (flag : σ → Bool)
    (preserved : ∀ s a, I s → I (step s a).1)
    (kept : ∀ s a, I s → flag s = true → flag (step s a).1 = true)
    {s : σ} (initial : I s) (as : List α) :
    (trace step s as).countP (fun e => !flag e.before && flag e.after) =
      if flag s = false ∧ flag (run step s as) = true then 1 else 0 := by
  induction as generalizing s with
  | nil => cases h : flag s <;> simp [trace, h]
  | cons a as ih =>
      have next := preserved s a initial
      rw [trace, List.countP_cons, ih next, run_cons]
      cases before : flag s with
      | true => simp [kept s a initial before]
      | false =>
          cases after : flag (step s a).1 with
          | false => simp
          | true =>
              have final : I (run step (step s a).1 as) ∧ flag (run step (step s a).1 as) = true :=
                run_invariant (I := fun s => I s ∧ flag s = true)
                  (fun s a h => ⟨preserved s a h.1, kept s a h.1 h.2⟩) ⟨next, after⟩ as
              simp [final.2]

end Machine
