import Gateway.Lib.Machine
import Mathlib.Data.List.Chain
import Mathlib.Order.Basic

/-!
Two machines that answer the same actions, related as time goes on.

Every action happens at some time, and the relation of the two states may weaken
as time goes on but never breaks by itself. If one action keeps the relation and
gets related answers, then so does a whole run.
-/

namespace Machine

universe u v w x y z

variable {σ : Type u} {τ : Type v} {α : Type w} {ρ : Type x} {ρ' : Type y} {T : Type z}
  [Preorder T]

/-- Events of two machines for one action, with answers that match. -/
def Event.Matches (E : α → ρ → ρ' → Prop) (e : Event σ α ρ) (e' : Event τ α ρ') : Prop :=
  e.action = e'.action ∧ E e.action e.reply e'.reply

variable {f : σ → α → σ × ρ} {g : τ → α → τ × ρ'} {E : α → ρ → ρ' → Prop}

theorem trace_matches (R : T → σ → τ → Prop) (time : α → T) (allowed : α → Prop)
    (later : ∀ {t t' s s'}, t ≤ t' → R t s s' → R t' s s')
    (step : ∀ {s s' a}, allowed a → R (time a) s s' →
      E a (f s a).2 (g s' a).2 ∧ R (time a) (f s a).1 (g s' a).1)
    {start : T} {s : σ} {s' : τ} (initial : R start s s') {as : List α}
    (forward : (start :: as.map time).IsChain (· ≤ ·)) (h : ∀ a ∈ as, allowed a) :
    List.Forall₂ (Event.Matches E) (trace f s as) (trace g s' as) := by
  induction as generalizing start s s' with
  | nil => exact .nil
  | cons a as ih =>
      obtain ⟨first, rest⟩ := List.isChain_cons_cons.mp forward
      obtain ⟨answers, related⟩ := step (h a List.mem_cons_self) (later first initial)
      exact .cons ⟨rfl, answers⟩ (ih related rest fun b mem => h b (List.mem_cons_of_mem a mem))

theorem action_mem {s : σ} {as : List α} {e : Event σ α ρ} (h : e ∈ trace f s as) :
    e.action ∈ as := by
  induction as generalizing s with
  | nil => cases h
  | cons a as ih =>
      cases h with
      | head => exact List.mem_cons_self
      | tail _ h => exact List.mem_cons_of_mem a (ih h)

/-- What every action answers while an invariant holds that time may only weaken. -/
theorem trace_answers (I : T → σ → Prop) (time : α → T) (allowed : σ → α → Prop)
    (P : α → ρ → Prop) (later : ∀ {t t' s}, t ≤ t' → I t s → I t' s)
    (step : ∀ {s a}, allowed s a → I (time a) s → P a (f s a).2 ∧ I (time a) (f s a).1)
    {start : T} {s : σ} (initial : I start s) {as : List α}
    (forward : (start :: as.map time).IsChain (· ≤ ·))
    (h : ∀ e ∈ trace f s as, allowed e.before e.action) :
    ∀ e ∈ trace f s as, P e.action e.reply := by
  induction as generalizing start s with
  | nil => exact fun e mem => absurd mem List.not_mem_nil
  | cons a as ih =>
      obtain ⟨first, rest⟩ := List.isChain_cons_cons.mp forward
      obtain ⟨answer, kept⟩ := step (h _ List.mem_cons_self) (later first initial)
      intro e mem
      cases mem with
      | head => exact answer
      | tail _ mem => exact ih kept rest (fun e mem => h e (List.mem_cons_of_mem _ mem)) e mem

section Exactly

variable (R : T → σ → τ → Prop) (time : α → T) {allowed : σ → α → Prop}

/-- Two machines that stay related, and answer alike in exactly the steps that meet a
condition, answer alike in exactly the runs whose steps all meet it. -/
theorem trace_matches_iff (meets : σ → α → Prop)
    (later : ∀ {t t' s s'}, t ≤ t' → R t s s' → R t' s s')
    (step : ∀ {s s' a}, allowed s a → R (time a) s s' →
      (E a (f s a).2 (g s' a).2 ↔ meets s a) ∧ R (time a) (f s a).1 (g s' a).1)
    {start : T} {s : σ} {s' : τ} (initial : R start s s') {as : List α}
    (forward : (start :: as.map time).IsChain (· ≤ ·))
    (h : ∀ e ∈ trace f s as, allowed e.before e.action) :
    List.Forall₂ (Event.Matches E) (trace f s as) (trace g s' as) ↔
      ∀ e ∈ trace f s as, meets e.before e.action := by
  induction as generalizing start s s' with
  | nil => exact iff_of_true .nil fun e mem => absurd mem List.not_mem_nil
  | cons a as ih =>
      obtain ⟨first, rest⟩ := List.isChain_cons_cons.mp forward
      obtain ⟨answers, related⟩ := step (h _ List.mem_cons_self) (later first initial)
      rw [trace, trace, List.forall₂_cons, List.forall_mem_cons,
        ih related rest fun e mem => h e (List.mem_cons_of_mem _ mem)]
      exact and_congr_left fun _ => (and_iff_right rfl).trans answers

/-- What the relation says of the state after every action. -/
theorem trace_related (later : ∀ {t t' s s'}, t ≤ t' → R t s s' → R t' s s')
    (step : ∀ {s s' a}, allowed s a → R (time a) s s' → R (time a) (f s a).1 (g s' a).1)
    {start : T} {s : σ} {s' : τ} (initial : R start s s') {as : List α}
    (forward : (start :: as.map time).IsChain (· ≤ ·))
    (h : ∀ e ∈ trace f s as, allowed e.before e.action) :
    ∀ e ∈ trace f s as, ∃ s'', R (time e.action) e.after s'' := by
  induction as generalizing start s s' with
  | nil => exact fun e mem => absurd mem List.not_mem_nil
  | cons a as ih =>
      obtain ⟨first, rest⟩ := List.isChain_cons_cons.mp forward
      have related := step (h _ List.mem_cons_self) (later first initial)
      intro e mem
      cases mem with
      | head => exact ⟨_, related⟩
      | tail _ mem =>
          exact ih related rest (fun e mem => h e (List.mem_cons_of_mem _ mem)) e mem

end Exactly

end Machine
