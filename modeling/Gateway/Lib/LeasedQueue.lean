import Mathlib.Data.List.Basic
import Mathlib.Logic.Function.Basic

/-!
A queue drained by workers that peek, work and acknowledge under a lease.

A worker takes the lock, copies a prefix of the queue without removing it,
works through the jobs it plans from that prefix, and finally trims as many
items as it copied, provided it still owns the lock. The lock can expire at
any moment and a worker can vanish at any moment, so several workers may hold
copies at once; the trim is by count and not by identity. The invariant that
makes it sound is that the copy of the worker that owns the lock is a prefix
of the queue.
-/

namespace LeasedQueue

universe u v w

/-- Where one worker stands. `working raw jobs` has copied `raw` and still has
to do `jobs`; `releasing` only has its lock left to give back. -/
inductive Phase (ι : Type u) (J : Type v) where
  | idle
  | locked
  | working (raw : List ι) (jobs : List J)
  | releasing

structure State (ω : Type w) (ι : Type u) (J : Type v) where
  items : List ι
  lock : Option ω
  workers : ω → Phase ι J

/-- The moves that touch the queue, its lock and the workers only. -/
inductive Action (ω : Type w) (ι : Type u) where
  | push (x : ι)
  | acquire (worker : ω)
  | peek (worker : ω) (size : Nat)
  | acknowledge (worker : ω)
  | abandon (worker : ω)
  | release (worker : ω)
  | crash (worker : ω)
  | expire

variable {ω : Type w} {ι : Type u} {J : Type v} [DecidableEq ω]

/-- The items that a move adds at the end of the queue. -/
def Action.pushes : Action ω ι → List ι
  | .push x => [x]
  | _ => []

namespace State

def setWorker (q : State ω ι J) (worker : ω) (p : Phase ι J) : State ω ι J :=
  { q with workers := Function.update q.workers worker p }

def push (q : State ω ι J) (x : ι) : State ω ι J :=
  { q with items := q.items ++ [x] }

/-- Set-if-absent on the lock; a worker that loses the race stays idle. -/
def acquire (q : State ω ι J) (worker : ω) : State ω ι J :=
  match q.workers worker, q.lock with
  | .idle, none => { q.setWorker worker .locked with lock := some worker }
  | _, _ => q

/-- Copy a prefix; there is nothing to acknowledge when the queue is empty. -/
def peek (plan : List ι → List J) (q : State ω ι J) (worker : ω) (size : Nat) :
    State ω ι J :=
  match q.workers worker with
  | .locked =>
      if (q.items.take size).isEmpty then q.setWorker worker .releasing
      else q.setWorker worker (.working (q.items.take size) (plan (q.items.take size)))
  | _ => q

/-- The worker has done its next job. -/
def advance (q : State ω ι J) (worker : ω) : State ω ι J :=
  match q.workers worker with
  | .working raw (_ :: jobs) => q.setWorker worker (.working raw jobs)
  | _ => q

/-- Owner-checked trim of as many items as were copied. -/
def acknowledge (q : State ω ι J) (worker : ω) : State ω ι J :=
  match q.workers worker with
  | .working raw [] =>
      if q.lock = some worker then
        { q.setWorker worker .releasing with items := q.items.drop raw.length, lock := none }
      else q.setWorker worker .releasing
  | _ => q

def abandon (q : State ω ι J) (worker : ω) : State ω ι J :=
  match q.workers worker with
  | .idle => q
  | _ => q.setWorker worker .releasing

def release (q : State ω ι J) (worker : ω) : State ω ι J :=
  match q.workers worker with
  | .releasing =>
      { q.setWorker worker .idle with lock := if q.lock = some worker then none else q.lock }
  | _ => q

def crash (q : State ω ι J) (worker : ω) : State ω ι J := q.setWorker worker .idle

def expire (q : State ω ι J) : State ω ι J := { q with lock := none }

def apply (plan : List ι → List J) (q : State ω ι J) : Action ω ι → State ω ι J
  | .push x => q.push x
  | .acquire worker => q.acquire worker
  | .peek worker size => q.peek plan worker size
  | .acknowledge worker => q.acknowledge worker
  | .abandon worker => q.abandon worker
  | .release worker => q.release worker
  | .crash worker => q.crash worker
  | .expire => q.expire

/-- The copy of the lock's owner is a prefix of the queue. -/
def HeldPrefix (q : State ω ι J) : Prop :=
  ∀ worker raw jobs, q.lock = some worker → q.workers worker = .working raw jobs →
    raw <+: q.items

/-- Whatever a worker has copied is handled, or covered by a job it has left. -/
def Covered (handled : ι → Prop) (covers : J → ι → Prop) (q : State ω ι J) : Prop :=
  ∀ worker raw jobs, q.workers worker = .working raw jobs →
    ∀ x ∈ raw, handled x ∨ ∃ j ∈ jobs, covers j x

/-- Every queued item, and every item a job covers, is a known one. -/
def Sourced (known : ι → Prop) (covers : J → ι → Prop) (q : State ω ι J) : Prop :=
  (∀ x ∈ q.items, known x) ∧
    ∀ worker raw jobs, q.workers worker = .working raw jobs →
      ∀ j ∈ jobs, ∀ x, covers j x → known x

/-- A worker that still owns the lock works on the copy `raw`, and since that
copy was taken the queue has only grown, from `base` by `grown`. -/
def Fenced (worker : ω) (raw base grown : List ι) (q : State ω ι J) : Prop :=
  q.lock = some worker → ∀ copy jobs, q.workers worker = .working copy jobs →
    copy = raw ∧ q.items = base ++ grown

end State

open State

variable {plan : List ι → List J}

theorem setWorker_working {q : State ω ι J} {worker other : ω} {p : Phase ι J}
    {raw : List ι} {jobs : List J}
    (h : (q.setWorker worker p).workers other = .working raw jobs) :
    (other = worker ∧ p = .working raw jobs) ∨
      (other ≠ worker ∧ q.workers other = .working raw jobs) := by
  by_cases same : other = worker
  · subst same
    exact .inl ⟨rfl, by simpa [setWorker] using h⟩
  · exact .inr ⟨same, by simpa [setWorker, same] using h⟩

/-- A worker that leaves the working phase, with the lock freed or kept, does
not disturb the owner's prefix. -/
theorem heldPrefix_leave {q : State ω ι J} (h : q.HeldPrefix) (worker : ω)
    {p : Phase ι J} (notWorking : ∀ raw jobs, p ≠ .working raw jobs) :
    (q.setWorker worker p).HeldPrefix := by
  intro other raw jobs lock working
  rcases setWorker_working working with ⟨_, hp⟩ | ⟨_, working⟩
  · exact absurd hp (notWorking raw jobs)
  · exact h other raw jobs lock working

theorem heldPrefix_advance {q : State ω ι J} (h : q.HeldPrefix) (worker : ω) :
    (q.advance worker).HeldPrefix := by
  rw [advance]
  split
  · next raw job jobs working =>
      intro other raw' jobs' lock working'
      rcases setWorker_working working' with ⟨rfl, hp⟩ | ⟨_, working'⟩
      · cases hp
        exact h other raw (job :: jobs) lock working
      · exact h other raw' jobs' lock working'
  · exact h

theorem heldPrefix_apply {q : State ω ι J} (h : q.HeldPrefix) (a : Action ω ι) :
    (q.apply plan a).HeldPrefix := by
  cases a with
  | push x =>
      intro worker raw jobs lock working
      exact (h worker raw jobs lock working).trans (List.prefix_append q.items [x])
  | acquire worker =>
      simp only [apply, acquire]
      split
      · intro other raw jobs lock working
        rcases setWorker_working working with ⟨_, hp⟩ | ⟨ne, _⟩
        · cases hp
        · exact absurd (Option.some.inj lock).symm ne
      · exact h
  | peek worker size =>
      simp only [apply, peek]
      split
      · split
        · exact heldPrefix_leave h worker (fun _ _ => by simp)
        · intro other raw jobs lock working
          rcases setWorker_working working with ⟨_, hp⟩ | ⟨_, working⟩
          · cases hp
            exact List.take_prefix size q.items
          · exact h other raw jobs lock working
      · exact h
  | acknowledge worker =>
      simp only [apply, acknowledge]
      split
      · split
        · intro other raw jobs lock
          cases lock
        · exact heldPrefix_leave h worker (fun _ _ => by simp)
      · exact h
  | abandon worker =>
      simp only [apply, abandon]
      split
      · exact h
      · exact heldPrefix_leave h worker (fun _ _ => by simp)
  | release worker =>
      simp only [apply, release]
      split
      · intro other raw jobs lock working
        refine heldPrefix_leave h worker (p := .idle) (fun _ _ => by simp) other raw jobs ?_ working
        simp only at lock
        split at lock
        · cases lock
        · exact lock
      · exact h
  | crash worker => exact heldPrefix_leave h worker (fun _ _ => by simp)
  | expire =>
      intro worker raw jobs lock
      cases lock

/-- The trim removes exactly the copy: what stood behind it stays. -/
theorem acknowledge_items {q : State ω ι J} (h : q.HeldPrefix) {worker : ω}
    {raw : List ι} (lock : q.lock = some worker)
    (working : q.workers worker = .working raw []) :
    q.items = raw ++ (q.acknowledge worker).items := by
  obtain ⟨rest, hrest⟩ := h worker raw [] lock working
  simp [acknowledge, working, lock, setWorker, ← hrest]

/-- A worker that finds the lock free has its copy after two moves. -/
theorem acquire_peek {q : State ω ι J} {worker : ω} (free : q.lock = none)
    (idle : q.workers worker = .idle) (size : Nat) :
    ((q.acquire worker).peek plan worker size).items = q.items ∧
      ((q.acquire worker).peek plan worker size).lock = some worker ∧
      ((q.acquire worker).peek plan worker size).workers worker =
        if (q.items.take size).isEmpty then .releasing
        else .working (q.items.take size) (plan (q.items.take size)) := by
  simp only [acquire, idle, free, peek, setWorker, Function.update_self]
  split <;> simp

section Coverage

variable {handled : ι → Prop} {covers : J → ι → Prop}

omit [DecidableEq ω] in
theorem covered_mono {later : ι → Prop} (grows : ∀ x, handled x → later x) {q : State ω ι J}
    (h : q.Covered handled covers) : q.Covered later covers := by
  intro worker raw jobs working x mem
  exact (h worker raw jobs working x mem).imp_left (grows x)

theorem covered_setWorker {q : State ω ι J} (h : q.Covered handled covers) (worker : ω)
    {p : Phase ι J} (covered : ∀ raw jobs, p = .working raw jobs →
      ∀ x ∈ raw, handled x ∨ ∃ j ∈ jobs, covers j x) :
    (q.setWorker worker p).Covered handled covers := by
  intro other raw jobs working
  cases setWorker_working working with
  | inl here => exact covered raw jobs here.2
  | inr there => exact h other raw jobs there.2

/-- Leaving the working phase keeps every copy covered. -/
theorem covered_leave {q : State ω ι J} (h : q.Covered handled covers) (worker : ω)
    {p : Phase ι J} (notWorking : ∀ raw jobs, p ≠ .working raw jobs) :
    (q.setWorker worker p).Covered handled covers :=
  covered_setWorker h worker (fun raw jobs hp => absurd hp (notWorking raw jobs))

theorem covered_advance {q : State ω ι J} (h : q.Covered handled covers) (worker : ω)
    {raw : List ι} {job : J} {jobs : List J} (working : q.workers worker = .working raw (job :: jobs))
    (done : ∀ x, covers job x → handled x) : (q.advance worker).Covered handled covers := by
  simp only [advance, working]
  refine covered_setWorker h worker ?_
  intro raw' jobs' hp x mem
  cases hp
  cases h worker raw (job :: jobs) working x mem with
  | inl already => exact .inl already
  | inr planned =>
      obtain ⟨j, hj, covered⟩ := planned
      cases hj with
      | head => exact .inl (done x covered)
      | tail _ later => exact .inr ⟨j, later, covered⟩

theorem covered_apply (planned : ∀ raw : List ι, ∀ x ∈ raw, handled x ∨ ∃ j ∈ plan raw, covers j x)
    {q : State ω ι J} (h : q.Covered handled covers) (a : Action ω ι) :
    (q.apply plan a).Covered handled covers := by
  cases a with
  | push x => exact h
  | acquire worker =>
      simp only [apply, acquire]
      split
      · exact covered_leave h worker (p := .locked) (fun _ _ => by simp)
      · exact h
  | peek worker size =>
      simp only [apply, peek]
      split
      · split
        · exact covered_leave h worker (fun _ _ => by simp)
        · refine covered_setWorker h worker ?_
          intro raw jobs hp
          cases hp
          exact planned _
      · exact h
  | acknowledge worker =>
      simp only [apply, acknowledge]
      split
      · split
        · exact covered_leave h worker (p := .releasing) (fun _ _ => by simp)
        · exact covered_leave h worker (fun _ _ => by simp)
      · exact h
  | abandon worker =>
      simp only [apply, abandon]
      split
      · exact h
      · exact covered_leave h worker (fun _ _ => by simp)
  | release worker =>
      simp only [apply, release]
      split
      · exact covered_leave h worker (p := .idle) (fun _ _ => by simp)
      · exact h
  | crash worker => exact covered_leave h worker (fun _ _ => by simp)
  | expire => exact h

/-- No move loses an item: it is still queued afterwards, or it is handled. -/
theorem kept_apply {q : State ω ι J} (held : q.HeldPrefix) (covered : q.Covered handled covers)
    (a : Action ω ι) {x : ι} (queued : x ∈ q.items) :
    x ∈ (q.apply plan a).items ∨ handled x := by
  cases a with
  | push y => exact .inl (List.mem_append_left [y] queued)
  | acquire worker | abandon worker | release worker =>
      refine .inl ?_
      simp only [apply, acquire, abandon, release]
      split <;> exact queued
  | peek worker size =>
      refine .inl ?_
      simp only [apply, peek]
      split
      · split <;> exact queued
      · exact queued
  | acknowledge worker =>
      simp only [apply]
      cases phase : q.workers worker with
      | idle | locked | releasing =>
          refine .inl ?_
          simpa only [acknowledge, phase] using queued
      | working raw jobs =>
          cases jobs with
          | cons job jobs =>
              refine .inl ?_
              simpa only [acknowledge, phase] using queued
          | nil =>
              by_cases lock : q.lock = some worker
              · rw [acknowledge_items held lock phase] at queued
                cases List.mem_append.mp queued with
                | inl copied =>
                    cases covered worker raw [] phase x copied with
                    | inl done => exact .inr done
                    | inr left =>
                        obtain ⟨j, none, _⟩ := left
                        cases none
                | inr behind => exact .inl behind
              · refine .inl ?_
                simpa only [acknowledge, phase, lock, if_false, setWorker] using queued
  | crash worker | expire => exact .inl queued

variable {known : ι → Prop}

theorem sourced_setWorker {q : State ω ι J} (h : q.Sourced known covers) (worker : ω)
    {p : Phase ι J} (sourced : ∀ raw jobs, p = .working raw jobs →
      ∀ j ∈ jobs, ∀ x, covers j x → known x) : (q.setWorker worker p).Sourced known covers := by
  refine ⟨h.1, ?_⟩
  intro other raw jobs working
  cases setWorker_working working with
  | inl here => exact sourced raw jobs here.2
  | inr there => exact h.2 other raw jobs there.2

theorem sourced_leave {q : State ω ι J} (h : q.Sourced known covers) (worker : ω)
    {p : Phase ι J} (notWorking : ∀ raw jobs, p ≠ .working raw jobs) :
    (q.setWorker worker p).Sourced known covers :=
  sourced_setWorker h worker (fun raw jobs hp => absurd hp (notWorking raw jobs))

theorem sourced_advance {q : State ω ι J} (h : q.Sourced known covers) (worker : ω) :
    (q.advance worker).Sourced known covers := by
  simp only [advance]
  split
  · next raw job jobs working =>
      refine sourced_setWorker h worker ?_
      intro raw' jobs' hp j mem
      cases hp
      exact h.2 worker raw (job :: jobs) working j (List.mem_cons_of_mem job mem)
  · exact h

theorem sourced_apply (planned : ∀ raw : List ι, ∀ j ∈ plan raw, ∀ x, covers j x → x ∈ raw)
    {q : State ω ι J} (h : q.Sourced known covers) (a : Action ω ι)
    (pushed : ∀ x ∈ a.pushes, known x) : (q.apply plan a).Sourced known covers := by
  cases a with
  | push x =>
      refine ⟨?_, h.2⟩
      intro y mem
      cases List.mem_append.mp mem with
      | inl queued => exact h.1 y queued
      | inr last => exact pushed y last
  | acquire worker =>
      simp only [apply, acquire]
      split
      · exact sourced_leave h worker (p := .locked) (fun _ _ => by simp)
      · exact h
  | peek worker size =>
      simp only [apply, peek]
      split
      · split
        · exact sourced_leave h worker (fun _ _ => by simp)
        · refine sourced_setWorker h worker ?_
          intro raw jobs hp j mem x covered
          cases hp
          exact h.1 x (List.mem_of_mem_take (planned _ j mem x covered))
      · exact h
  | acknowledge worker =>
      simp only [apply, acknowledge]
      split
      · split
        · refine ⟨fun x mem => h.1 x (List.mem_of_mem_drop mem), ?_⟩
          exact (sourced_leave h worker (p := .releasing) (fun _ _ => by simp)).2
        · exact sourced_leave h worker (fun _ _ => by simp)
      · exact h
  | abandon worker =>
      simp only [apply, abandon]
      split
      · exact h
      · exact sourced_leave h worker (fun _ _ => by simp)
  | release worker =>
      simp only [apply, release]
      split
      · exact sourced_leave h worker (p := .idle) (fun _ _ => by simp)
      · exact h
  | crash worker => exact sourced_leave h worker (fun _ _ => by simp)
  | expire => exact h

end Coverage

section Fence

variable {worker : ω} {raw base grown : List ι} {q : State ω ι J}

theorem fenced_setWorker (h : q.Fenced worker raw base grown) (other : ω) {p : Phase ι J}
    (fenced : other = worker → ∀ copy jobs, p = .working copy jobs →
      ∃ jobs', q.workers worker = .working copy jobs') :
    (q.setWorker other p).Fenced worker raw base grown := by
  intro lock copy jobs working
  cases setWorker_working working with
  | inl here =>
      obtain ⟨jobs', before⟩ := fenced here.1.symm copy jobs here.2
      exact h lock copy jobs' before
  | inr there => exact h lock copy jobs there.2

theorem fenced_leave (h : q.Fenced worker raw base grown) (other : ω) {p : Phase ι J}
    (notWorking : ∀ raw jobs, p ≠ .working raw jobs) :
    (q.setWorker other p).Fenced worker raw base grown :=
  fenced_setWorker h other (fun _ copy jobs hp => absurd hp (notWorking copy jobs))

theorem fenced_advance (h : q.Fenced worker raw base grown) (other : ω) :
    (q.advance other).Fenced worker raw base grown := by
  simp only [advance]
  split
  · next copy job jobs working =>
      refine fenced_setWorker h other ?_
      rintro rfl copy' jobs' hp
      cases hp
      exact ⟨job :: jobs, working⟩
  · exact h

/-- Only a new copy, or a trim by the owner, ends the fence of a copy. -/
theorem fenced_apply (h : q.Fenced worker raw base grown) {a : Action ω ι}
    (noPeek : ∀ size, a ≠ .peek worker size) :
    (q.apply plan a).Fenced worker raw base (grown ++ a.pushes) := by
  cases a with
  | push x =>
      intro lock copy jobs working
      obtain ⟨rfl, items⟩ := h lock copy jobs working
      refine ⟨rfl, ?_⟩
      simp only [apply, push, items, Action.pushes, List.append_assoc]
  | acquire other =>
      simp only [apply, acquire, Action.pushes, List.append_nil]
      split
      · intro lock copy jobs working
        cases Option.some.inj lock
        simp [setWorker] at working
      · exact h
  | peek other size =>
      simp only [apply, peek, Action.pushes, List.append_nil]
      have other_ne : other ≠ worker := by
        rintro rfl
        exact noPeek size rfl
      split
      · split
        · exact fenced_leave h other (fun _ _ => by simp)
        · exact fenced_setWorker h other (fun same => absurd same other_ne)
      · exact h
  | acknowledge other =>
      simp only [apply, acknowledge, Action.pushes, List.append_nil]
      split
      · split
        · intro lock
          cases lock
        · exact fenced_leave h other (fun _ _ => by simp)
      · exact h
  | abandon other =>
      simp only [apply, abandon, Action.pushes, List.append_nil]
      split
      · exact h
      · exact fenced_leave h other (fun _ _ => by simp)
  | release other =>
      simp only [apply, release, Action.pushes, List.append_nil]
      split
      · intro lock
        refine fenced_leave h other (p := .idle) (fun _ _ => by simp) ?_
        simp only at lock
        split at lock
        · cases lock
        · exact lock
      · exact h
  | crash other =>
      simp only [apply, Action.pushes, List.append_nil]
      exact fenced_leave h other (fun _ _ => by simp)
  | expire =>
      intro lock
      cases lock

theorem fenced_peek (items : q.items = base) (lock : q.workers worker = .locked) (size : Nat) :
    (q.peek plan worker size).Fenced worker (base.take size) base [] := by
  intro _ copy jobs working
  simp only [peek, lock] at working ⊢
  split at working
  · simp [setWorker] at working
  · next some_items =>
      simp only [setWorker, Function.update_self, Phase.working.injEq] at working
      simp only [some_items, Bool.false_eq_true, if_false, List.append_nil]
      exact ⟨by rw [← working.1, items], items⟩

/-- The trim of a fenced copy drops what was copied and nothing that came after. -/
theorem fenced_acknowledge (h : q.Fenced worker raw base grown) (short : raw.length ≤ base.length) :
    (q.acknowledge worker).items = q.items ∨
      (q.acknowledge worker).items = base.drop raw.length ++ grown := by
  simp only [acknowledge]
  split
  · next copy working =>
      split
      · next lock =>
          obtain ⟨rfl, items⟩ := h lock copy [] working
          refine .inr ?_
          rw [items, List.drop_append_of_le_length short]
      · exact .inl rfl
  · exact .inl rfl

end Fence

end LeasedQueue
