import Gateway.Lib.Machine
import Mathlib.Algebra.BigOperators.Group.List.Basic
import Mathlib.Algebra.Order.BigOperators.Group.List
import Mathlib.Algebra.GroupWithZero.Nat
import Mathlib.Algebra.Order.Group.Nat

/-!
Bodies that talk to a shared state, many of them at a time.

A body asks for one thing after the other, and what it asks next depends on what it was
told. Many bodies are under way at once: their questions come in any order, and the state
changes in between. What a body makes sure of by itself, whatever it is told, then holds of
every run.
-/

universe u v w x

/-- A body. It ends with a result or an error, and a question that fails ends it as well. -/
inductive Dialogue (ε : Type u) (Q : Type v) (A : Q → Type w) (α : Type x) where
  | done (result : α)
  | fail (error : ε)
  | ask (question : Q) (resume : A question → Dialogue ε Q A α)

namespace Dialogue

section Bodies

variable {ε : Type u} {Q : Type v} {A : Q → Type w} {α β : Type x}

protected def bind : Dialogue ε Q A α → (α → Dialogue ε Q A β) → Dialogue ε Q A β
  | .done result, k => k result
  | .fail error, _ => .fail error
  | .ask question resume, k => .ask question fun a => (resume a).bind k

instance : Monad (Dialogue ε Q A) where
  pure := .done
  bind := Dialogue.bind

/-- A computation that asks for nothing. -/
def ofExcept : Except ε α → Dialogue ε Q A α
  | .ok result => .done result
  | .error error => .fail error

instance : MonadLift (Except ε) (Dialogue ε Q A) := ⟨ofExcept⟩

instance : MonadExceptOf ε (Dialogue ε Q A) where
  throw := .fail
  tryCatch body handle :=
    match body with
    | .fail error => handle error
    | body => body

def result? : Dialogue ε Q A α → Option α
  | .done result => some result
  | _ => none

/-- One question. -/
def call (question : Q) : Dialogue ε Q A (A question) := .ask question .done

/-- A question with what it was answered. -/
abbrev Utterance (ε : Type u) (Q : Type v) (A : Q → Type w) := (q : Q) × Except ε (A q)

/-- How a body goes on from an answer. -/
def resumed {question : Q} (resume : A question → Dialogue ε Q A α) :
    Except ε (A question) → Dialogue ε Q A α
  | .ok a => resume a
  | .error e => .fail e

/-- What is left of a body after what was said. -/
inductive Reaches (body : Dialogue ε Q A α) : List (Utterance ε Q A) → Dialogue ε Q A α → Prop where
  | start : Reaches body [] body
  | heard {said : List (Utterance ε Q A)} {q : Q} {resume : A q → Dialogue ε Q A α}
      (before : Reaches body said (.ask q resume)) (a : Except ε (A q)) :
      Reaches body (said ++ [⟨q, a⟩]) (resumed resume a)

/-- After what was said before, each question meets `asks` and each result meets `ends`,
whatever the answers are. -/
def Keeps (asks : List (Utterance ε Q A) → Q → Prop) (ends : List (Utterance ε Q A) → α → Prop) :
    List (Utterance ε Q A) → Dialogue ε Q A α → Prop
  | said, .done result => ends said result
  | _, .fail _ => True
  | said, .ask q resume => asks said q ∧ ∀ a, Keeps asks ends (said ++ [⟨q, .ok a⟩]) (resume a)

variable {asks asks' : List (Utterance ε Q A) → Q → Prop}

section Rules

variable {ends ends' : List (Utterance ε Q A) → α → Prop} {said : List (Utterance ε Q A)}

theorem keeps_call {q : Q} {ends : List (Utterance ε Q A) → A q → Prop} :
    Keeps asks ends said (call q) ↔ asks said q ∧ ∀ a, ends (said ++ [⟨q, .ok a⟩]) a := Iff.rfl

theorem keeps_lift {checked : Except ε α} :
    Keeps asks ends said (liftM checked : Dialogue ε Q A α) ↔
      ∀ result, checked = .ok result → ends said result := by
  cases checked with
  | ok result =>
      refine ⟨fun kept other same => ?_, fun kept => kept result rfl⟩
      cases same
      exact kept
  | error error =>
      refine ⟨fun _ other same => ?_, fun _ => trivial⟩
      cases same

theorem Keeps.mono {body : Dialogue ε Q A α} (kept : Keeps asks ends said body)
    (fewer : ∀ said q, asks said q → asks' said q)
    (weaker : ∀ said result, ends said result → ends' said result) :
    Keeps asks' ends' said body := by
  induction body generalizing said with
  | done result => exact weaker said result kept
  | fail error => trivial
  | ask q resume ih => exact ⟨fewer said q kept.1, fun a => ih a (kept.2 a)⟩

theorem keeps_trivial (said : List (Utterance ε Q A)) (body : Dialogue ε Q A α) :
    Keeps (fun _ _ => True) (fun _ _ => True) said body := by
  induction body generalizing said with
  | done result => trivial
  | fail error => trivial
  | ask q resume ih => exact ⟨trivial, fun a => ih a _⟩

/-- The rule of composition: the second part starts from what the first one makes sure of. -/
theorem keeps_bind {body : Dialogue ε Q A β} {k : β → Dialogue ε Q A α} :
    Keeps asks ends said (body >>= k) ↔
      Keeps asks (fun said b => Keeps asks ends said (k b)) said body := by
  induction body generalizing said with
  | done b => exact Iff.rfl
  | fail error => exact Iff.rfl
  | ask q resume ih => exact and_congr_right fun _ => forall_congr' fun a => ih a

/-- A question and what follows it. -/
theorem keeps_call_bind {q : Q} {A : Q → Type x} {asks : List (Utterance ε Q A) → Q → Prop}
    {ends : List (Utterance ε Q A) → α → Prop} {said : List (Utterance ε Q A)}
    {k : A q → Dialogue ε Q A α} (asked : asks said q)
    (next : ∀ a, Keeps asks ends (said ++ [⟨q, .ok a⟩]) (k a)) :
    Keeps asks ends said (call q >>= k) :=
  keeps_bind.mpr (keeps_call.mpr ⟨asked, next⟩)

/-- A check and what follows it. -/
theorem keeps_lift_bind {checked : Except ε β} {k : β → Dialogue ε Q A α}
    (next : ∀ b, checked = .ok b → Keeps asks ends said (k b)) :
    Keeps asks ends said (liftM checked >>= k) :=
  keeps_bind.mpr (keeps_lift.mpr next)

theorem Reaches.keeps {body rest : Dialogue ε Q A α} (reached : Reaches body said rest)
    (kept : Keeps asks ends [] body) : Keeps asks ends said rest := by
  induction reached with
  | start => exact kept
  | heard before a ih =>
      cases a with
      | ok a => exact ih.2 a
      | error e => trivial

/-- Where a body asks for one thing only in exchange for another, it does so less often. -/
theorem Reaches.countP_le {body rest : Dialogue ε Q A α} {p paid : Utterance ε Q A → Bool}
    (reached : Reaches body said rest)
    (kept : Keeps (fun said q => ∀ a, p ⟨q, a⟩ = true → said.countP p < said.countP paid) ends []
      body) : said.countP p ≤ said.countP paid := by
  induction reached with
  | start => exact Nat.le_refl _
  | @heard said q resume before a ih =>
      have asked := (before.keeps kept).1 a
      rw [List.countP_append, List.countP_append, List.countP_singleton, List.countP_singleton]
      by_cases counts : p ⟨q, a⟩ = true
      · have room := asked counts
        rw [if_pos counts]
        omega
      · rw [if_neg counts]
        omega

end Rules

end Bodies

section Service

variable (σ : Type*) (C : Type*) (W : Type*) (O : Type*) (ε : Type u) (Q : Type v)
  (A : Q → Type w) (α : Type x)

/-- A state that answers questions. `W` is what the outside world adds to an answer, and `O` what
else may happen to the state. -/
structure Service where
  body : C → Dialogue ε Q A α
  answer : σ → W → (q : Q) → Except ε (A q) × σ
  outside : σ → O → σ

variable {σ C W O ε Q A α}

/-- A call that is under way, or over, with what was said in it. -/
structure Conversation (service : Service σ C W O ε Q A α) where
  call : C
  said : List (Utterance ε Q A)
  rest : Dialogue ε Q A α
  reached : Reaches (service.body call) said rest

structure System (service : Service σ C W O ε Q A α) where
  state : σ
  conversations : List (Conversation service)

inductive Action (C : Type*) (W : Type*) (O : Type*) where
  | begin (call : C)
  | answer (number : Nat) (world : W)
  | outside (change : O)

/-- What is said in a step, in which conversation. -/
structure Remark (C : Type*) (ε : Type u) (Q : Type v) (A : Q → Type w) where
  number : Nat
  call : C
  utterance : Utterance ε Q A

variable (service : Service σ C W O ε Q A α)

def Conversation.begin (call : C) : Conversation service := ⟨call, [], service.body call, .start⟩

variable {service}

def Conversation.hear (c : Conversation service) {q : Q} {resume : A q → Dialogue ε Q A α}
    (asked : c.rest = .ask q resume) (a : Except ε (A q)) : Conversation service where
  call := c.call
  said := c.said ++ [⟨q, a⟩]
  rest := resumed resume a
  reached := .heard (asked ▸ c.reached) a

/-- A question is answered by the state as it is then. -/
def answered (sys : System service) (number : Nat) (world : W) :
    System service × Option (Remark C ε Q A) :=
  match sys.conversations[number]? with
  | none => (sys, none)
  | some c =>
      match asked : c.rest with
      | .ask q _ =>
          (⟨(service.answer sys.state world q).2,
              sys.conversations.set number (c.hear asked (service.answer sys.state world q).1)⟩,
            some ⟨number, c.call, ⟨q, (service.answer sys.state world q).1⟩⟩)
      | _ => (sys, none)

variable (service)

def step (sys : System service) :
    Action C W O → System service × Option (Remark C ε Q A)
  | .begin call => (⟨sys.state, sys.conversations ++ [.begin service call]⟩, none)
  | .answer number world => answered sys number world
  | .outside change => (⟨service.outside sys.state change, sys.conversations⟩, none)

abbrev System.initial (s : σ) : System service := ⟨s, []⟩

abbrev System.Event (service : Service σ C W O ε Q A α) :=
  Machine.Event (System service) (Action C W O) (Option (Remark C ε Q A))

end Service

section Runs

variable {σ C W O : Type*} {ε : Type u} {Q : Type v} {A : Q → Type w} {α : Type x}
  {service : Service σ C W O ε Q A α}

/-- All that the answer to a question changes. -/
theorem answered_cases (sys : System service) (number : Nat) (world : W) :
    answered sys number world = (sys, none) ∨
      ∃ (c : Conversation service) (q : Q) (resume : A q → Dialogue ε Q A α)
        (asked : c.rest = .ask q resume), sys.conversations[number]? = some c ∧
          answered sys number world =
            (⟨(service.answer sys.state world q).2,
                sys.conversations.set number
                  (c.hear asked (service.answer sys.state world q).1)⟩,
              some ⟨number, c.call, ⟨q, (service.answer sys.state world q).1⟩⟩) := by
  rw [answered]
  split
  · exact .inl rfl
  next c found =>
  split
  next q resume asked => exact .inr ⟨c, q, resume, asked, found, rfl⟩
  · exact .inl rfl

/-- What was said so far in a conversation. -/
def System.saidIn (sys : System service) (number : Nat) : List (Utterance ε Q A) :=
  (sys.conversations[number]?).elim [] Conversation.said

/-- What is said in an event, if it belongs to the conversation. -/
def utteranceIn (number : Nat) (e : System.Event service) : Option (Utterance ε Q A) :=
  (e.reply.filter fun r => r.number == number).map Remark.utterance

theorem saidIn_step (sys : System service) (action : Action C W O) (number : Nat) :
    (step service sys action).1.saidIn number = sys.saidIn number ++
      (utteranceIn number ⟨sys, action, (step service sys action).2,
        (step service sys action).1⟩).toList := by
  cases action with
  | begin call =>
      change ((sys.conversations ++ [Conversation.begin service call])[number]?).elim []
        Conversation.said = (sys.conversations[number]?).elim [] Conversation.said ++ []
      rw [List.append_nil, List.getElem?_append]
      split
      · rfl
      · next beyond =>
          rw [List.getElem?_eq_none (Nat.le_of_not_lt beyond), List.getElem?_singleton]
          split
          · rfl
          · rfl
  | outside change => exact (List.append_nil _).symm
  | answer other world =>
      change (answered sys other world).1.saidIn number = _
      cases answered_cases sys other world with
      | inl still =>
          rw [step, still]
          exact (List.append_nil _).symm
      | inr heard =>
          obtain ⟨c, q, resume, asked, found, effect⟩ := heard
          rw [step, effect, utteranceIn, System.saidIn, System.saidIn, List.getElem?_set,
            Option.filter_some]
          by_cases same : other = number
          · rw [if_pos same, ← same, found, if_pos (List.getElem?_eq_some_iff.mp found).1,
              if_pos (beq_self_eq_true other)]
            rfl
          · rw [if_neg same, if_neg (mt eq_of_beq same)]
            exact (List.append_nil _).symm

/-- What was said in a conversation is what the events of the run say in it. -/
theorem saidIn_run (sys : System service) (actions : List (Action C W O)) (number : Nat) :
    (Machine.run (step service) sys actions).saidIn number =
      sys.saidIn number ++ (Machine.trace (step service) sys actions).filterMap
        (utteranceIn number) := by
  induction actions generalizing sys with
  | nil => exact (List.append_nil _).symm
  | cons action actions ih =>
      rw [Machine.run_cons, ih, saidIn_step, Machine.trace, List.filterMap_cons, List.append_assoc]
      cases utteranceIn number ⟨sys, action, (step service sys action).2,
        (step service sys action).1⟩ <;> rfl

/-- The call of a conversation, if it has begun. -/
def System.callOf (sys : System service) (number : Nat) : Option C :=
  (sys.conversations[number]?).map Conversation.call

/-- The result of a conversation that has come to one. -/
def System.resultOf (sys : System service) (number : Nat) : Option α :=
  (sys.conversations[number]?).bind fun c => c.rest.result?

theorem callOf_step {sys : System service} {number : Nat} {call : C}
    (begun : sys.callOf number = some call) (action : Action C W O) :
    (step service sys action).1.callOf number = some call := by
  obtain ⟨c, found, rfl⟩ := Option.map_eq_some_iff.mp begun
  cases action with
  | begin call =>
      rw [step, System.callOf, List.getElem?_append_left (List.getElem?_eq_some_iff.mp found).1]
      exact begun
  | outside change => exact begun
  | answer other world =>
      rw [step]
      cases answered_cases sys other world with
      | inl still =>
          rw [still]
          exact begun
      | inr heard =>
          obtain ⟨c', q, resume, asked, found', effect⟩ := heard
          rw [effect, System.callOf, List.getElem?_set]
          split
          · next same =>
              rw [if_pos (List.getElem?_eq_some_iff.mp found').1]
              rw [same, found] at found'
              cases found'
              rfl
          · exact begun

theorem callOf_run {sys : System service} {number : Nat} {call : C}
    (begun : sys.callOf number = some call) (actions : List (Action C W O)) :
    (Machine.run (step service) sys actions).callOf number = some call :=
  Machine.run_invariant (I := fun sys : System service => sys.callOf number = some call)
    (fun _ action begun => callOf_step begun action) begun actions

/-- Where nothing is said, the state can only change from outside. -/
theorem step_silent {sys : System service} {action : Action C W O}
    (silent : (step service sys action).2 = none) :
    (step service sys action).1.state = sys.state ∨
      ∃ change, action = .outside change ∧
        (step service sys action).1.state = service.outside sys.state change := by
  cases action with
  | begin call => exact .inl rfl
  | outside change => exact .inr ⟨change, rfl, rfl⟩
  | answer number world =>
      rw [step] at silent ⊢
      cases answered_cases sys number world with
      | inl still => exact .inl (by rw [still])
      | inr heard =>
          obtain ⟨c, q, resume, asked, found, effect⟩ := heard
          rw [effect] at silent
          cases silent

section Asked

variable {asks : C → List (Utterance ε Q A) → Q → Prop}
  {ends : C → List (Utterance ε Q A) → α → Prop}

/-- A remark is the answer to a question that its body makes sure of. -/
theorem remark_asked (kept : ∀ call, Keeps (asks call) (ends call) [] (service.body call))
    {sys after : System service} {action : Action C W O} {r : Remark C ε Q A}
    (said : step service sys action = (after, some r)) :
    ∃ world, action = .answer r.number world ∧ sys.callOf r.number = some r.call ∧
      after.callOf r.number = some r.call ∧
      asks r.call (sys.saidIn r.number) r.utterance.1 ∧
        service.answer sys.state world r.utterance.1 = (r.utterance.2, after.state) := by
  cases action with
  | begin call => cases said
  | outside change => cases said
  | answer number world =>
      rw [step] at said
      cases answered_cases sys number world with
      | inl still =>
          rw [still] at said
          cases said
      | inr heard =>
          obtain ⟨c, q, resume, asked, found, effect⟩ := heard
          have begun : sys.callOf number = some c.call := by rw [System.callOf, found]; rfl
          have later := callOf_step begun (.answer number world)
          rw [effect] at said
          rw [step, effect] at later
          cases said
          have holds := c.reached.keeps (kept c.call)
          rw [asked] at holds
          rw [System.saidIn, found]
          exact ⟨world, rfl, begun, later, holds.1, rfl⟩

/-- The state changes by an answer to such a question, or from outside. -/
theorem step_state (kept : ∀ call, Keeps (asks call) (ends call) [] (service.body call))
    (sys : System service) (action : Action C W O) :
    (step service sys action).1.state = sys.state ∨
      (∃ change, action = .outside change ∧
        (step service sys action).1.state = service.outside sys.state change) ∨
      ∃ number call world q, sys.callOf number = some call ∧ asks call (sys.saidIn number) q ∧
        (step service sys action).1.state = (service.answer sys.state world q).2 := by
  cases said : (step service sys action).2 with
  | some r =>
      have effect : step service sys action = ((step service sys action).1, some r) :=
        Prod.ext rfl said
      obtain ⟨world, rfl, begun, -, asked, answer⟩ := remark_asked kept effect
      exact .inr (.inr ⟨r.number, r.call, world, r.utterance.1, begun, asked,
        (congrArg Prod.snd answer).symm⟩)
  | none =>
      cases step_silent said with
      | inl same => exact .inl same
      | inr outside => exact .inr (.inl outside)

/-- What a body makes sure of when it ends. -/
theorem ends_of_result (kept : ∀ call, Keeps (asks call) (ends call) [] (service.body call))
    {sys : System service} {number : Nat} {call : C} {result : α}
    (begun : sys.callOf number = some call) (done : sys.resultOf number = some result) :
    ends call (sys.saidIn number) result := by
  obtain ⟨c, found, rfl⟩ := Option.map_eq_some_iff.mp begun
  rw [System.resultOf, found, Option.bind_some] at done
  have holds := c.reached.keeps (kept c.call)
  rw [System.saidIn, found]
  cases rest : c.rest with
  | done result' =>
      rw [rest] at done holds
      cases done
      exact holds
  | fail error =>
      rw [rest] at done
      cases done
  | ask q resume =>
      rw [rest] at done
      cases done

end Asked

/-- What was said in a conversation of a run was said in an event of the run. -/
theorem exists_event {s : σ} {actions : List (Action C W O)} {number : Nat} {call : C}
    (begun : (Machine.run (step service) (.initial service s) actions).callOf number = some call)
    {u : Utterance ε Q A}
    (said : u ∈ (Machine.run (step service) (.initial service s) actions).saidIn number) :
    ∃ e ∈ Machine.trace (step service) (.initial service s) actions,
      e.reply = some ⟨number, call, u⟩ := by
  rw [saidIn_run, System.saidIn] at said
  change u ∈ [] ++ _ at said
  rw [List.nil_append] at said
  obtain ⟨e, mem, heard⟩ := List.mem_filterMap.mp said
  refine ⟨e, mem, ?_⟩
  obtain ⟨r, kept, rfl⟩ := Option.map_eq_some_iff.mp heard
  obtain ⟨reply, same⟩ := Option.filter_eq_some_iff.mp kept
  have effect := (Machine.mem_trace mem).1
  rw [reply] at effect
  obtain ⟨-, -, -, later, -, -⟩ := @remark_asked _ _ _ _ _ _ _ _ service (fun _ _ _ => True)
    (fun _ _ _ => True) (fun call => keeps_trivial _ _) _ _ _ _ effect
  obtain ⟨post, final⟩ := Machine.run_of_mem_trace mem
  have known := callOf_run later post
  rw [← final, eq_of_beq same, begun] at known
  rw [reply, ← eq_of_beq same, Option.some.inj known]

section Counts

variable {p paid : C → Utterance ε Q A → Bool}

/-- How often such a thing was said. -/
def System.count (p : C → Utterance ε Q A → Bool) (sys : System service) : Nat :=
  (sys.conversations.map fun c => c.said.countP (p c.call)).sum

/-- Such a thing is said in the event. -/
def tells (p : C → Utterance ε Q A → Bool) (e : System.Event service) : Bool :=
  e.reply.any fun r => p r.call r.utterance

theorem count_step (sys : System service) (action : Action C W O) :
    (step service sys action).1.count p = sys.count p +
      if tells p ⟨sys, action, (step service sys action).2, (step service sys action).1⟩ = true
        then 1 else 0 := by
  cases action with
  | begin call =>
      rw [step, System.count, List.map_append, List.sum_append]
      rfl
  | outside change => rfl
  | answer number world =>
      rw [step]
      cases answered_cases sys number world with
      | inl still =>
          rw [still]
          rfl
      | inr heard =>
          obtain ⟨c, q, resume, asked, found, effect⟩ := heard
          obtain ⟨bound, here⟩ := List.getElem?_eq_some_iff.mp found
          have counts : number < (sys.conversations.map fun c => c.said.countP (p c.call)).length := by
            rwa [List.length_map]
          have before := List.sum_set (sys.conversations.map fun c => c.said.countP (p c.call)) number
            (c.said.countP (p c.call))
          have unchanged : (sys.conversations.map fun c => c.said.countP (p c.call)).set number
              (c.said.countP (p c.call)) =
                sys.conversations.map fun c => c.said.countP (p c.call) := by
            rw [← List.map_set, ← here, List.set_getElem_self]
          rw [effect, System.count, System.count, tells, Option.any_some, List.map_set, List.sum_set]
          rw [unchanged] at before
          have heard : ((c.hear asked (service.answer sys.state world q).1).said.countP
              (p (c.hear asked (service.answer sys.state world q).1).call)) =
                c.said.countP (p c.call) +
                  if p c.call ⟨q, (service.answer sys.state world q).1⟩ = true then 1 else 0 := by
            rw [← List.countP_singleton, ← List.countP_append]
            rfl
          rw [before, if_pos counts, if_pos counts, heard]
          dsimp only
          omega

theorem count_run (sys : System service) (actions : List (Action C W O)) :
    (Machine.run (step service) sys actions).count p = sys.count p +
      (Machine.trace (step service) sys actions).countP (tells p) := by
  induction actions generalizing sys with
  | nil => rfl
  | cons action actions ih =>
      rw [Machine.run_cons, ih, count_step, Machine.trace, List.countP_cons]
      omega

/-- Where each body asks for one thing only in exchange for another, no run has more of the first
than of the second. -/
theorem countP_le_countP {ends : C → List (Utterance ε Q A) → α → Prop}
    (kept : ∀ call, Keeps (fun said q => ∀ a, p call ⟨q, a⟩ = true →
      said.countP (p call) < said.countP (paid call)) (ends call) [] (service.body call))
    (s : σ) (actions : List (Action C W O)) :
    (Machine.trace (step service) (.initial service s) actions).countP (tells p) ≤
      (Machine.trace (step service) (.initial service s) actions).countP (tells paid) := by
  have first := count_run (p := p) (System.initial service s) actions
  have second := count_run (p := paid) (System.initial service s) actions
  have empty (p : C → Utterance ε Q A → Bool) : (System.initial service s).count p = 0 := rfl
  have le : (Machine.run (step service) (.initial service s) actions).count p ≤
      (Machine.run (step service) (.initial service s) actions).count paid := by
    apply List.sum_le_sum
    intro c _
    exact c.reached.countP_le (kept c.call)
  rw [empty] at first second
  omega

end Counts

end Runs

end Dialogue
