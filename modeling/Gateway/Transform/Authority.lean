import Gateway.Lib.Fallible
import Gateway.Transform.GeminiRequest

/-!
System authority over a conversion.

Roles are structure: the instructions of the converted request are told from the
instructions of the one that came in, so no text of another turn can add to them.
-/

namespace Gateway

open Fallible

def systemRoles : List String := ["system", "developer"]

def messagesOf (body : Record) : List Json := asArray (body.field "messages")

def contentsOf (body : Record) : List Json := asArray (body.field "contents")

def systemTurns (messages : List Json) : List Json :=
  messages.filter fun raw => roleOf raw ∈ systemRoles

/-- Requests with the same roles in order and the same system and developer messages. -/
def SameInstructions (a b : Record) : Prop :=
  List.Forall₂ (fun x y => roleOf x = roleOf y ∧ (roleOf x ∈ systemRoles → x = y))
    (messagesOf a) (messagesOf b)

theorem systemTurns_congr {xs ys : List Json}
    (same : List.Forall₂ (fun x y => roleOf x = roleOf y ∧ (roleOf x ∈ systemRoles → x = y)) xs ys) :
    systemTurns xs = systemTurns ys := by
  induction same with
  | nil => rfl
  | @cons x y xs ys head _ ih =>
      obtain ⟨roles, equal⟩ := head
      rw [systemTurns] at ih
      by_cases system : roleOf x ∈ systemRoles
      · rw [systemTurns, systemTurns, ← equal system]
        simp only [List.filter_cons, system, decide_true, if_true, ih, systemTurns]
      · have other : roleOf y ∉ systemRoles := roles ▸ system
        simp only [systemTurns, List.filter_cons, system, other, decide_false, Bool.false_eq_true,
          if_false, ih]

theorem SameInstructions.systemTurns_eq {a b : Record} (same : SameInstructions a b) :
    systemTurns (messagesOf a) = systemTurns (messagesOf b) :=
  systemTurns_congr same

section Sanitized

theorem messagesOf_clone (body : Record) :
    messagesOf (Json.cloneFields body) = (messagesOf body).map Json.cloneSanitized := by
  rw [messagesOf, field_cloneFields body (by decide), asArray_clone, messagesOf]

theorem contentsOf_clone (body : Record) :
    contentsOf (Json.cloneFields body) = (contentsOf body).map Json.cloneSanitized := by
  rw [contentsOf, field_cloneFields body (by decide), asArray_clone, contentsOf]

@[simp]
theorem roleOf_clone (raw : Json) : roleOf raw.cloneSanitized = roleOf raw := by
  rw [roleOf, field_cloneSanitized raw (by decide), asString_clone, roleOf]

theorem systemTurns_clone (messages : List Json) :
    systemTurns (messages.map Json.cloneSanitized) =
      (systemTurns messages).map Json.cloneSanitized := by
  simp [systemTurns, List.filter_map, Function.comp_def]

end Sanitized

/-- What only some turns contribute is contributed by those turns. -/
theorem flatMap_ite_nil {α : Type*} (p : Json → Prop) [DecidablePred p] (blocks : Json → List α)
    (messages : List Json) :
    messages.flatMap (fun raw => if p raw then blocks raw else []) =
      (messages.filter fun raw => p raw).flatMap blocks := by
  induction messages with
  | nil => rfl
  | cons raw rest ih => by_cases holds : p raw <;> simp [holds, ih]

section FromOpenai

variable {limits : JsonLimits} {draw : Nat → String} {raw : Json}

theorem system_addOpenaiMessage {draft next : AnthropicDraft}
    (h : addOpenaiMessage limits draw draft raw = .ok next) :
    next.system = draft.system ++
      (if roleOf raw ∈ systemRoles then toAnthropicBlocks (contentOf raw) else []) := by
  rcases addOpenaiMessage_cases h with ⟨role, rfl⟩ | ⟨role, rfl⟩ | ⟨role, _, _, rfl⟩
  · rw [if_pos (by simpa [systemRoles] using role)]
  · have other : roleOf raw ∉ systemRoles := by
      rcases role with role | role <;> simp [role, systemRoles]
    simp [other]
  · have other : roleOf raw ∉ systemRoles := by
      rcases role with role | role <;> simp [role, systemRoles]
    simp [other]

theorem systemParts_addGeminiMessage {draft next : GeminiDraft}
    (h : addGeminiMessage limits draft raw = .ok next) :
    next.systemParts = draft.systemParts ++
      (if roleOf raw ∈ systemRoles then toGeminiParts (contentOf raw) else []) := by
  rcases addGeminiMessage_cases h with ⟨role, rfl⟩ | ⟨role, rfl⟩ | ⟨role, _, _, rfl⟩
  · rw [if_pos (by simpa [systemRoles] using role)]
  · have other : roleOf raw ∉ systemRoles := by
      rcases role with role | role <;> simp [role, systemRoles]
    simp [other]
  · have other : roleOf raw ∉ systemRoles := by
      rcases role with role | role <;> simp [role, systemRoles]
    simp [other]

/-- The system field of a list of system turns. -/
def systemField (turns : List Json) : Option Json :=
  let blocks := (turns.map Json.cloneSanitized).flatMap fun raw => toAnthropicBlocks (contentOf raw)
  if blocks.isEmpty then none else some (.arr blocks)

def systemInstruction (turns : List Json) : Option Json :=
  let parts := (turns.map Json.cloneSanitized).flatMap fun raw => toGeminiParts (contentOf raw)
  if parts.isEmpty then none else some (.obj [("parts", .arr parts)])

theorem system_openaiToAnthropicRequest {config : TransformConfig} {body out : Record}
    (h : openaiToAnthropicRequest config draw body = .ok out) :
    out.field "system" = systemField (systemTurns (messagesOf body)) := by
  obtain ⟨input, sanitized, h⟩ := bind_ok h
  obtain ⟨draft, loop, h⟩ := bind_ok h
  cases h
  obtain ⟨-, rfl⟩ := sanitizeParsed_ok sanitized
  have collected := foldlM_collects AnthropicDraft.system
    (fun _ _ _ stepped => system_addOpenaiMessage stepped) loop
  rw [← messagesOf, messagesOf_clone, flatMap_ite_nil, ← systemTurns,
    systemTurns_clone, List.nil_append] at collected
  simp [anthropicRequest, Record.field_append, Record.field_cons, collected, systemField]

theorem systemInstruction_openaiToGeminiRequest {config : TransformConfig} {body out : Record}
    (h : openaiToGeminiRequest config body = .ok out) :
    out.field "systemInstruction" = systemInstruction (systemTurns (messagesOf body)) := by
  obtain ⟨input, sanitized, h⟩ := bind_ok h
  obtain ⟨draft, loop, h⟩ := bind_ok h
  cases h
  obtain ⟨-, rfl⟩ := sanitizeParsed_ok sanitized
  have collected := foldlM_collects GeminiDraft.systemParts
    (fun _ _ _ stepped => systemParts_addGeminiMessage stepped) loop
  rw [← messagesOf, messagesOf_clone, flatMap_ite_nil, ← systemTurns,
    systemTurns_clone, List.nil_append] at collected
  simp [geminiRequest, Record.field_append, Record.field_cons, collected, systemInstruction]

end FromOpenai

section ToOpenai

variable {draw : Nat → String} {raw : Json} {draft next : List Json × Nat}

@[simp]
theorem roleOf_cons (role : String) (fields : Record) :
    roleOf (.obj (("role", .str role) :: fields)) = role := by
  simp [roleOf, asRecord, asString, Record.field_cons]

theorem systemTurns_append (xs ys : List Json) :
    systemTurns (xs ++ ys) = systemTurns xs ++ systemTurns ys :=
  List.filter_append ..

theorem systemTurns_eq_nil {messages : List Json}
    (other : ∀ m ∈ messages, roleOf m ∉ systemRoles) : systemTurns messages = [] := by
  simpa [systemTurns, List.filter_eq_nil_iff] using other

theorem roleOf_turnMessage {role : String} {parts : AnthropicParts} {m : Json}
    (mem : m ∈ turnMessage role parts) : roleOf m = role := by
  rw [turnMessage] at mem
  split at mem
  · exact absurd mem List.not_mem_nil
  · rw [List.mem_singleton.mp mem]
    exact roleOf_cons role _

theorem roleOf_contentMessage {role : String} {parts : GeminiParts} {m : Json}
    (mem : m ∈ contentMessage role parts) : roleOf m = "assistant" ∨ roleOf m = "user" := by
  rw [contentMessage] at mem
  split at mem
  · exact absurd mem List.not_mem_nil
  · rw [List.mem_singleton.mp mem, List.cons_append, roleOf_cons]
    exact (em (role = "model")).imp (fun h => if_pos h) (fun h => if_neg h)

theorem roleOf_geminiToolMessage {m : Json} (h : geminiToolMessage raw = some m) :
    roleOf m = "tool" := by
  obtain ⟨response, -, rfl⟩ := Option.map_eq_some_iff.mp h
  exact roleOf_cons "tool" _

/-- The turns of a conversation add no system message. -/
theorem systemTurns_addAnthropicTurn (h : addAnthropicTurn draw draft raw = .ok next) :
    systemTurns next.1 = systemTurns draft.1 := by
  obtain ⟨known, messages, -⟩ := addAnthropicTurn_ok h
  rw [messages, systemTurns_append, List.append_right_eq_self]
  refine systemTurns_eq_nil fun m mem => ?_
  rcases List.mem_append.mp mem with result | turn
  · obtain ⟨block, -, rfl⟩ := List.mem_map.mp result
    rw [toolMessage, roleOf_cons]
    decide
  · rw [roleOf_turnMessage turn]
    rcases known with role | role <;> rw [role] <;> decide

theorem systemTurns_addGeminiContent (h : addGeminiContent draw draft raw = .ok next) :
    systemTurns next.1 = systemTurns draft.1 := by
  obtain ⟨-, messages, -⟩ := addGeminiContent_ok h
  rw [messages, systemTurns_append, List.append_right_eq_self]
  refine systemTurns_eq_nil fun m mem => ?_
  rcases List.mem_append.mp mem with result | turn
  · obtain ⟨part, -, response⟩ := List.mem_filterMap.mp result
    rw [roleOf_geminiToolMessage response]
    decide
  · rcases roleOf_contentMessage turn with role | role <;> rw [role] <;> decide

theorem systemTurns_foldlM {step : List Json × Nat → Json → Except Thrown (List Json × Nat)}
    (keeps : ∀ draft raw next, step draft raw = .ok next → systemTurns next.1 = systemTurns draft.1)
    {turns : List Json} (h : turns.foldlM step draft = .ok next) :
    systemTurns next.1 = systemTurns draft.1 := by
  exact foldlM_induct (motive := fun _ next => systemTurns next.1 = systemTurns draft.1) rfl
    (fun _ mid raw next so stepped => (keeps mid raw next stepped).trans so) h

theorem systemTurns_anthropicToOpenaiRequest {config : TransformConfig} {body out : Record}
    (h : anthropicToOpenaiRequest config draw body = .ok out) :
    systemTurns (messagesOf out) =
      systemTurns (anthropicSystem ((body.field "system").map Json.cloneSanitized)) := by
  obtain ⟨input, sanitized, h⟩ := bind_ok h
  obtain ⟨draft, loop, h⟩ := bind_ok h
  cases h
  obtain ⟨-, rfl⟩ := sanitizeParsed_ok sanitized
  have kept := systemTurns_foldlM (fun _ _ _ stepped => systemTurns_addAnthropicTurn stepped) loop
  rw [field_cloneFields body (by decide)] at kept
  simpa [messagesOf, openaiRequest, Record.field_append, Record.field_cons, asArray] using kept

theorem systemTurns_geminiToOpenaiRequest {config : TransformConfig} {body out : Record}
    {model : String} (h : geminiToOpenaiRequest config draw body model = .ok out) :
    systemTurns (messagesOf out) =
      systemTurns (geminiSystem ((body.field "systemInstruction").map Json.cloneSanitized)) := by
  obtain ⟨input, sanitized, h⟩ := bind_ok h
  obtain ⟨draft, loop, h⟩ := bind_ok h
  cases h
  obtain ⟨-, rfl⟩ := sanitizeParsed_ok sanitized
  have kept := systemTurns_foldlM (fun _ _ _ stepped => systemTurns_addGeminiContent stepped) loop
  rw [field_cloneFields body (by decide)] at kept
  simpa [messagesOf, openaiRequestOfGemini, Record.field_append, Record.field_cons, asArray]
    using kept

end ToOpenai

section Roles

/-- A conversion that fails on every request with a turn of an unknown role. -/
def RejectsUnknown (known : List String) (turnsOf : Record → List Json)
    (convert : (Nat → String) → Record → Except Thrown Record) : Prop :=
  ∀ draw body, (∃ raw ∈ turnsOf body, roleOf raw ∉ known) →
    ∃ thrown, convert draw body = .error thrown

theorem rejectsUnknown_of_known {known : List String} {turnsOf : Record → List Json}
    {convert : (Nat → String) → Record → Except Thrown Record}
    (requires : ∀ draw body out, convert draw body = .ok out →
      ∀ raw ∈ turnsOf body, roleOf raw ∈ known) :
    RejectsUnknown known turnsOf convert := by
  intro draw body ⟨raw, mem, unknown⟩
  cases converted : convert draw body with
  | error thrown => exact ⟨thrown, rfl⟩
  | ok out => exact absurd (requires draw body out converted raw mem) unknown

theorem roles_of_clone {known : List String} {turns : List Json}
    (all : ∀ raw ∈ turns.map Json.cloneSanitized, roleOf raw ∈ known) :
    ∀ raw ∈ turns, roleOf raw ∈ known := by
  intro raw mem
  simpa using all raw.cloneSanitized (List.mem_map_of_mem mem)

variable (config : TransformConfig)

theorem openaiToAnthropicRequest_rejects :
    RejectsUnknown openaiRoles messagesOf (openaiToAnthropicRequest config) := by
  refine rejectsUnknown_of_known fun draw body out h => ?_
  obtain ⟨input, sanitized, h⟩ := bind_ok h
  obtain ⟨draft, loop, -⟩ := bind_ok h
  obtain ⟨-, rfl⟩ := sanitizeParsed_ok sanitized
  rw [← messagesOf, messagesOf_clone] at loop
  refine roles_of_clone (foldlM_requires (fun draft raw next stepped => ?_) loop)
  rcases addOpenaiMessage_cases stepped with ⟨role | role, -⟩ | ⟨role | role, -⟩ | ⟨role | role, -⟩
    <;> rw [role] <;> decide

theorem openaiToGeminiRequest_rejects :
    RejectsUnknown openaiRoles messagesOf (fun _ => openaiToGeminiRequest config) := by
  refine rejectsUnknown_of_known fun draw body out h => ?_
  obtain ⟨input, sanitized, h⟩ := bind_ok h
  obtain ⟨draft, loop, -⟩ := bind_ok h
  obtain ⟨-, rfl⟩ := sanitizeParsed_ok sanitized
  rw [← messagesOf, messagesOf_clone] at loop
  refine roles_of_clone (foldlM_requires (fun draft raw next stepped => ?_) loop)
  rcases addGeminiMessage_cases stepped with ⟨role | role, -⟩ | ⟨role | role, -⟩ | ⟨role | role, -⟩
    <;> rw [role] <;> decide

theorem anthropicToOpenaiRequest_rejects :
    RejectsUnknown ["user", "assistant"] messagesOf (anthropicToOpenaiRequest config) := by
  refine rejectsUnknown_of_known fun draw body out h => ?_
  obtain ⟨input, sanitized, h⟩ := bind_ok h
  obtain ⟨draft, loop, -⟩ := bind_ok h
  obtain ⟨-, rfl⟩ := sanitizeParsed_ok sanitized
  rw [← messagesOf, messagesOf_clone] at loop
  refine roles_of_clone (foldlM_requires (fun draft raw next stepped => ?_) loop)
  rcases (addAnthropicTurn_ok stepped).1 with role | role <;> rw [role] <;> decide

/-- A role that is missing, empty or no string is taken as the user's. -/
theorem geminiToOpenaiRequest_rejects (model : String) :
    RejectsUnknown ["", "user", "model"] contentsOf
      (fun draw body => geminiToOpenaiRequest config draw body model) := by
  refine rejectsUnknown_of_known fun draw body out h => ?_
  obtain ⟨input, sanitized, h⟩ := bind_ok h
  obtain ⟨draft, loop, -⟩ := bind_ok h
  obtain ⟨-, rfl⟩ := sanitizeParsed_ok sanitized
  rw [← contentsOf, contentsOf_clone] at loop
  refine roles_of_clone (foldlM_requires (fun draft raw next stepped => ?_) loop)
  rcases (addGeminiContent_ok stepped).1 with role | role | role <;> rw [role] <;> decide

end Roles

end Gateway
