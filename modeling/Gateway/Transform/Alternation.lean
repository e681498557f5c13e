import Gateway.Transform.Authority
import Mathlib.Data.List.Chain

/-!
Turns of a converted conversation.

Both shapes want the roles to alternate. A turn is merged into the one before it
when their roles are the same, so what is left of the messages are their blocks,
in order, under roles that change from turn to turn.
-/

namespace Gateway

open Fallible

/-- Turns under known roles, no two in a row under one, and none of them empty. -/
structure Alternates (roles : List String) (turns : List Turn) : Prop where
  known : ∀ turn ∈ turns, turn.role ∈ roles
  apart : turns.IsChain fun turn next => turn.role ≠ next.role
  filled : ∀ turn ∈ turns, turn.blocks ≠ []

theorem alternates_nil (roles : List String) : Alternates roles [] :=
  ⟨by simp, List.isChain_nil, by simp⟩

section Append

variable {roles : List String} {turns : List Turn} {role : String} {blocks : List Json}

/-- A turn that follows one under another role stays a turn of its own. -/
theorem Alternates.concat (alternates : Alternates roles turns) (known : role ∈ roles)
    (filled : blocks ≠ []) (apart : ∀ last ∈ turns.getLast?, last.role ≠ role) :
    Alternates roles (turns ++ [⟨role, blocks⟩]) := by
  refine ⟨?_, ?_, ?_⟩
  · intro turn mem
    rcases List.mem_append.mp mem with before | last
    · exact alternates.known turn before
    · rw [List.mem_singleton.mp last]
      exact known
  · refine List.isChain_append.mpr ⟨alternates.apart, List.isChain_singleton _, ?_⟩
    intro last hlast next hnext
    cases hnext
    exact apart last hlast
  · intro turn mem
    rcases List.mem_append.mp mem with before | last
    · exact alternates.filled turn before
    · rw [List.mem_singleton.mp last]
      exact filled

theorem Alternates.init {last : Turn} (alternates : Alternates roles (turns ++ [last])) :
    Alternates roles turns ∧ ∀ before ∈ turns.getLast?, before.role ≠ last.role := by
  obtain ⟨chain, -, apart⟩ := List.isChain_append.mp alternates.apart
  refine ⟨⟨?_, chain, ?_⟩, fun before mem => apart before mem last rfl⟩
  · exact fun turn mem => alternates.known turn (List.mem_append_left _ mem)
  · exact fun turn mem => alternates.filled turn (List.mem_append_left _ mem)

/-- Blocks that are appended leave the roles alternating. -/
theorem Alternates.append (alternates : Alternates roles turns) (known : role ∈ roles)
    (filled : blocks ≠ []) : Alternates roles (appendMessage turns role blocks) := by
  rw [appendMessage]
  cases last : turns.getLast? with
  | none =>
      refine alternates.concat known filled fun turn mem => ?_
      rw [last] at mem
      cases mem
  | some turn =>
      obtain ⟨init, rfl⟩ := List.getLast?_eq_some_iff.mp last
      by_cases same : turn.role = role
      · obtain ⟨before, apart⟩ := alternates.init
        have merged : turn.blocks ++ blocks ≠ [] := List.append_ne_nil_of_right_ne_nil _ filled
        simp only [if_pos same, List.dropLast_concat]
        exact before.concat known merged (same ▸ apart)
      · simp only [if_neg same]
        refine alternates.concat known filled fun turn' mem => ?_
        rw [last] at mem
        cases mem
        exact same

theorem blocks_appendMessage (turns : List Turn) (role : String) (blocks : List Json) :
    (appendMessage turns role blocks).flatMap Turn.blocks =
      turns.flatMap Turn.blocks ++ blocks :=
  @flatMap_appendMessage Json (fun _ blocks => blocks) (fun _ _ _ => rfl) turns role blocks

/-- What a message adds, if it adds anything. -/
theorem Alternates.add (alternates : Alternates roles turns) (known : role ∈ roles)
    (blocks : List Json) :
    Alternates roles (if blocks.isEmpty then turns else appendMessage turns role blocks) ∧
      (if blocks.isEmpty then turns else appendMessage turns role blocks).flatMap Turn.blocks =
        turns.flatMap Turn.blocks ++ blocks := by
  by_cases empty : blocks = []
  · subst empty
    exact ⟨alternates, (List.append_nil _).symm⟩
  · rw [if_neg (by simpa using empty)]
    exact ⟨alternates.append known empty, blocks_appendMessage turns role blocks⟩

end Append

/-- The messages that are no instructions. -/
def spokenTurns (messages : List Json) : List Json :=
  messages.filter fun raw => roleOf raw ∉ systemRoles

theorem spokenTurns_cons (raw : Json) (rest : List Json) :
    spokenTurns (raw :: rest) =
      if roleOf raw ∈ systemRoles then spokenTurns rest else raw :: spokenTurns rest := by
  rw [spokenTurns, List.filter_cons]
  by_cases system : roleOf raw ∈ systemRoles
  · rw [if_pos system, if_neg (by simpa using system), spokenTurns]
  · rw [if_neg system, if_pos (by simpa using system), spokenTurns]

section Anthropic

variable {limits : JsonLimits} {draw : Nat → String}

/-- The blocks of one message, and how many ids have been drawn behind it. -/
def anthropicBlocksOf (limits : JsonLimits) (draw : Nat → String) (drawn : Nat) (raw : Json) :
    List Json × Nat :=
  if roleOf raw = "tool" ∨ roleOf raw = "function" then ([toolResultBlock raw], drawn)
  else
    let uses := toolUseBlocks limits draw drawn (callsOf raw)
    (toAnthropicBlocks (contentOf raw) ++ uses.1, uses.2)

def anthropicBlocks (limits : JsonLimits) (draw : Nat → String) : Nat → List Json → List Json
  | _, [] => []
  | drawn, raw :: rest =>
      (anthropicBlocksOf limits draw drawn raw).1 ++
        anthropicBlocks limits draw (anthropicBlocksOf limits draw drawn raw).2 rest

/-- What the turns are after a message. -/
theorem alternates_addOpenaiMessage {draft next : AnthropicDraft} {raw : Json}
    (alternates : Alternates ["user", "assistant"] draft.messages)
    (h : addOpenaiMessage limits draw draft raw = .ok next) :
    Alternates ["user", "assistant"] next.messages ∧
      ((roleOf raw ∈ systemRoles ∧ next.messages = draft.messages ∧ next.drawn = draft.drawn) ∨
        (roleOf raw ∉ systemRoles ∧
          next.messages.flatMap Turn.blocks = draft.messages.flatMap Turn.blocks ++
            (anthropicBlocksOf limits draw draft.drawn raw).1 ∧
          next.drawn = (anthropicBlocksOf limits draw draft.drawn raw).2)) := by
  rcases addOpenaiMessage_cases h with ⟨role, rfl⟩ | ⟨role, rfl⟩ | ⟨role, _, rfl, rfl⟩
  · exact ⟨alternates, .inl ⟨by simpa [systemRoles] using role, rfl, rfl⟩⟩
  · have spoken : roleOf raw ∉ systemRoles := by
      rcases role with role | role <;> simp [role, systemRoles]
    refine ⟨alternates.append (by simp) (by simp), .inr ⟨spoken, ?_⟩⟩
    rw [anthropicBlocksOf, if_pos role]
    exact ⟨blocks_appendMessage .., rfl⟩
  · have spoken : roleOf raw ∉ systemRoles := by
      rcases role with role | role <;> simp [role, systemRoles]
    have ofTurn : ¬ (roleOf raw = "tool" ∨ roleOf raw = "function") := by
      rcases role with role | role <;> simp [role]
    obtain ⟨still, joined⟩ := alternates.add (by simpa using role)
      (toAnthropicBlocks (contentOf raw) ++ (toolUseBlocks limits draw draft.drawn (callsOf raw)).1)
    refine ⟨still, .inr ⟨spoken, ?_⟩⟩
    rw [anthropicBlocksOf, if_neg ofTurn]
    exact ⟨joined, rfl⟩

theorem alternates_openaiMessages {messages : List Json} {draft last : AnthropicDraft}
    (alternates : Alternates ["user", "assistant"] draft.messages)
    (h : messages.foldlM (addOpenaiMessage limits draw) draft = .ok last) :
    Alternates ["user", "assistant"] last.messages ∧
      last.messages.flatMap Turn.blocks = draft.messages.flatMap Turn.blocks ++
        anthropicBlocks limits draw draft.drawn (spokenTurns messages) := by
  induction messages generalizing draft with
  | nil =>
      cases h
      exact ⟨alternates, (List.append_nil _).symm⟩
  | cons raw rest ih =>
      obtain ⟨next, first, later⟩ := foldlM_cons_ok h
      obtain ⟨still, added⟩ := alternates_addOpenaiMessage alternates first
      obtain ⟨atEnd, joined⟩ := ih still later
      refine ⟨atEnd, ?_⟩
      rw [joined, spokenTurns_cons]
      rcases added with ⟨system, same, drawn⟩ | ⟨spoken, blocks, drawn⟩
      · rw [if_pos system, same, drawn]
      · rw [if_neg spoken, anthropicBlocks, blocks, drawn, List.append_assoc]

end Anthropic

section Gemini

variable {limits : JsonLimits}

/-- The parts of one message. -/
def geminiPartsOf (limits : JsonLimits) (raw : Json) : List Json :=
  if roleOf raw = "tool" ∨ roleOf raw = "function" then [functionResponsePart raw]
  else toGeminiParts (contentOf raw) ++ (callsOf raw).map (functionCallPart limits)

theorem alternates_addGeminiMessage {draft next : GeminiDraft} {raw : Json}
    (alternates : Alternates ["user", "model"] draft.contents)
    (h : addGeminiMessage limits draft raw = .ok next) :
    Alternates ["user", "model"] next.contents ∧
      ((roleOf raw ∈ systemRoles ∧ next.contents = draft.contents) ∨
        (roleOf raw ∉ systemRoles ∧ next.contents.flatMap Turn.blocks =
          draft.contents.flatMap Turn.blocks ++ geminiPartsOf limits raw)) := by
  rcases addGeminiMessage_cases h with ⟨role, rfl⟩ | ⟨role, rfl⟩ | ⟨role, _, rfl, rfl⟩
  · exact ⟨alternates, .inl ⟨by simpa [systemRoles] using role, rfl⟩⟩
  · have spoken : roleOf raw ∉ systemRoles := by
      rcases role with role | role <;> simp [role, systemRoles]
    refine ⟨alternates.append (by simp) (by simp), .inr ⟨spoken, ?_⟩⟩
    rw [geminiPartsOf, if_pos role]
    exact blocks_appendMessage ..
  · have spoken : roleOf raw ∉ systemRoles := by
      rcases role with role | role <;> simp [role, systemRoles]
    have ofTurn : ¬ (roleOf raw = "tool" ∨ roleOf raw = "function") := by
      rcases role with role | role <;> simp [role]
    have known : geminiRole (roleOf raw) ∈ ["user", "model"] := by
      rcases role with role | role <;> simp [role, geminiRole]
    obtain ⟨still, joined⟩ := alternates.add known
      (toGeminiParts (contentOf raw) ++ (callsOf raw).map (functionCallPart limits))
    refine ⟨still, .inr ⟨spoken, ?_⟩⟩
    rw [geminiPartsOf, if_neg ofTurn]
    exact joined

theorem alternates_geminiMessages {messages : List Json} {draft last : GeminiDraft}
    (alternates : Alternates ["user", "model"] draft.contents)
    (h : messages.foldlM (addGeminiMessage limits) draft = .ok last) :
    Alternates ["user", "model"] last.contents ∧
      last.contents.flatMap Turn.blocks = draft.contents.flatMap Turn.blocks ++
        (spokenTurns messages).flatMap (geminiPartsOf limits) := by
  induction messages generalizing draft with
  | nil =>
      cases h
      exact ⟨alternates, (List.append_nil _).symm⟩
  | cons raw rest ih =>
      obtain ⟨next, first, later⟩ := foldlM_cons_ok h
      obtain ⟨still, added⟩ := alternates_addGeminiMessage alternates first
      obtain ⟨atEnd, joined⟩ := ih still later
      refine ⟨atEnd, ?_⟩
      rw [joined, spokenTurns_cons]
      rcases added with ⟨system, same⟩ | ⟨spoken, parts⟩
      · rw [if_pos system, same]
      · rw [if_neg spoken, List.flatMap_cons, parts, List.append_assoc]

end Gemini

/-- The messages of a request that Anthropic is sent. -/
def AnthropicConverses (config : TransformConfig) (draw : Nat → String) (body request : Record) :
    Prop :=
  ∃ turns, request.field "messages" = some (.arr (turns.map Turn.toMessage)) ∧
    Alternates ["user", "assistant"] turns ∧
    turns.flatMap Turn.blocks = anthropicBlocks config.limits draw 0
      (spokenTurns ((messagesOf body).map Json.cloneSanitized))

def GeminiConverses (config : TransformConfig) (body request : Record) : Prop :=
  ∃ turns, request.field "contents" = some (.arr (turns.map Turn.toContent)) ∧
    Alternates ["user", "model"] turns ∧
    turns.flatMap Turn.blocks =
      (spokenTurns ((messagesOf body).map Json.cloneSanitized)).flatMap
        (geminiPartsOf config.limits)

theorem anthropic_converses {config : TransformConfig} {draw : Nat → String} {body out : Record}
    (h : openaiToAnthropicRequest config draw body = .ok out) :
    AnthropicConverses config draw body out := by
  obtain ⟨input, sanitized, h⟩ := bind_ok h
  obtain ⟨draft, loop, h⟩ := bind_ok h
  cases h
  obtain ⟨-, rfl⟩ := sanitizeParsed_ok sanitized
  obtain ⟨alternates, joined⟩ := alternates_openaiMessages (alternates_nil _) loop
  rw [← messagesOf, messagesOf_clone] at joined
  exact ⟨draft.messages, by simp [anthropicRequest, Record.field_cons], alternates, joined⟩

theorem gemini_converses {config : TransformConfig} {body out : Record}
    (h : openaiToGeminiRequest config body = .ok out) : GeminiConverses config body out := by
  obtain ⟨input, sanitized, h⟩ := bind_ok h
  obtain ⟨draft, loop, h⟩ := bind_ok h
  cases h
  obtain ⟨-, rfl⟩ := sanitizeParsed_ok sanitized
  obtain ⟨alternates, joined⟩ := alternates_geminiMessages (alternates_nil _) loop
  rw [← messagesOf, messagesOf_clone] at joined
  exact ⟨draft.contents, by simp [geminiRequest, Record.field_cons], alternates, joined⟩

/-- Of every conversation that is accepted, both shapes alternate and keep all blocks in order. -/
theorem conversations_alternate (config : TransformConfig) (draw : Nat → String) (body : Record) :
    (∀ request, openaiToAnthropicRequest config draw body = .ok request →
      AnthropicConverses config draw body request) ∧
    ∀ request, openaiToGeminiRequest config body = .ok request →
      GeminiConverses config body request :=
  ⟨fun _ accepted => anthropic_converses accepted, fun _ accepted => gemini_converses accepted⟩

/-- Two turns of the user, with an instruction between them, are sent as one. -/
example : (openaiToAnthropicRequest ⟨⟨64, 100⟩, false⟩ (fun _ => "") [("messages", .arr [
      .obj [("role", .str "user"), ("content", .str "a")],
      .obj [("role", .str "system"), ("content", .str "b")],
      .obj [("role", .str "tool"), ("tool_call_id", .str "c"),
        ("content", .str "d")]])]).toOption.bind (fun request => request.field "messages") =
    some (.arr [.obj [("role", .str "user"), ("content", .arr [textBlock "a",
      .obj [("type", .str "tool_result"), ("tool_use_id", .str "c"),
        ("content", .str "d")]])]]) := by
  rfl

end Gateway
