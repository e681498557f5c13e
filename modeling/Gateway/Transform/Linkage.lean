import Gateway.Transform.Authority

/-!
How a tool result is linked to the call it answers.

OpenAI links them by the id of the call and Gemini by the name of the function. A
converted result keeps what it was linked by, so it is linked in the other shape
only where the id of the call is the name of its function.
-/

namespace Gateway

open Fallible

def toolRoles : List String := ["tool", "function"]

def callId (call : Json) : String := asString ((asRecord (some call)).field "id")

def callName (call : Json) : String :=
  asString ((asRecord ((asRecord (some call)).field "function")).field "name")

def toolCallId (raw : Json) : String := asString ((asRecord (some raw)).field "tool_call_id")

def toolTurns (messages : List Json) : List Json :=
  messages.filter fun raw => roleOf raw ∈ toolRoles

/-- The name under a key of a part. -/
def nameUnder (key : String) (part : Json) : Option String :=
  ((asRecord (some part)).field key).map fun value => asString ((asRecord (some value)).field "name")

def allParts (body : Record) : List Json :=
  (contentsOf body).flatMap fun content => asArray (partsOf content)

/-- The names of the calls of a Gemini request, in order. -/
def functionCallNames (body : Record) : List String :=
  (allParts body).filterMap (nameUnder "functionCall")

def functionResponseNames (body : Record) : List String :=
  (allParts body).filterMap (nameUnder "functionResponse")

section Clone

@[simp]
theorem asString_field_clone (raw : Json) (key : String) (kept : key ∉ forbiddenKeys) :
    asString ((asRecord (some raw.cloneSanitized)).field key) =
      asString ((asRecord (some raw)).field key) := by
  rw [field_cloneSanitized raw kept, asString_clone]

theorem responseName_clone (raw : Json) : responseName raw.cloneSanitized = responseName raw := by
  simp only [responseName, asString_field_clone raw "name" (by decide),
    asString_field_clone raw "tool_call_id" (by decide)]

theorem callName_clone (call : Json) : callName call.cloneSanitized = callName call := by
  rw [callName, field_cloneSanitized call (by decide), asRecord_clone,
    field_cloneFields _ (by decide), asString_clone, callName]

theorem callsOf_clone (raw : Json) :
    callsOf raw.cloneSanitized = (callsOf raw).map Json.cloneSanitized := by
  rw [callsOf, callsOf, roleOf_clone, field_cloneSanitized raw (by decide), asArray_clone]
  split <;> rfl

end Clone

section ToGemini

variable {limits : JsonLimits} {draft next : GeminiDraft} {raw : Json}

/-- The parts that a message of the conversation adds. -/
def messageParts (limits : JsonLimits) (raw : Json) : List Json :=
  if roleOf raw ∈ systemRoles then []
  else if roleOf raw ∈ toolRoles then [functionResponsePart raw]
  else toGeminiParts (contentOf raw) ++ (callsOf raw).map (functionCallPart limits)

theorem blocks_addGeminiMessage (h : addGeminiMessage limits draft raw = .ok next) :
    next.contents.flatMap Turn.blocks =
      draft.contents.flatMap Turn.blocks ++ messageParts limits raw := by
  have merged := @flatMap_appendMessage Json (fun _ blocks => blocks) (fun _ _ _ => rfl)
  rcases addGeminiMessage_cases h with ⟨role, rfl⟩ | ⟨role, rfl⟩ | ⟨role, parts, is_parts, rfl⟩
  · have system : roleOf raw ∈ systemRoles := by simpa [systemRoles] using role
    simp [messageParts, system]
  · have other : roleOf raw ∉ systemRoles := by
      rcases role with role | role <;> simp [role, systemRoles]
    have result : roleOf raw ∈ toolRoles := by simpa [toolRoles] using role
    rw [messageParts, if_neg other, if_pos result]
    exact merged draft.contents "user" [functionResponsePart raw]
  · have other : roleOf raw ∉ systemRoles ∧ roleOf raw ∉ toolRoles := by
      rcases role with role | role <;> simp [role, systemRoles, toolRoles]
    rw [messageParts, if_neg other.1, if_neg other.2, ← is_parts]
    by_cases none : parts = []
    · simp [none]
    · rw [if_neg (by simpa using none)]
      exact merged draft.contents (geminiRole (roleOf raw)) parts

/-- The parts of the request are those of its messages, in their order. -/
theorem parts_openaiToGeminiRequest {config : TransformConfig} {body out : Record}
    (h : openaiToGeminiRequest config body = .ok out) :
    allParts out = ((messagesOf body).map Json.cloneSanitized).flatMap (messageParts config.limits) := by
  obtain ⟨input, sanitized, h⟩ := bind_ok h
  obtain ⟨draft, loop, h⟩ := bind_ok h
  cases h
  obtain ⟨-, rfl⟩ := sanitizeParsed_ok sanitized
  rw [← messagesOf, messagesOf_clone] at loop
  have collected := foldlM_collects (fun draft => draft.contents.flatMap Turn.blocks)
    (fun _ _ _ stepped => blocks_addGeminiMessage stepped) loop
  have parts (turn : Turn) : asArray (partsOf turn.toContent) = turn.blocks := by
    simp [partsOf, Turn.toContent, asRecord, asArray, Record.field_cons]
  have contents : contentsOf (geminiRequest config (Json.cloneFields body) draft) =
      draft.contents.map Turn.toContent := by
    simp [contentsOf, geminiRequest, Record.field_cons, asArray]
  rw [allParts, contents, List.flatMap_map]
  simpa [parts] using collected

/-- A part of a content is text or an image. -/
theorem nameUnder_toGeminiParts {key : String}
    (linked : key = "functionCall" ∨ key = "functionResponse")
    (content : Option Json) : (toGeminiParts content).filterMap (nameUnder key) = [] := by
  have plain (field : String) (value : Json) (other : key ≠ field) :
      nameUnder key (.obj [(field, value)]) = none := by
    simp [nameUnder, asRecord, Record.field_cons, other]
  have distinct : key ≠ "text" ∧ key ≠ "inlineData" ∧ key ≠ "fileData" := by
    rcases linked with rfl | rfl <;> decide
  have items (raw part : Json) (h : geminiPart raw = some part) : nameUnder key part = none := by
    simp only [geminiPart] at h
    split at h
    · split at h <;> cases h
      exact plain _ _ distinct.1
    · split at h
      · cases h
      · split at h <;> cases h
        · exact plain _ _ distinct.2.1
        · exact plain _ _ distinct.2.2
    · cases h
  rw [List.filterMap_eq_nil_iff]
  intro part mem
  rw [toGeminiParts.eq_def] at mem
  split at mem
  · split at mem
    · exact absurd mem List.not_mem_nil
    · rw [List.mem_singleton.mp mem]
      exact plain _ _ distinct.1
  · obtain ⟨raw, -, part_of⟩ := List.mem_filterMap.mp mem
    exact items raw part part_of

theorem responseNames_messageParts (limits : JsonLimits) (raw : Json) :
    (messageParts limits raw).filterMap (nameUnder "functionResponse") =
      if roleOf raw ∈ toolRoles then [responseName raw] else [] := by
  have calls : ((callsOf raw).map (functionCallPart limits)).filterMap
      (nameUnder "functionResponse") = [] := by
    simp [List.filterMap_eq_nil_iff, nameUnder, functionCallPart, asRecord, Record.field_cons]
  rw [messageParts]
  split
  · next system =>
      have other : roleOf raw ∉ toolRoles := by
        rcases (by simpa [systemRoles] using system) with role | role <;> simp [role, toolRoles]
      rw [if_neg other, List.filterMap_nil]
  · split
    · simp [nameUnder, functionResponsePart, asRecord, asString, Record.field_cons]
    · rw [List.filterMap_append, nameUnder_toGeminiParts (.inr rfl), calls, List.append_nil]

theorem callNames_messageParts (limits : JsonLimits) (raw : Json) :
    (messageParts limits raw).filterMap (nameUnder "functionCall") =
      (callsOf raw).map callName := by
  have calls : ((callsOf raw).map (functionCallPart limits)).filterMap (nameUnder "functionCall") =
      (callsOf raw).map callName := by
    simp [List.filterMap_map, Function.comp_def, nameUnder, functionCallPart, asRecord, asString,
      Record.field_cons, callName]
  have silent (role : String) (is_role : roleOf raw = role) (other : role ≠ "assistant") :
      (callsOf raw).map callName = [] := by
    rw [callsOf, if_neg (is_role ▸ other), List.map_nil]
  rw [messageParts]
  split
  · next system =>
      rcases (by simpa [systemRoles] using system) with role | role <;>
        rw [silent _ role (by decide), List.filterMap_nil]
  · split
    · next result =>
        rcases (by simpa [toolRoles] using result) with role | role <;>
          rw [silent _ role (by decide)] <;>
          simp [nameUnder, functionResponsePart, asRecord, Record.field_cons]
    · rw [List.filterMap_append, nameUnder_toGeminiParts (.inl rfl), calls, List.nil_append]

/-- A converted result has the name of its message, else the id it answers. -/
theorem functionResponseNames_openaiToGeminiRequest {config : TransformConfig} {body out : Record}
    (h : openaiToGeminiRequest config body = .ok out) :
    functionResponseNames out = (toolTurns (messagesOf body)).map responseName := by
  rw [functionResponseNames, parts_openaiToGeminiRequest h, List.filterMap_flatMap]
  simp only [responseNames_messageParts, List.flatMap_map, roleOf_clone, responseName_clone]
  rw [flatMap_ite_nil, ← toolTurns, ← List.map_eq_flatMap]

theorem functionCallNames_openaiToGeminiRequest {config : TransformConfig} {body out : Record}
    (h : openaiToGeminiRequest config body = .ok out) :
    functionCallNames out = ((messagesOf body).flatMap callsOf).map callName := by
  rw [functionCallNames, parts_openaiToGeminiRequest h, List.filterMap_flatMap]
  simp only [callNames_messageParts, List.flatMap_map, callsOf_clone, List.map_map,
    Function.comp_def, callName_clone, List.map_flatMap]

/-- The `j`-th result answers the `k`-th call, which comes before it and has the id it names. -/
def Answers (messages : List Json) (j k : Nat) : Prop :=
  ∃ before message after call, messages = before ++ message :: after ∧
    roleOf message ∈ toolRoles ∧ (toolTurns before).length = j ∧
    (before.flatMap callsOf)[k]? = some call ∧ callId call ≠ "" ∧
    callId call = toolCallId message

/-- Every converted result has the name of the converted call it answers. -/
def ResultsNamed (body out : Record) : Prop :=
  ∀ j k, Answers (messagesOf body) j k → ∃ name,
    (functionResponseNames out)[j]? = some name ∧ (functionCallNames out)[k]? = some name

/-- Every result names the function of the call whose id it has. -/
def NamesItsCall (messages : List Json) : Prop :=
  ∀ before message after, messages = before ++ message :: after → roleOf message ∈ toolRoles →
    ∀ call ∈ before.flatMap callsOf, callId call ≠ "" → callId call = toolCallId message →
      responseName message = callName call

theorem toolTurns_getElem (before after : List Json) {message : Json}
    (result : roleOf message ∈ toolRoles) :
    (toolTurns (before ++ message :: after))[(toolTurns before).length]? = some message := by
  rw [toolTurns, List.filter_append, List.filter_cons, if_pos (by simpa using result), ← toolTurns]
  simp

theorem resultsNamed_iff {config : TransformConfig} {body out : Record}
    (h : openaiToGeminiRequest config body = .ok out) :
    ResultsNamed body out ↔ NamesItsCall (messagesOf body) := by
  rw [ResultsNamed, functionResponseNames_openaiToGeminiRequest h,
    functionCallNames_openaiToGeminiRequest h]
  -- the two names that an answer compares
  have response {before : List Json} {message : Json} {after : List Json}
      (split : messagesOf body = before ++ message :: after)
      (result : roleOf message ∈ toolRoles) :
      ((toolTurns (messagesOf body)).map responseName)[(toolTurns before).length]? =
        some (responseName message) := by
    rw [split, List.getElem?_map, toolTurns_getElem before after result, Option.map_some]
  have called {before : List Json} {message : Json} {after : List Json} {k : Nat} {call : Json}
      (split : messagesOf body = before ++ message :: after)
      (at_k : (before.flatMap callsOf)[k]? = some call) :
      (((messagesOf body).flatMap callsOf).map callName)[k]? = some (callName call) := by
    obtain ⟨lt, -⟩ := List.getElem?_eq_some_iff.mp at_k
    rw [split, List.flatMap_append, List.getElem?_map, List.getElem?_append_left lt, at_k,
      Option.map_some]
  constructor
  · intro named before message after split result call mem given same
    obtain ⟨k, lt, at_k⟩ := List.mem_iff_getElem.mp mem
    have at_k : (before.flatMap callsOf)[k]? = some call :=
      List.getElem?_eq_some_iff.mpr ⟨lt, at_k⟩
    obtain ⟨name, responded, calls⟩ := named _ k
      ⟨before, message, after, call, split, result, rfl, at_k, given, same⟩
    rw [response split result] at responded
    rw [called split at_k] at calls
    exact Option.some.inj (responded.trans calls.symm)
  · rintro names j k ⟨before, message, after, call, split, result, rfl, at_k, given, same⟩
    refine ⟨callName call, ?_, called split at_k⟩
    rw [response split result, names before message after split result call
      (List.mem_of_getElem? at_k) given same]

end ToGemini

section ToOpenai

/-- `randomHex(8)` -/
def IsRandomHex (s : String) : Prop :=
  s.length = 16 ∧ ∀ c ∈ s.toList, c ∈ "0123456789abcdef".toList

instance (s : String) : Decidable (IsRandomHex s) :=
  @instDecidableAnd _ _ _ (List.decidableBAll _ _)

/-- Every tool message has the id of an earlier call of its function. -/
def ResultsLinked (messages : List Json) : Prop :=
  ∀ before message after, messages = before ++ message :: after → roleOf message = "tool" →
    ∃ call ∈ before.flatMap callsOf, callId call = toolCallId message ∧
      callName call = asString ((asRecord (some message)).field "name")

/-- The function responses of a Gemini request. -/
def functionResponses (body : Record) : List Json :=
  (allParts body).filterMap fun part => (asRecord (some part)).field "functionResponse"

variable {draw : Nat → String} {raw : Json} {draft next : List Json × Nat}

theorem callsOf_contentMessage {role : String} {parts : GeminiParts} {message call : Json}
    (mem : message ∈ contentMessage role parts) (calls : call ∈ callsOf message) :
    ∃ record ∈ parts.toolCalls, call = .obj record := by
  have listed : asArray (Record.field (toolCallsField parts.toolCalls) "tool_calls") =
      parts.toolCalls.map Json.obj := by
    cases toolCalls : parts.toolCalls with
    | nil => rfl
    | cons first rest => rfl
  rw [contentMessage] at mem
  split at mem
  · exact absurd mem List.not_mem_nil
  · rw [List.mem_singleton.mp mem, callsOf] at calls
    split at calls
    · have of_parts : call ∈ parts.toolCalls.map Json.obj := by
        rw [← listed]
        simpa [asRecord, Record.field_cons] using calls
      obtain ⟨record, mem, rfl⟩ := List.mem_map.mp of_parts
      exact ⟨record, mem, rfl⟩
    · exact absurd calls List.not_mem_nil

/-- The id of every call is one that was drawn. -/
theorem callId_addGeminiContent (h : addGeminiContent draw draft raw = .ok next)
    (drawn : ∀ call ∈ draft.1.flatMap callsOf, ∃ n, callId call = "call_" ++ draw n) :
    ∀ call ∈ next.1.flatMap callsOf, ∃ n, callId call = "call_" ++ draw n := by
  obtain ⟨-, messages, -⟩ := addGeminiContent_ok h
  intro call mem
  rw [messages, List.flatMap_append, List.mem_append] at mem
  refine mem.elim (drawn call) fun added => ?_
  obtain ⟨message, of_turn, calls⟩ := List.mem_flatMap.mp added
  rcases List.mem_append.mp of_turn with result | turn
  · obtain ⟨part, -, response⟩ := List.mem_filterMap.mp result
    rw [callsOf, roleOf_geminiToolMessage response, if_neg (by decide)] at calls
    exact absurd calls List.not_mem_nil
  · obtain ⟨record, of_parts, rfl⟩ := callsOf_contentMessage turn calls
    rw [fromGeminiParts_eq] at of_parts
    obtain ⟨i, lt, rfl⟩ := List.mem_mapIdx.mp of_parts
    exact ⟨draft.2 + i, by
      simp [callId, geminiToolCall, requestOptions, asRecord, asString, Record.field_cons]⟩

/-- The tool messages a turn adds are those of its function responses. -/
theorem toolTurns_addGeminiContent (h : addGeminiContent draw draft raw = .ok next) :
    next.1.filter (fun m => roleOf m = "tool") = draft.1.filter (fun m => roleOf m = "tool") ++
      (asArray (partsOf raw)).filterMap geminiToolMessage := by
  obtain ⟨-, messages, -⟩ := addGeminiContent_ok h
  have results : ((asArray (partsOf raw)).filterMap geminiToolMessage).filter
      (fun m => roleOf m = "tool") = (asArray (partsOf raw)).filterMap geminiToolMessage := by
    rw [List.filter_eq_self]
    intro m mem
    obtain ⟨part, -, response⟩ := List.mem_filterMap.mp mem
    simp [roleOf_geminiToolMessage response]
  have turn (parts : GeminiParts) : (contentMessage (roleOf raw) parts).filter
      (fun m => roleOf m = "tool") = [] := by
    rw [List.filter_eq_nil_iff]
    intro m mem
    rcases roleOf_contentMessage mem with role | role <;> simp [role]
  rw [messages, List.filter_append, List.filter_append, results, turn, List.append_nil]

theorem geminiSystem_roles {system : Option Json} {m : Json} (mem : m ∈ geminiSystem system) :
    roleOf m = "system" := by
  simp only [geminiSystem] at mem
  split at mem
  · exact absurd mem List.not_mem_nil
  · rw [List.mem_singleton.mp mem]
    exact roleOf_cons "system" _

variable {config : TransformConfig} {body out : Record} {model : String}

theorem callIds_geminiToOpenaiRequest
    (h : geminiToOpenaiRequest config draw body model = .ok out) :
    ∀ call ∈ (messagesOf out).flatMap callsOf, ∃ n, callId call = "call_" ++ draw n := by
  obtain ⟨input, -, h⟩ := bind_ok h
  obtain ⟨draft, loop, h⟩ := bind_ok h
  cases h
  have start : ∀ call ∈ (geminiSystem (input.field "systemInstruction")).flatMap callsOf,
      ∃ n, callId call = "call_" ++ draw n := by
    intro call mem
    obtain ⟨message, system, calls⟩ := List.mem_flatMap.mp mem
    rw [callsOf, geminiSystem_roles system, if_neg (by decide)] at calls
    exact absurd calls List.not_mem_nil
  have run := foldlM_induct
    (motive := fun _ next => ∀ call ∈ next.1.flatMap callsOf, ∃ n, callId call = "call_" ++ draw n)
    start (fun _ _ _ _ drawn stepped => callId_addGeminiContent stepped drawn) loop
  simpa [messagesOf, openaiRequestOfGemini, Record.field_cons, asArray] using run

theorem toolTurns_geminiToOpenaiRequest
    (h : geminiToOpenaiRequest config draw body model = .ok out) :
    (messagesOf out).filter (fun m => roleOf m = "tool") =
      ((allParts body).map Json.cloneSanitized).filterMap geminiToolMessage := by
  obtain ⟨input, sanitized, h⟩ := bind_ok h
  obtain ⟨draft, loop, h⟩ := bind_ok h
  cases h
  obtain ⟨-, rfl⟩ := sanitizeParsed_ok sanitized
  rw [← contentsOf, contentsOf_clone] at loop
  have collected := foldlM_collects
    (fun draft : List Json × Nat => draft.1.filter fun m => roleOf m = "tool")
    (fun _ _ _ stepped => toolTurns_addGeminiContent stepped) loop
  have start (system : Option Json) :
      (geminiSystem system).filter (fun m => roleOf m = "tool") = [] := by
    rw [List.filter_eq_nil_iff]
    intro m mem
    simp [geminiSystem_roles mem]
  have parts (raw : Json) : asArray (partsOf raw.cloneSanitized) =
      (asArray (partsOf raw)).map Json.cloneSanitized := by
    rw [partsOf, field_cloneSanitized raw (by decide), asArray_clone, partsOf]
  rw [start, List.nil_append, List.flatMap_map] at collected
  simp only [parts] at collected
  rw [allParts, List.map_flatMap, List.filterMap_flatMap, ← collected]
  simp [messagesOf, openaiRequestOfGemini, Record.field_cons, asArray]

theorem addGeminiContent_returns
    (known : roleOf raw = "" ∨ roleOf raw = "user" ∨ roleOf raw = "model") :
    ∃ next, addGeminiContent draw draft raw = .ok next := by
  have taken : ¬(roleOf raw ≠ "" ∧ roleOf raw ≠ "user" ∧ roleOf raw ≠ "model") := by tauto
  simp only [addGeminiContent, geminiMessages, if_neg taken]
  exact ⟨_, rfl⟩

/-- Whether a request is converted does not depend on the ids that are drawn. -/
theorem geminiToOpenaiRequest_redraw (h : geminiToOpenaiRequest config draw body model = .ok out)
    (draw' : Nat → String) : ∃ out', geminiToOpenaiRequest config draw' body model = .ok out' := by
  obtain ⟨input, sanitized, h⟩ := bind_ok h
  obtain ⟨draft, loop, -⟩ := bind_ok h
  have known := foldlM_requires
    (p := fun raw => roleOf raw = "" ∨ roleOf raw = "user" ∨ roleOf raw = "model")
    (fun _ _ _ stepped => (addGeminiContent_ok stepped).1) loop
  obtain ⟨draft', loop'⟩ := foldlM_returns (addGeminiContent draw')
    (fun _ raw mem => addGeminiContent_returns (known raw mem))
    (geminiSystem (input.field "systemInstruction"), 0)
  rw [geminiToOpenaiRequest, sanitized]
  simp only [bind, Except.bind] at loop' ⊢
  rw [loop']
  exact ⟨_, rfl⟩

theorem toolMessages_eq_nil :
    ((allParts body).map Json.cloneSanitized).filterMap geminiToolMessage = [] ↔
      functionResponses body = [] := by
  have kept : "functionResponse" ∉ forbiddenKeys := by decide
  simp [List.filterMap_eq_nil_iff, functionResponses, geminiToolMessage,
    field_cloneSanitized _ kept]

/-- A linked tool message has an id that was drawn. -/
theorem toolCallId_drawn (h : geminiToOpenaiRequest config draw body model = .ok out)
    (linked : ResultsLinked (messagesOf out)) {message : Json} (mem : message ∈ messagesOf out)
    (tool : roleOf message = "tool") : ∃ n, toolCallId message = "call_" ++ draw n := by
  obtain ⟨before, after, split⟩ := List.append_of_mem mem
  obtain ⟨call, called, same, -⟩ := linked before message after split tool
  obtain ⟨n, id⟩ := callIds_geminiToOpenaiRequest h call (by
    rw [split, List.flatMap_append]
    exact List.mem_append_left _ called)
  exact ⟨n, same ▸ id⟩

/-- Ids are drawn anew for the calls and never for the results, so a request
that has results is linked by no more than chance. -/
theorem resultsLinked_iff (h : geminiToOpenaiRequest config draw body model = .ok out) :
    (∀ draw out, (∀ n, IsRandomHex (draw n)) →
      geminiToOpenaiRequest config draw body model = .ok out → ResultsLinked (messagesOf out)) ↔
    functionResponses body = [] := by
  constructor
  · intro linked
    by_contra answered
    obtain ⟨zeros, converted⟩ := geminiToOpenaiRequest_redraw h fun _ => "0000000000000000"
    obtain ⟨ones, converted'⟩ := geminiToOpenaiRequest_redraw h fun _ => "1111111111111111"
    have tools := toolTurns_geminiToOpenaiRequest converted
    have tools' := toolTurns_geminiToOpenaiRequest converted'
    obtain ⟨message, mem⟩ := List.exists_mem_of_ne_nil _ (mt toolMessages_eq_nil.mp answered)
    have first := mem
    rw [← tools, List.mem_filter] at first
    rw [← tools', List.mem_filter] at mem
    obtain ⟨_, zero⟩ := toolCallId_drawn converted
      (linked _ zeros (fun _ => by decide +kernel) converted) first.1 (by simpa using first.2)
    obtain ⟨_, one⟩ := toolCallId_drawn converted'
      (linked _ ones (fun _ => by decide +kernel) converted') mem.1 (by simpa using mem.2)
    exact absurd (zero.symm.trans one) (by decide +kernel)
  · intro unanswered draw out _ converted before message after split tool
    have tools := toolTurns_geminiToOpenaiRequest converted
    rw [toolMessages_eq_nil.mpr unanswered, List.filter_eq_nil_iff] at tools
    have mem : message ∈ messagesOf out := split ▸ by simp
    exact absurd (by simpa using tool) (tools message mem)

end ToOpenai

/-- Results stay linked to calls where every result names the function of the
call it answers, and on the way back only where there are no results. -/
theorem results_linked_iff (config : TransformConfig) :
    (∀ body out, openaiToGeminiRequest config body = .ok out →
      (ResultsNamed body out ↔ NamesItsCall (messagesOf body))) ∧
    (∀ body model, (∃ draw out, geminiToOpenaiRequest config draw body model = .ok out) →
      ((∀ draw out, (∀ n, IsRandomHex (draw n)) →
        geminiToOpenaiRequest config draw body model = .ok out → ResultsLinked (messagesOf out)) ↔
      functionResponses body = [])) :=
  ⟨fun _ _ => resultsNamed_iff, fun _ _ ⟨_, _, h⟩ => resultsLinked_iff h⟩

section Weather

def ordinaryLimits : TransformConfig := ⟨⟨64, 1000⟩, false⟩

def weatherCall : Json :=
  .obj [("role", .str "assistant"), ("tool_calls", .arr [.obj [("id", .str "call_1"),
    ("function", .obj [("name", .str "weather"), ("arguments", .str "")])]])]

/-- A call and its result, with the fields that are given for the result. -/
def weatherRequest (fields : Record) : Record :=
  [("messages", .arr [weatherCall, .obj ([("role", .str "tool"),
    ("tool_call_id", .str "call_1"), ("content", .str "sunny")] ++ fields)])]

def weatherContents : Record :=
  [("contents", .arr [
    .obj [("role", .str "model"),
      ("parts", .arr [.obj [("functionCall", .obj [("name", .str "weather")])]])],
    .obj [("role", .str "user"),
      ("parts", .arr [.obj [("functionResponse", .obj [("name", .str "weather")])]])]])]

theorem results_linked_weather :
    ∃ out, openaiToGeminiRequest ordinaryLimits (weatherRequest [("name", .str "weather")]) =
      .ok out ∧ ResultsNamed (weatherRequest [("name", .str "weather")]) out := by
  refine ⟨_, rfl, ((results_linked_iff ordinaryLimits).1 _ _ rfl).mpr ?_⟩
  intro before message after split tool call mem _ _
  cases before with
  | nil => exact absurd mem List.not_mem_nil
  | cons first rest =>
      cases rest with
      | nil =>
          cases split
          rw [List.mem_singleton.mp mem]
          rfl
      | cons second rest =>
          have lengths := congrArg List.length split
          simp [messagesOf, weatherRequest, asArray, Record.field_cons] at lengths

/-- A result without a name is kept under the id of its call, and one that has
the name of its call gets no id at all. -/
theorem weather_unlinked :
    (∃ out, openaiToGeminiRequest ordinaryLimits (weatherRequest []) = .ok out ∧
      ¬ResultsNamed (weatherRequest []) out) ∧
    ∃ out, geminiToOpenaiRequest ordinaryLimits (fun _ => "0000000000000000") weatherContents "m" =
      .ok out ∧ ¬ResultsLinked (messagesOf out) := by
  have converted : openaiToGeminiRequest ordinaryLimits (weatherRequest []) = .ok _ := rfl
  have converted' :
      geminiToOpenaiRequest ordinaryLimits (fun _ => "0000000000000000") weatherContents "m" =
        .ok _ := rfl
  refine ⟨⟨_, converted, fun named => ?_⟩, ⟨_, converted', fun linked => ?_⟩⟩
  · have named := (resultsNamed_iff converted).mp named
    exact absurd (named [weatherCall] _ [] rfl (by decide) _ (List.mem_singleton.mpr rfl) (by decide)
      rfl) (by decide)
  · obtain ⟨n, same⟩ := toolCallId_drawn converted' linked
      (List.mem_cons_of_mem _ (List.mem_singleton.mpr rfl)) rfl
    exact absurd same (by decide)

end Weather

end Gateway
