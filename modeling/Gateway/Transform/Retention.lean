import Gateway.Transform.Content

/-!
What a conversion keeps of the content of a conversation.

From the OpenAI shape a tool result is read only where it is a string, and
arguments only where they stand for an object within the limits. To the OpenAI
shape no image is carried, and within a turn results come first and calls last.
-/

namespace Gateway

open Fallible Arrangement

section Text

theorem join_eq_empty {texts : List String} :
    String.join texts = "" ↔ ∀ text ∈ texts, text = "" := by
  induction texts with
  | nil => simp
  | cons text rest ih =>
      rw [String.join_cons, String.append_eq_empty_iff, ih, List.forall_mem_cons]

theorem said_append (speaker : Speaker) (a b : String) :
    said speaker (a ++ b) = said speaker a ++ said speaker b := by
  simp [said]

@[simp]
theorem asRecord_none : asRecord none = [] := rfl

@[simp]
theorem asString_none : asString none = "" := rfl

@[simp]
theorem shown_empty (speaker : Speaker) : shown speaker "" = [] := rfl

@[simp]
theorem said_empty (speaker : Speaker) : said speaker "" = [] := rfl

theorem said_join {α : Type*} (speaker : Speaker) (text : α → String) (raws : List α) :
    said speaker (String.join (raws.map text)) = raws.flatMap fun raw => said speaker (text raw) := by
  induction raws with
  | nil => rfl
  | cons raw rest ih => rw [List.map_cons, String.join_cons, said_append, ih, List.flatMap_cons]

/-- A data address is put together again from its parts. -/
theorem dataUrl_splitDataUrl {url media data : String}
    (h : splitDataUrl url = some (media, data)) : dataUrl media data = url := by
  rw [splitDataUrl] at h
  split at h
  · next data_url =>
      simp only at h
      split at h
      · next both =>
          obtain ⟨rest, whole⟩ := List.isPrefixOf_iff_prefix.mp data_url
          obtain ⟨-, marked⟩ := both
          obtain ⟨inner, tail⟩ := List.isPrefixOf_iff_prefix.mp marked
          cases h
          have after : url.toList.drop 5 = rest := by rw [← whole]; rfl
          rw [after] at tail ⊢
          rw [← tail, ← String.toList_inj, ← whole, dataUrl]
          have rejoined := List.prefix_iff_eq_append.mp
            (@List.takeWhile_prefix _ rest fun c => decide (c ≠ ';' ∧ c ≠ ','))
          rw [← tail] at rejoined
          have data : (";base64,".toList ++ inner).drop 8 = inner := rfl
          rw [data]
          simp only [String.toList_append, String.toList_ofList, List.append_assoc, rejoined]
      · exact nomatch h
  · exact nomatch h

end Text

section Clone

theorem contentOf_clone (raw : Json) :
    contentOf raw.cloneSanitized = (contentOf raw).map Json.cloneSanitized := by
  rw [contentOf, field_cloneSanitized raw (by decide), contentOf]

theorem callArguments_clone (call : Json) :
    callArguments call.cloneSanitized = (callArguments call).map Json.cloneSanitized := by
  rw [callArguments, field_cloneSanitized call (by decide), asRecord_clone,
    field_cloneFields _ (by decide), callArguments]

theorem openaiPartItems_clone (speaker : Speaker) (raw : Json) :
    openaiPartItems speaker raw.cloneSanitized = openaiPartItems speaker raw := by
  simp only [openaiPartItems, asString_field_clone raw "type" (by decide),
    asString_field_clone raw "text" (by decide), @field_cloneSanitized raw "image_url" (by decide),
    asRecord_clone, @field_cloneFields _ "url" (by decide), asString_clone]

theorem openaiContentItems_clone (speaker : Speaker) (content : Option Json) :
    openaiContentItems speaker (content.map Json.cloneSanitized) =
      openaiContentItems speaker content := by
  cases content with
  | none => rfl
  | some content =>
      cases content with
      | arr items =>
          simp [openaiContentItems, Json.cloneSanitized, List.flatMap_map, openaiPartItems_clone]
      | _ => rfl

end Clone

section FromOpenai

variable (limits : JsonLimits)

/-- The items that are left of a message once it is converted. -/
def convertedItems (read : String → Json) (raw : Json) : List Item :=
  if roleOf raw ∈ toolRoles then [.result (read (asString (contentOf raw)))]
  else if roleOf raw = "user" ∨ roleOf raw = "assistant" then
    openaiContentItems (speakerOf (roleOf raw)) (contentOf raw) ++
      (callsOf raw).map fun call =>
        .call (callName call) (.obj (parseArguments limits (callArguments call)))
  else []

/-- Arguments that stand for an object, of which nothing is left out. -/
def ArgumentsKept : Option Json → Prop
  | some (.obj fields) => (Json.obj fields).Clean
  | value => asString value = "" ∨ ∃ fields, jsonParse (asString value) = some (.obj fields) ∧
      (fields = [] ∨ ((Json.obj fields).assertLimits limits = .ok () ∧ (Json.obj fields).Clean))

/-- A message whose result, if it is one, is a string or has no text, and whose
calls have arguments that are kept. -/
structure MessageKept (raw : Json) : Prop where
  result : roleOf raw ∈ toolRoles → ∀ parts, contentOf raw = some (.arr parts) →
    ∀ part ∈ parts, textPart part = ""
  calls : ∀ call ∈ callsOf raw, ArgumentsKept limits (callArguments call)

theorem resultText_eq_iff (content : Option Json) :
    resultText content = asString content ↔
      ∀ parts, content = some (.arr parts) → ∀ part ∈ parts, textPart part = "" := by
  cases content with
  | none => simp [resultText, asString, asArray]
  | some content =>
      cases content with
      | arr parts =>
          simp only [resultText, asArray_arr, asString, join_eq_empty, Option.some.injEq,
            Json.arr.injEq, forall_eq', List.mem_map, forall_exists_index, and_imp,
            forall_apply_eq_imp_iff₂]
      | _ => simp [resultText, asString, asArray]

theorem givenArguments_str (text : String) :
    givenArguments (some (.str text)) =
      if text = "" then .obj [] else (jsonParse text).getD (.str text) := rfl

theorem parseArguments_str (text : String) :
    parseArguments limits (some (.str text)) =
      if text = "" then []
      else
        match jsonParse text with
        | some (.obj fields) =>
            match sanitizeParsed limits fields with
            | .ok fields => fields
            | .error _ => []
        | _ => [] := rfl

theorem givenArguments_str_iff {text : String} (given : text ≠ "") :
    givenArguments (some (.str text)) = .obj (parseArguments limits (some (.str text))) ↔
      ∃ fields, jsonParse text = some (.obj fields) ∧
        (fields = [] ∨
          ((Json.obj fields).assertLimits limits = .ok () ∧ (Json.obj fields).Clean)) := by
  rw [givenArguments_str, parseArguments_str, if_neg given, if_neg given]
  cases parsed : jsonParse text with
  | none => simp
  | some value =>
      cases value with
      | obj fields =>
          simp only [Option.getD_some, Json.obj.injEq, Option.some.injEq, exists_eq_left',
            sanitizeParsed, Json.Clean, ← cloneFields_eq_iff]
          cases within : (Json.obj fields).assertLimits limits with
          | error limit => simp
          | ok done =>
              cases done
              simp only [true_and]
              constructor
              · exact fun same => .inr same.symm
              · rintro (rfl | same)
                · rfl
                · exact same.symm
      | _ => simp

theorem givenArguments_eq_iff (value : Option Json) :
    givenArguments value = .obj (parseArguments limits (value.map Json.cloneSanitized)) ↔
      ArgumentsKept limits value := by
  cases value with
  | none => simp [givenArguments, parseArguments, ArgumentsKept, asString]
  | some value =>
      cases value with
      | obj fields =>
          simp [givenArguments, parseArguments, ArgumentsKept, Json.cloneSanitized, Json.Clean,
            ← cloneFields_eq_iff, eq_comm]
      | str text =>
          by_cases empty : text = ""
          · simp [givenArguments, parseArguments, ArgumentsKept, Json.cloneSanitized, empty]
          · simpa [ArgumentsKept, Json.cloneSanitized, empty] using
              givenArguments_str_iff limits empty
      | _ => simp [givenArguments, parseArguments, ArgumentsKept, Json.cloneSanitized, asString]

theorem callItem_eq_iff (call : Json) :
    callItem call = .call (callName call.cloneSanitized)
        (.obj (parseArguments limits (callArguments call.cloneSanitized))) ↔
      ArgumentsKept limits (callArguments call) := by
  rw [callItem, callName_clone, callArguments_clone, Item.call.injEq, givenArguments_eq_iff]
  simp only [true_and]

theorem callsOf_of_tool {raw : Json} (result : roleOf raw ∈ toolRoles) : callsOf raw = [] := by
  rw [callsOf, if_neg]
  intro assistant
  rw [assistant] at result
  exact absurd result (by decide)

theorem callsOf_of_other {raw : Json} (other : ¬(roleOf raw = "user" ∨ roleOf raw = "assistant")) :
    callsOf raw = [] := by
  rw [callsOf, if_neg]
  exact fun assistant => other (.inr assistant)

theorem messageItems_eq_iff {read : String → Json} (injective : Function.Injective read)
    (raw : Json) :
    openaiMessageItems read raw = convertedItems limits read raw.cloneSanitized ↔
      MessageKept limits raw := by
  have kept : MessageKept limits raw ↔
      (roleOf raw ∈ toolRoles → resultText (contentOf raw) = asString (contentOf raw)) ∧
        ∀ call ∈ callsOf raw, ArgumentsKept limits (callArguments call) := by
    rw [resultText_eq_iff]
    exact ⟨fun kept => ⟨kept.result, kept.calls⟩, fun kept => ⟨kept.1, kept.2⟩⟩
  rw [kept, openaiMessageItems, convertedItems, roleOf_clone]
  by_cases result : roleOf raw ∈ toolRoles
  · simp [result, callsOf_of_tool result, contentOf_clone, injective.eq_iff]
  · by_cases turn : roleOf raw = "user" ∨ roleOf raw = "assistant"
    · rw [if_neg result, if_neg result, if_pos turn, if_pos turn, contentOf_clone,
        openaiContentItems_clone, List.append_cancel_left_eq, callsOf_clone, List.map_map,
        List.map_eq_map_iff]
      simp only [Function.comp_apply, callItem_eq_iff, result, false_implies, true_and]
    · simp [result, turn, callsOf_of_other turn]

theorem length_convertedItems (read : String → Json) (raw : Json) :
    (convertedItems limits read raw.cloneSanitized).length ≤
      (openaiMessageItems read raw).length := by
  rw [openaiMessageItems, convertedItems, roleOf_clone]
  split
  · exact Nat.le_refl 1
  · split
    · rw [contentOf_clone, openaiContentItems_clone, callsOf_clone]
      simp
    · exact Nat.le_refl 0

end FromOpenai

section ToAnthropic

variable {limits : JsonLimits} {draw : Nat → String}

theorem items_anthropicBlock (role : String) (raw : Json) :
    (anthropicBlock raw).toList.flatMap (anthropicBlockItems role) =
      openaiPartItems (speakerOf role) raw := by
  simp only [anthropicBlock, openaiPartItems]
  generalize asString ((asRecord (some raw)).field "type") = kind
  split
  · split
    · next empty => simp [empty]
    · simp [textBlock, anthropicBlockItems, Record.field_cons]
  · split
    · next empty => simp [shown, empty]
    · next given =>
        split
        · next media data is_data =>
            simp [anthropicBlockItems, Record.field_cons, sourceUrl, dataUrl_splitDataUrl is_data]
        · simp [anthropicBlockItems, Record.field_cons, sourceUrl]
  · simp

theorem flatMap_filterMap_toList {α β γ : Type*} (f : α → Option β) (g : β → List γ)
    (xs : List α) : (xs.filterMap f).flatMap g = xs.flatMap fun x => (f x).toList.flatMap g := by
  induction xs with
  | nil => rfl
  | cons x xs ih => cases found : f x <;> simp [found, ih]

theorem items_toAnthropicBlocks (role : String) (content : Option Json) :
    (toAnthropicBlocks content).flatMap (anthropicBlockItems role) =
      openaiContentItems (speakerOf role) content := by
  rw [toAnthropicBlocks.eq_def, openaiContentItems.eq_def]
  split
  · split
    · next empty => simp [empty]
    · simp [textBlock, anthropicBlockItems, Record.field_cons]
  · rw [flatMap_filterMap_toList]
    simp only [items_anthropicBlock]

theorem items_toolUseBlocks (drawn : Nat) (calls : List Json) :
    (toolUseBlocks limits draw drawn calls).1.flatMap (anthropicBlockItems "assistant") =
      calls.map fun call =>
        Item.call (callName call) (.obj (parseArguments limits (callArguments call))) := by
  induction calls generalizing drawn with
  | nil => rfl
  | cons call rest ih =>
      simp only [toolUseBlocks, List.flatMap_cons, ih, List.map_cons]
      simp [anthropicBlockItems, Record.field_cons, orEmptyObject, callName, callArguments]

/-- The items of the turns under construction. -/
def turnItems (turns : List Turn) : List Item :=
  turns.flatMap fun turn => turn.blocks.flatMap (anthropicBlockItems turn.role)

theorem items_addOpenaiMessage {draft next : AnthropicDraft} {raw : Json}
    (h : addOpenaiMessage limits draw draft raw = .ok next) :
    turnItems next.messages = turnItems draft.messages ++ convertedItems limits .str raw := by
  have merged := @flatMap_appendMessage Item (fun role => List.flatMap (anthropicBlockItems role))
    (fun _ _ _ => List.flatMap_append)
  rcases addOpenaiMessage_cases h with ⟨role, rfl⟩ | ⟨role, rfl⟩ | ⟨role, blocks, is_blocks, rfl⟩
  · have other : roleOf raw ∉ toolRoles ∧ ¬(roleOf raw = "user" ∨ roleOf raw = "assistant") := by
      rcases role with role | role <;> simp [role, toolRoles]
    rw [convertedItems, if_neg other.1, if_neg other.2, List.append_nil]
  · have result : roleOf raw ∈ toolRoles := by simpa [toolRoles] using role
    rw [convertedItems, if_pos result, turnItems, turnItems]
    refine (merged draft.messages "user" [toolResultBlock raw]).trans ?_
    simp [toolResultBlock, anthropicBlockItems, Record.field_cons, resultText]
  · have other : roleOf raw ∉ toolRoles := by
      rcases role with role | role <;> simp [role, toolRoles]
    have items : blocks.flatMap (anthropicBlockItems (roleOf raw)) =
        convertedItems limits .str raw := by
      rw [convertedItems, if_neg other, if_pos role, is_blocks, List.flatMap_append,
        items_toAnthropicBlocks]
      by_cases assistant : roleOf raw = "assistant"
      · rw [assistant, items_toolUseBlocks]
      · simp [callsOf, assistant, toolUseBlocks]
    rw [← items, turnItems, turnItems]
    by_cases none : blocks = []
    · simp [none]
    · rw [if_neg (by simpa using none)]
      exact merged draft.messages (roleOf raw) blocks

theorem items_openaiToAnthropicRequest {config : TransformConfig} {body out : Record}
    (h : openaiToAnthropicRequest config draw body = .ok out) :
    anthropicItems out =
      (messagesOf body).flatMap fun raw => convertedItems config.limits .str raw.cloneSanitized := by
  obtain ⟨input, sanitized, h⟩ := bind_ok h
  obtain ⟨draft, loop, h⟩ := bind_ok h
  cases h
  obtain ⟨-, rfl⟩ := sanitizeParsed_ok sanitized
  rw [← messagesOf, messagesOf_clone] at loop
  have collected := foldlM_collects (fun draft : AnthropicDraft => turnItems draft.messages)
    (fun _ _ _ stepped => items_addOpenaiMessage stepped) loop
  have turn (turn : Turn) : anthropicTurnItems turn.toMessage =
      turn.blocks.flatMap (anthropicBlockItems turn.role) := by
    simp [anthropicTurnItems, Turn.toMessage, contentOf, roleOf, Record.field_cons]
  have messages : messagesOf (anthropicRequest (Json.cloneFields body) draft) =
      draft.messages.map Turn.toMessage := by
    simp [messagesOf, anthropicRequest, Record.field_cons]
  rw [anthropicItems, messages, List.flatMap_map]
  simp only [turn]
  rw [← turnItems, collected, List.flatMap_map]
  rfl

theorem anthropic_keeps_iff {config : TransformConfig} {body out : Record}
    (h : openaiToAnthropicRequest config draw body = .ok out) :
    (openaiItems .str body).Sublist (anthropicItems out) ↔
      ∀ raw ∈ messagesOf body, MessageKept config.limits raw := by
  have injective : Function.Injective Json.str := fun _ _ same => Json.str.inj same
  rw [items_openaiToAnthropicRequest h, openaiItems,
    flatMap_sublist_iff fun raw _ => length_convertedItems config.limits .str raw]
  simp only [messageItems_eq_iff config.limits injective]

end ToAnthropic

section ToGemini

variable {limits : JsonLimits}

/-- Any media that is sent may show an image. -/
def anyMedia : String → Bool := fun _ => true

theorem items_geminiPart (role : String) (raw : Json) :
    (geminiPart raw).toList.flatMap (geminiPartItems anyMedia role) =
      openaiPartItems (speakerOf role) raw := by
  simp only [geminiPart, openaiPartItems]
  generalize asString ((asRecord (some raw)).field "type") = kind
  split
  · split
    · next empty => simp [empty]
    · simp [geminiPartItems, geminiMediaItems, Record.field_cons, partCall, partText, isThought,
        Record.has, anyMedia]
  · split
    · next empty => simp [shown, empty]
    · next given =>
        split
        · next media data is_data =>
            simp [geminiPartItems, geminiMediaItems, Record.field_cons, partCall, partText,
              isThought, Record.has, anyMedia, dataUrl_splitDataUrl is_data]
        · simp [geminiPartItems, geminiMediaItems, Record.field_cons, partCall, partText,
            isThought, Record.has, anyMedia]
  · simp

theorem items_toGeminiParts (role : String) (content : Option Json) :
    (toGeminiParts content).flatMap (geminiPartItems anyMedia role) =
      openaiContentItems (speakerOf role) content := by
  rw [toGeminiParts.eq_def, openaiContentItems.eq_def]
  split
  · split
    · next empty => simp [empty]
    · simp [geminiPartItems, geminiMediaItems, Record.field_cons, partCall, partText, isThought,
        Record.has, anyMedia]
  · rw [flatMap_filterMap_toList]
    simp only [items_geminiPart]

theorem items_functionCallPart (call : Json) :
    geminiPartItems anyMedia "model" (functionCallPart limits call) =
      [.call (callName call) (.obj (parseArguments limits (callArguments call)))] := by
  simp [geminiPartItems, geminiMediaItems, functionCallPart, Record.field_cons, partCall, partText,
    Record.has, anyMedia, callArgs, callName, callArguments]

/-- A result is kept as the content of a response. -/
def asContent (text : String) : Json := .obj [("content", .str text)]

theorem items_functionResponsePart (raw : Json) :
    geminiPartItems anyMedia "user" (functionResponsePart raw) =
      [.result (asContent (asString (contentOf raw)))] := by
  simp [geminiPartItems, geminiMediaItems, functionResponsePart, Record.field_cons, partCall,
    partText, isThought, Record.has, anyMedia, asContent, orEmptyObject]

def contentItems (turns : List Turn) : List Item :=
  turns.flatMap fun turn => turn.blocks.flatMap (geminiPartItems anyMedia turn.role)

theorem speakerOf_geminiRole {role : String} (turn : role = "user" ∨ role = "assistant") :
    speakerOf (geminiRole role) = speakerOf role := by
  rcases turn with rfl | rfl <;> decide

theorem items_addGeminiMessage {draft next : GeminiDraft} {raw : Json}
    (h : addGeminiMessage limits draft raw = .ok next) :
    contentItems next.contents =
      contentItems draft.contents ++ convertedItems limits asContent raw := by
  have merged := @flatMap_appendMessage Item
    (fun role => List.flatMap (geminiPartItems anyMedia role)) (fun _ _ _ => List.flatMap_append)
  rcases addGeminiMessage_cases h with ⟨role, rfl⟩ | ⟨role, rfl⟩ | ⟨role, parts, is_parts, rfl⟩
  · have other : roleOf raw ∉ toolRoles ∧ ¬(roleOf raw = "user" ∨ roleOf raw = "assistant") := by
      rcases role with role | role <;> simp [role, toolRoles]
    rw [convertedItems, if_neg other.1, if_neg other.2, List.append_nil]
  · have result : roleOf raw ∈ toolRoles := by simpa [toolRoles] using role
    rw [convertedItems, if_pos result, contentItems, contentItems]
    refine (merged draft.contents "user" [functionResponsePart raw]).trans ?_
    rw [List.flatMap_singleton, items_functionResponsePart]
  · have other : roleOf raw ∉ toolRoles := by
      rcases role with role | role <;> simp [role, toolRoles]
    have items : parts.flatMap (geminiPartItems anyMedia (geminiRole (roleOf raw))) =
        convertedItems limits asContent raw := by
      rw [convertedItems, if_neg other, if_pos role, is_parts, List.flatMap_append,
        items_toGeminiParts, speakerOf_geminiRole role]
      by_cases assistant : roleOf raw = "assistant"
      · have model : geminiRole (roleOf raw) = "model" := if_pos assistant
        rw [model, List.flatMap_map]
        simp only [items_functionCallPart]
        rw [← List.map_eq_flatMap]
      · simp [callsOf, assistant]
    rw [← items, contentItems, contentItems]
    by_cases none : parts = []
    · simp [none]
    · rw [if_neg (by simpa using none)]
      exact merged draft.contents (geminiRole (roleOf raw)) parts

theorem items_openaiToGeminiRequest {config : TransformConfig} {body out : Record}
    (h : openaiToGeminiRequest config body = .ok out) :
    geminiItems anyMedia out =
      (messagesOf body).flatMap fun raw =>
        convertedItems config.limits asContent raw.cloneSanitized := by
  obtain ⟨input, sanitized, h⟩ := bind_ok h
  obtain ⟨draft, loop, h⟩ := bind_ok h
  cases h
  obtain ⟨-, rfl⟩ := sanitizeParsed_ok sanitized
  rw [← messagesOf, messagesOf_clone] at loop
  have collected := foldlM_collects (fun draft : GeminiDraft => contentItems draft.contents)
    (fun _ _ _ stepped => items_addGeminiMessage stepped) loop
  have turn (turn : Turn) : geminiContentItems anyMedia turn.toContent =
      turn.blocks.flatMap (geminiPartItems anyMedia turn.role) := by
    simp [geminiContentItems, Turn.toContent, partsOf, roleOf, Record.field_cons]
  have contents : contentsOf (geminiRequest config (Json.cloneFields body) draft) =
      draft.contents.map Turn.toContent := by
    simp [contentsOf, geminiRequest, Record.field_cons]
  rw [geminiItems, contents, List.flatMap_map]
  simp only [turn]
  rw [← contentItems, collected, List.flatMap_map]
  rfl

theorem gemini_keeps_iff {config : TransformConfig} {body out : Record}
    (h : openaiToGeminiRequest config body = .ok out) :
    (openaiItems asContent body).Sublist (geminiItems anyMedia out) ↔
      ∀ raw ∈ messagesOf body, MessageKept config.limits raw := by
  have injective : Function.Injective asContent := fun _ _ same => by simpa [asContent] using same
  rw [items_openaiToGeminiRequest h, openaiItems,
    flatMap_sublist_iff fun raw _ => length_convertedItems config.limits asContent raw]
  simp only [messageItems_eq_iff config.limits injective]

end ToGemini

section Turns

namespace Item

/-- Results come before what a turn says, and calls after it. -/
def rank : Item → Nat
  | result _ => 0
  | text _ _ => 1
  | call _ _ => 2
  | image _ _ => 3

/-- The item once its value is copied, written and read. -/
def copy : Item → Item
  | call name value => call name value.cloneSanitized.written
  | result value => result value.cloneSanitized.written
  | item => item

/-- No image, and a value that comes back as it was. -/
def Kept : Item → Prop
  | text _ _ => True
  | image _ _ => False
  | call _ value => value.Lasting
  | result value => value.Lasting

theorem rank_copy (item : Item) : item.copy.rank = item.rank := by
  cases item <;> rfl

theorem kept_iff (item : Item) : item.rank < 3 ∧ item.copy = item ↔ item.Kept := by
  cases item <;> simp [rank, copy, Kept, written_clone_iff]

end Item

/-- A turn without images, with its results first and its calls last. -/
structure TurnKept (items : List Item) : Prop where
  each : ∀ item ∈ items, item.Kept
  ordered : items.Pairwise fun a b => a.rank ≤ b.rank

/-- The items of a turn as the other shape arranges them. -/
def rearranged (items : List Item) : List Item := (arranged Item.rank 3 items).map Item.copy

theorem rearranged_eq_iff (items : List Item) : items = rearranged items ↔ TurnKept items := by
  rw [rearranged, eq_map_arranged_iff Item.rank_copy]
  simp only [Item.kept_iff]
  exact ⟨fun kept => ⟨kept.1, kept.2⟩, fun kept => ⟨kept.each, kept.ordered⟩⟩

theorem length_rearranged_le (items : List Item) : (rearranged items).length ≤ items.length := by
  rw [rearranged, List.length_map, length_arranged]
  exact List.length_filter_le _ _

theorem rearranged_eq (items : List Item) :
    rearranged items = (items.filter fun item => item.rank = 0).map Item.copy ++
      (items.filter fun item => item.rank = 1).map Item.copy ++
      (items.filter fun item => item.rank = 2).map Item.copy := by
  simp only [rearranged, arranged_succ, List.map_append]
  rfl

theorem copy_said (speaker : Speaker) (text : String) :
    (said speaker text).map Item.copy = said speaker text := by
  simp [said, Item.copy]

theorem rank_said (k : Nat) (speaker : Speaker) (text : String) :
    (said speaker text).filter (fun item => item.rank = k) =
      if k = 1 then said speaker text else [] := by
  by_cases one : k = 1
  · simp [said, one, Item.rank, List.filter_map, Function.comp_def]
  · simp [said, one, Item.rank, List.filter_map, Function.comp_def, Ne.symm one]

theorem rank_shown {k : Nat} (below : k < 3) (speaker : Speaker) (url : String) :
    (shown speaker url).filter (fun item => item.rank = k) = [] := by
  rw [shown]
  split
  · rfl
  · simp [Item.rank, show 3 ≠ k by omega]

theorem carried_orEmptyObject {value : Option Json} (carried : ∀ v, value = some v → v.Carried) :
    (orEmptyObject value).Carried := by
  have empty : (Json.obj []).Carried := ⟨List.nodup_nil, trivial⟩
  cases value with
  | none => exact empty
  | some value =>
      have here := carried value rfl
      cases value with
      | null => exact empty
      | _ => exact here

theorem orEmptyObject_clone (value : Option Json) :
    orEmptyObject (value.map Json.cloneSanitized) = (orEmptyObject value).cloneSanitized := by
  cases value with
  | none => rfl
  | some value => cases value <;> simp [orEmptyObject, Json.cloneSanitized, Json.cloneFields]

/-- The text of a value is never empty. -/
theorem jsonStringify_ne {value : Json} (carried : value.Carried) : jsonStringify value ≠ "" := by
  intro empty
  have read := jsonParse_jsonStringify carried
  rw [empty] at read
  exact nomatch read

/-- Arguments that were written from a value stand for what it is written as. -/
theorem givenArguments_jsonStringify {value : Json} (carried : value.Carried) :
    givenArguments (some (.str (jsonStringify value.cloneSanitized))) =
      value.cloneSanitized.written := by
  have copied := carried_clone value carried
  rw [givenArguments_str, if_neg (jsonStringify_ne copied), jsonParse_jsonStringify copied,
    Option.getD_some]

end Turns

section AnthropicToOpenai

variable (draw : Nat → String)

/-- A call of a block once it is written. -/
def blockCall (raw : Json) : List Item :=
  let block := asRecord (some raw)
  if asString (block.field "type") = "tool_use" then
    [.call (asString (block.field "name"))
      (givenArguments (some (.str (jsonStringify (orEmptyObject (block.field "input"))))))]
  else []

theorem foldl_addAnthropicBlock (blocks : List Json) (parts : AnthropicParts) :
    (blocks.foldl (addAnthropicBlock draw) parts).text =
        parts.text ++ String.join (blocks.map textPart) ∧
      (blocks.foldl (addAnthropicBlock draw) parts).toolCalls.map (fun c => callItem (.obj c)) =
        parts.toolCalls.map (fun c => callItem (.obj c)) ++ blocks.flatMap blockCall := by
  induction blocks generalizing parts with
  | nil => simp
  | cons raw rest ih =>
      obtain ⟨text, calls⟩ := ih (addAnthropicBlock draw parts raw)
      rw [List.foldl_cons, text, calls, List.map_cons, String.join_cons, List.flatMap_cons,
        ← String.append_assoc, ← List.append_assoc]
      simp only [addAnthropicBlock, textPart, blockCall]
      generalize asString ((asRecord (some raw)).field "type") = kind
      split
      · simp
      · simp
      · simp [callItem, callName, callArguments, functionCall, Record.field_cons]
      · next no_text _ no_call =>
          rw [if_neg no_text, if_neg no_call]
          simp

theorem text_fromAnthropicBlocks (drawn : Nat) (content : Option Json) :
    (fromAnthropicBlocks draw drawn content).text = resultText content := by
  rw [fromAnthropicBlocks.eq_def]
  split
  · rfl
  · next no_text =>
      rw [(foldl_addAnthropicBlock draw _ _).1, String.empty_append, resultText]
      exact no_text

theorem calls_fromAnthropicBlocks (drawn : Nat) (content : Option Json) :
    (fromAnthropicBlocks draw drawn content).toolCalls.map (fun c => callItem (.obj c)) =
      (asArray content).flatMap blockCall := by
  rw [fromAnthropicBlocks.eq_def]
  split
  · rfl
  · exact (foldl_addAnthropicBlock draw _ _).2

/-- The items of a message that is put together from text and calls. -/
theorem items_message (read : String → Json) {role text : String} {content : Json}
    (turn : role = "user" ∨ role = "assistant")
    (is_text : content = .str text ∨ (content = .null ∧ text = "")) (toolCalls : List Record) :
    openaiMessageItems read
        (.obj ([("role", .str role), ("content", content)] ++ toolCallsField toolCalls)) =
      said (speakerOf role) text ++
        if role = "assistant" then toolCalls.map fun c => callItem (.obj c) else [] := by
  have role_is : roleOf (.obj ([("role", .str role), ("content", content)] ++
      toolCallsField toolCalls)) = role := rfl
  have content_is : contentOf (.obj ([("role", .str role), ("content", content)] ++
      toolCallsField toolCalls)) = some content := rfl
  have calls : asArray (Record.field ([("role", .str role), ("content", content)] ++
      toolCallsField toolCalls) "tool_calls") = toolCalls.map Json.obj := by
    cases toolCalls <;> rfl
  have other : role ∉ toolRoles := by
    rcases turn with rfl | rfl <;> decide
  have said_text : openaiContentItems (speakerOf role) (some content) =
      said (speakerOf role) text := by
    rcases is_text with rfl | ⟨rfl, rfl⟩ <;> rfl
  rw [openaiMessageItems, role_is, content_is, if_neg other, if_pos turn, said_text, callsOf,
    role_is, asRecord_obj, calls]
  split
  · rw [List.map_map]
    rfl
  · rfl

theorem items_turnMessage (read : String → Json) {role : String}
    (turn : role = "user" ∨ role = "assistant") (parts : AnthropicParts) :
    (turnMessage role parts).flatMap (openaiMessageItems read) =
      said (speakerOf role) parts.text ++
        if role = "assistant" then parts.toolCalls.map fun c => callItem (.obj c) else [] := by
  rw [turnMessage]
  split
  · next empty => simp [empty.1, empty.2.1]
  · rw [List.flatMap_singleton]
    refine items_message read turn ?_ parts.toolCalls
    split
    · next silent => exact .inr ⟨rfl, silent.1⟩
    · exact .inl rfl

theorem items_toolMessage (raw : Json) :
    openaiMessageItems .str (toolMessage draw raw) =
      [.result (.str (resultText ((asRecord (some raw)).field "content")))] := by
  have tool : roleOf (toolMessage draw raw) ∈ toolRoles := by
    have role : roleOf (toolMessage draw raw) = "tool" := rfl
    rw [role]
    decide
  have content : resultText (contentOf (toolMessage draw raw)) =
      resultText ((asRecord (some raw)).field "content") :=
    text_fromAnthropicBlocks draw 0 ((asRecord (some raw)).field "content")
  rw [openaiMessageItems, if_pos tool, content]

theorem results_anthropicBlock (role : String) (raw : Json) :
    (anthropicBlockItems role raw).filter (fun item => item.rank = 0) =
      if isToolResult raw then
        [.result (.str (resultText ((asRecord (some raw)).field "content")))]
      else [] := by
  have result : isToolResult raw = true ↔
      asString ((asRecord (some raw)).field "type") = "tool_result" := by
    simp [isToolResult]
  simp only [anthropicBlockItems, result]
  generalize asString ((asRecord (some raw)).field "type") = kind
  split
  · simp [rank_said]
  · simp [rank_shown]
  · split <;> simp [Item.rank]
  · simp [Item.rank]
  · next other => simp [show kind ≠ "tool_result" from other]

theorem text_anthropicBlock (role : String) (raw : Json) :
    (anthropicBlockItems role raw).filter (fun item => item.rank = 1) =
      said (speakerOf role) (textPart raw) := by
  simp only [anthropicBlockItems, textPart]
  generalize asString ((asRecord (some raw)).field "type") = kind
  split
  · simp [rank_said]
  · simp [rank_shown]
  · split <;> simp [Item.rank]
  · simp [Item.rank]
  · next other _ _ _ => simp [show kind ≠ "text" from other]

theorem calls_anthropicBlock (role : String) (raw : Json) :
    (anthropicBlockItems role raw).filter (fun item => item.rank = 2) =
      if role = "assistant" ∧ asString ((asRecord (some raw)).field "type") = "tool_use" then
        [.call (asString ((asRecord (some raw)).field "name"))
          (orEmptyObject ((asRecord (some raw)).field "input"))]
      else [] := by
  simp only [anthropicBlockItems]
  generalize asString ((asRecord (some raw)).field "type") = kind
  split
  · simp [rank_said]
  · simp [rank_shown]
  · by_cases assistant : role = "assistant" <;> simp [assistant, Item.rank]
  · simp [Item.rank]
  · next other => simp [show kind ≠ "tool_use" from by assumption]

theorem textPart_clone (raw : Json) : textPart raw.cloneSanitized = textPart raw := by
  simp only [textPart, asString_field_clone raw "type" (by decide),
    asString_field_clone raw "text" (by decide)]

theorem resultText_clone (content : Option Json) :
    resultText (content.map Json.cloneSanitized) = resultText content := by
  cases content with
  | none => rfl
  | some content =>
      cases content with
      | arr items => simp [resultText, Json.cloneSanitized, Function.comp_def, textPart_clone]
      | _ => rfl

theorem isToolResult_clone (raw : Json) : isToolResult raw.cloneSanitized = isToolResult raw := by
  simp only [isToolResult, asString_field_clone raw "type" (by decide)]

theorem results_copy (role : String) (raw : Json) :
    (if isToolResult raw.cloneSanitized then
      [Item.result (.str (resultText ((asRecord (some raw.cloneSanitized)).field "content")))]
    else []) =
      ((anthropicBlockItems role raw).filter fun item => item.rank = 0).map Item.copy := by
  rw [results_anthropicBlock, isToolResult_clone, @field_cloneSanitized raw "content" (by decide),
    resultText_clone]
  split <;> rfl

theorem blockCall_clone {raw : Json} (carried : raw.Carried) (role : String) :
    (if role = "assistant" then blockCall raw.cloneSanitized else []) =
      ((anthropicBlockItems role raw).filter fun item => item.rank = 2).map Item.copy := by
  have input := carried_orEmptyObject fun v (found : (asRecord (some raw)).field "input" = some v) =>
    carried.field found
  rw [calls_anthropicBlock, blockCall]
  simp only [asString_field_clone raw "type" (by decide), asString_field_clone raw "name" (by decide),
    @field_cloneSanitized raw "input" (by decide), orEmptyObject_clone,
    givenArguments_jsonStringify input]
  by_cases assistant : role = "assistant" <;>
    by_cases call : asString ((asRecord (some raw)).field "type") = "tool_use" <;>
      simp [assistant, call, Item.copy]

theorem items_blocks {blocks : List Json} (carried : ∀ raw ∈ blocks, raw.Carried) (role : String) :
    ((blocks.map Json.cloneSanitized).filter isToolResult).flatMap (fun raw =>
        [Item.result (.str (resultText ((asRecord (some raw)).field "content")))]) ++
      (said (speakerOf role) (String.join (blocks.map textPart)) ++
        if role = "assistant" then (blocks.map Json.cloneSanitized).flatMap blockCall else []) =
      rearranged (blocks.flatMap (anthropicBlockItems role)) := by
  have calls : (if role = "assistant" then (blocks.map Json.cloneSanitized).flatMap blockCall
      else []) = blocks.flatMap fun raw =>
        ((anthropicBlockItems role raw).filter fun item => item.rank = 2).map Item.copy := by
    rw [← List.flatMap_congr fun raw mem => blockCall_clone (carried raw mem) role]
    split <;> simp [List.flatMap_map]
  have results := flatMap_ite_nil (fun raw => isToolResult raw = true) (fun raw =>
      [Item.result (.str (resultText ((asRecord (some raw)).field "content")))])
    (blocks.map Json.cloneSanitized)
  simp only [Bool.decide_eq_true, List.flatMap_map] at results
  rw [rearranged_eq, calls, said_join, ← results]
  simp only [List.filter_flatMap, List.map_flatMap, text_anthropicBlock, copy_said, results_copy role,
    List.append_assoc]

/-- The messages of a turn hold its items, rearranged. -/
theorem items_anthropicTurn {raw : Json} (carried : raw.Carried)
    (turn : roleOf raw = "user" ∨ roleOf raw = "assistant") (drawn : Nat) :
    (((asArray (contentOf raw.cloneSanitized)).filter isToolResult).map (toolMessage draw) ++
        turnMessage (roleOf raw.cloneSanitized)
          (fromAnthropicBlocks draw drawn (contentOf raw.cloneSanitized))).flatMap
      (openaiMessageItems .str) = rearranged (anthropicTurnItems raw) := by
  rw [List.flatMap_append, items_turnMessage .str (by simpa using turn), calls_fromAnthropicBlocks,
    text_fromAnthropicBlocks, List.flatMap_map, contentOf_clone, resultText_clone, asArray_clone,
    roleOf_clone]
  simp only [items_toolMessage]
  have blocks_carried : ∀ block ∈ asArray (contentOf raw), block.Carried := by
    intro block mem
    cases content : contentOf raw with
    | none => simp [content, asArray] at mem
    | some value => exact (carried.field content).item (content ▸ mem)
  by_cases string : ∃ text, contentOf raw = some (.str text)
  · obtain ⟨text, content⟩ := string
    have turn_items : anthropicTurnItems raw = said (speakerOf (roleOf raw)) text := by
      simp only [anthropicTurnItems, content]
    rw [turn_items, content, rearranged_eq]
    simp [resultText, rank_said, copy_said, asArray]
  · have parts : anthropicTurnItems raw =
          (asArray (contentOf raw)).flatMap (anthropicBlockItems (roleOf raw)) ∧
        resultText (contentOf raw) = String.join ((asArray (contentOf raw)).map textPart) := by
      rw [anthropicTurnItems]
      cases content : contentOf raw with
      | none => exact ⟨rfl, rfl⟩
      | some value =>
          cases value with
          | str text => exact absurd ⟨text, content⟩ string
          | _ => exact ⟨rfl, rfl⟩
    rw [parts.1, parts.2, ← items_blocks blocks_carried (roleOf raw)]

theorem items_anthropicSystem (system : Option Json) :
    (anthropicSystem system).flatMap (openaiMessageItems .str) = [] := by
  have silent (text : String) : openaiMessageItems .str (systemMessage text) = [] := rfl
  rw [anthropicSystem.eq_def]
  split
  · split
    · rfl
    · rw [List.flatMap_singleton, silent]
  · simp only
    split
    · rfl
    · rw [List.flatMap_singleton, silent]

/-- A request body that was read from its text. -/
def IsJson (body : Record) : Prop := ∃ text, jsonParse text = some (.obj body)

theorem IsJson.carried {body : Record} (json : IsJson body) {key : String} {raw : Json}
    (mem : raw ∈ asArray (body.field key)) : raw.Carried := by
  obtain ⟨text, parsed⟩ := json
  have whole := carried_of_parse parsed
  cases found : body.field key with
  | none => simp [found, asArray] at mem
  | some value => exact (whole.field found).item (found ▸ mem)

/-- What a turn adds to the messages says the same whatever ids are drawn. -/
theorem items_addAnthropicTurn {draft next : List Json × Nat} {raw : Json}
    (h : addAnthropicTurn draw draft raw = .ok next) :
    next.1.flatMap (openaiMessageItems .str) = draft.1.flatMap (openaiMessageItems .str) ++
      (((asArray (contentOf raw)).filter isToolResult).map (toolMessage draw) ++
        turnMessage (roleOf raw) (fromAnthropicBlocks draw 0 (contentOf raw))).flatMap
          (openaiMessageItems .str) := by
  obtain ⟨turn, messages, -⟩ := addAnthropicTurn_ok h
  rw [messages, List.flatMap_append, List.flatMap_append, List.flatMap_append,
    items_turnMessage .str turn, items_turnMessage .str turn, calls_fromAnthropicBlocks,
    calls_fromAnthropicBlocks, text_fromAnthropicBlocks, text_fromAnthropicBlocks]

theorem items_anthropicToOpenaiRequest {config : TransformConfig} {body out : Record}
    (json : IsJson body) (h : anthropicToOpenaiRequest config draw body = .ok out) :
    openaiItems .str out =
      (messagesOf body).flatMap fun raw => rearranged (anthropicTurnItems raw) := by
  obtain ⟨input, sanitized, h⟩ := bind_ok h
  obtain ⟨draft, loop, h⟩ := bind_ok h
  cases h
  obtain ⟨-, rfl⟩ := sanitizeParsed_ok sanitized
  rw [← messagesOf, messagesOf_clone] at loop
  have collected := foldlM_collects
    (fun draft : List Json × Nat => draft.1.flatMap (openaiMessageItems .str))
    (fun _ _ _ stepped => items_addAnthropicTurn draw stepped) loop
  have known := foldlM_requires (p := fun raw => roleOf raw = "user" ∨ roleOf raw = "assistant")
    (fun _ _ _ stepped => (addAnthropicTurn_ok stepped).1) loop
  rw [List.forall_mem_map] at known
  have messages : messagesOf (openaiRequest (Json.cloneFields body) draft.1) = draft.1 := by
    simp [messagesOf, openaiRequest, Record.field_cons]
  rw [openaiItems, messages, collected, items_anthropicSystem, List.nil_append, List.flatMap_map]
  refine List.flatMap_congr fun raw mem => ?_
  have turn := known raw mem
  rw [roleOf_clone] at turn
  exact items_anthropicTurn draw (json.carried mem) turn 0

theorem openai_keeps_anthropic_iff {config : TransformConfig} {body out : Record}
    (json : IsJson body) (h : anthropicToOpenaiRequest config draw body = .ok out) :
    (anthropicItems body).Sublist (openaiItems .str out) ↔
      ∀ raw ∈ messagesOf body, TurnKept (anthropicTurnItems raw) := by
  rw [items_anthropicToOpenaiRequest draw json h, anthropicItems,
    flatMap_sublist_iff fun raw _ => length_rearranged_le (anthropicTurnItems raw)]
  simp only [rearranged_eq_iff]

end AnthropicToOpenai

section GeminiToOpenai

variable (draw : Nat → String)

/-- An image, by its media type. -/
def isImage (media : String) : Bool := startsWith media "image/"

/-- The value that the text of a result was written from. -/
def asWritten (text : String) : Json := (jsonParse text).getD (.str text)

theorem asWritten_jsonStringify {value : Json} (carried : value.Carried) :
    asWritten (jsonStringify value.cloneSanitized) = value.cloneSanitized.written := by
  rw [asWritten, jsonParse_jsonStringify (carried_clone value carried), Option.getD_some]

def modelRole (role : String) : String := if role = "model" then "assistant" else "user"

theorem modelRole_turn (role : String) : modelRole role = "user" ∨ modelRole role = "assistant" := by
  rw [modelRole]
  split
  · exact .inr rfl
  · exact .inl rfl

theorem items_contentMessage (read : String → Json) (role : String) (parts : GeminiParts) :
    (contentMessage role parts).flatMap (openaiMessageItems read) =
      said (speakerOf (modelRole role)) parts.text ++
        if modelRole role = "assistant" then parts.toolCalls.map fun c => callItem (.obj c)
        else [] := by
  rw [contentMessage]
  split
  · next empty => simp [empty.1, empty.2]
  · rw [List.flatMap_singleton]
    refine items_message read (modelRole_turn role) ?_ parts.toolCalls
    split
    · next silent => exact .inr ⟨rfl, silent⟩
    · exact .inl rfl

theorem said_textOf (speaker : Speaker) (parts : List Json) :
    said speaker (textOf parts) = parts.flatMap fun raw => said speaker (partText raw) := by
  induction parts with
  | nil => rfl
  | cons raw rest ih => rw [textOf, said_append, ih, List.flatMap_cons]

/-- A call of a part once it is written. -/
def partCallItem (raw : Json) : List Item :=
  ((partCall raw).map fun call =>
    Item.call (asString ((asRecord (some call)).field "name"))
      (givenArguments (some (.str (jsonStringify (callArgs call)))))).toList

theorem map_mapIdx_const {α β γ : Type*} {f : Nat → α → β} {g : β → γ} {k : α → γ}
    (constant : ∀ i a, g (f i a) = k a) (xs : List α) : (xs.mapIdx f).map g = xs.map k :=
  List.ext_getElem (by simp) (by simp [constant])

theorem calls_fromGeminiParts (drawn : Nat) (parts : Option Json) :
    (fromGeminiParts (requestOptions draw) drawn parts).toolCalls.map
        (fun c => callItem (.obj c)) = (asArray parts).flatMap partCallItem := by
  have call (id : Nat) (functionCall : Json) :
      callItem (.obj (geminiToolCall (requestOptions draw) id functionCall)) =
        .call (asString ((asRecord (some functionCall)).field "name"))
          (givenArguments (some (.str (jsonStringify (callArgs functionCall))))) := rfl
  have numbered := @map_mapIdx_const _ _ _
    (fun i => geminiToolCall (requestOptions draw) (drawn + i)) (fun c => callItem (.obj c)) _
    (fun i functionCall => call (drawn + i) functionCall) ((asArray parts).filterMap partCall)
  rw [fromGeminiParts_eq, numbered]
  induction asArray parts with
  | nil => rfl
  | cons raw rest ih =>
      rw [List.flatMap_cons, ← ih, partCallItem]
      cases calls : partCall raw <;> simp [calls]

theorem rank_media {k : Nat} (below : k < 3) (shows : String → Bool) (speaker : Speaker)
    (part : Record) :
    (geminiMediaItems shows speaker part).filter (fun item => item.rank = k) = [] := by
  rw [geminiMediaItems, List.filter_append]
  split <;> split <;> simp [rank_shown below]

theorem results_geminiPart (shows : String → Bool) (role : String) (raw : Json) :
    (geminiPartItems shows role raw).filter (fun item => item.rank = 0) =
      (((asRecord (some raw)).field "functionResponse").map fun response =>
        Item.result (orEmptyObject ((asRecord (some response)).field "response"))).toList := by
  simp only [geminiPartItems, List.filter_append, rank_said, rank_media (show 0 < 3 by decide)]
  cases (asRecord (some raw)).field "functionResponse" <;> cases partCall raw <;>
    simp [Item.rank]

theorem text_geminiPart (shows : String → Bool) (role : String) (raw : Json) :
    (geminiPartItems shows role raw).filter (fun item => item.rank = 1) =
      said (speakerOf role) (partText raw) := by
  simp only [geminiPartItems, List.filter_append, rank_said, rank_media (show 1 < 3 by decide)]
  cases (asRecord (some raw)).field "functionResponse" <;> cases partCall raw <;>
    simp [Item.rank]

theorem calls_geminiPart (shows : String → Bool) (role : String) (raw : Json) :
    (geminiPartItems shows role raw).filter (fun item => item.rank = 2) =
      if role = "model" then
        ((partCall raw).map fun call =>
          Item.call (asString ((asRecord (some call)).field "name")) (callArgs call)).toList
      else [] := by
  simp only [geminiPartItems, List.filter_append, rank_said, rank_media (show 2 < 3 by decide)]
  by_cases model : role = "model" <;>
    cases (asRecord (some raw)).field "functionResponse" <;> cases partCall raw <;>
      simp [Item.rank, model]

theorem callArgs_eq (call : Json) :
    callArgs call = orEmptyObject ((asRecord (some call)).field "args") := by
  rw [callArgs]
  cases (asRecord (some call)).field "args" with
  | none => rfl
  | some value => cases value <;> rfl

theorem items_geminiToolMessage {raw : Json} (carried : raw.Carried) (shows : String → Bool)
    (role : String) :
    (geminiToolMessage raw.cloneSanitized).toList.flatMap (openaiMessageItems asWritten) =
      ((geminiPartItems shows role raw).filter fun item => item.rank = 0).map Item.copy := by
  rw [results_geminiPart, geminiToolMessage, field_cloneSanitized raw (by decide)]
  cases found : (asRecord (some raw)).field "functionResponse" with
  | none => rfl
  | some response =>
      have response_carried := carried.field found
      have value := carried_orEmptyObject
        fun v (found : (asRecord (some response)).field "response" = some v) =>
          response_carried.field found
      have written := asWritten_jsonStringify value
      have message (id name : Json) (text : String) : openaiMessageItems asWritten
          (.obj [("role", .str "tool"), ("tool_call_id", id), ("name", name),
            ("content", .str text)]) = [.result (asWritten text)] := rfl
      simp only [Option.map_some, Option.toList_some, List.flatMap_singleton, message,
        @field_cloneSanitized response "response" (by decide), orEmptyObject_clone, written]
      rfl

theorem partCallItem_clone {raw : Json} (carried : raw.Carried) (shows : String → Bool)
    (role : String) :
    (if modelRole role = "assistant" then partCallItem raw.cloneSanitized else []) =
      ((geminiPartItems shows role raw).filter fun item => item.rank = 2).map Item.copy := by
  have model : modelRole role = "assistant" ↔ role = "model" := by
    rw [modelRole]
    split <;> simp [*]
  rw [calls_geminiPart, partCallItem, partCall, field_cloneSanitized raw (by decide), ← partCall]
  simp only [model]
  cases found : partCall raw with
  | none => simp
  | some call =>
      have call_carried := carried.field found
      have value := carried_orEmptyObject
        fun v (found : (asRecord (some call)).field "args" = some v) => call_carried.field found
      simp only [Option.map_some, Option.toList_some, callArgs_eq,
        asString_field_clone call "name" (by decide), @field_cloneSanitized call "args" (by decide),
        orEmptyObject_clone, givenArguments_jsonStringify value]
      split <;> rfl

theorem partText_clone (raw : Json) : partText raw.cloneSanitized = partText raw := by
  have call : partCall raw.cloneSanitized = (partCall raw).map Json.cloneSanitized :=
    field_cloneSanitized raw (by decide)
  have thought : isThought raw.cloneSanitized = isThought raw := by
    rw [isThought, isThought, field_cloneSanitized raw (by decide)]
    cases (asRecord (some raw)).field "thought" with
    | none => rfl
    | some value => cases value <;> rfl
  rw [partText, partText, call, thought, Option.isSome_map, asString_field_clone raw "text" (by decide)]

theorem partsOf_clone (raw : Json) :
    asArray (partsOf raw.cloneSanitized) = (asArray (partsOf raw)).map Json.cloneSanitized := by
  rw [partsOf, field_cloneSanitized raw (by decide), asArray_clone, partsOf]

/-- The messages of a turn hold its items, rearranged. -/
theorem items_geminiTurn {raw : Json} (carried : raw.Carried)
    (turn : roleOf raw = "" ∨ roleOf raw = "user" ∨ roleOf raw = "model") (shows : String → Bool)
    (drawn : Nat) :
    ((asArray (partsOf raw.cloneSanitized)).filterMap geminiToolMessage ++
        contentMessage (roleOf raw.cloneSanitized) (fromGeminiParts (requestOptions draw) drawn
          (partsOf raw.cloneSanitized))).flatMap (openaiMessageItems asWritten) =
      rearranged (geminiContentItems shows raw) := by
  have parts_carried : ∀ part ∈ asArray (partsOf raw), part.Carried := by
    intro part mem
    cases parts : partsOf raw with
    | none => simp [parts, asArray] at mem
    | some value => exact (carried.field parts).item (parts ▸ mem)
  have results : ((asArray (partsOf raw)).map Json.cloneSanitized).flatMap (fun part =>
        (geminiToolMessage part).toList.flatMap (openaiMessageItems asWritten)) =
      (asArray (partsOf raw)).flatMap fun part =>
        ((geminiPartItems shows (roleOf raw) part).filter fun item => item.rank = 0).map
          Item.copy := by
    rw [List.flatMap_map]
    exact List.flatMap_congr fun part mem =>
      items_geminiToolMessage (parts_carried part mem) shows (roleOf raw)
  have calls : (if modelRole (roleOf raw) = "assistant" then
        ((asArray (partsOf raw)).map Json.cloneSanitized).flatMap partCallItem else []) =
      (asArray (partsOf raw)).flatMap fun part =>
        ((geminiPartItems shows (roleOf raw) part).filter fun item => item.rank = 2).map
          Item.copy := by
    rw [← List.flatMap_congr fun part mem =>
      partCallItem_clone (parts_carried part mem) shows (roleOf raw)]
    split <;> simp [List.flatMap_map]
  have speaker : speakerOf (modelRole (roleOf raw)) = speakerOf (roleOf raw) := by
    rcases turn with role | role | role <;> rw [role] <;> rfl
  rw [List.flatMap_append, items_contentMessage, calls_fromGeminiParts, fromGeminiParts_eq,
    flatMap_filterMap_toList, partsOf_clone, roleOf_clone, results, calls, said_textOf,
    rearranged_eq, speaker]
  simp only [geminiContentItems, List.filter_flatMap, List.map_flatMap, List.flatMap_map,
    partText_clone, text_geminiPart, copy_said, List.append_assoc]

theorem items_addGeminiContent {draft next : List Json × Nat} {raw : Json}
    (h : addGeminiContent draw draft raw = .ok next) :
    next.1.flatMap (openaiMessageItems asWritten) = draft.1.flatMap (openaiMessageItems asWritten) ++
      ((asArray (partsOf raw)).filterMap geminiToolMessage ++
        contentMessage (roleOf raw) (fromGeminiParts (requestOptions draw) 0
          (partsOf raw))).flatMap (openaiMessageItems asWritten) := by
  obtain ⟨-, messages, -⟩ := addGeminiContent_ok h
  rw [messages, List.flatMap_append, List.flatMap_append, List.flatMap_append,
    items_contentMessage, items_contentMessage, calls_fromGeminiParts, calls_fromGeminiParts,
    fromGeminiParts_eq, fromGeminiParts_eq]

theorem items_geminiSystem (system : Option Json) :
    (geminiSystem system).flatMap (openaiMessageItems asWritten) = [] := by
  have silent (text : String) : openaiMessageItems asWritten (systemMessage text) = [] := rfl
  rw [geminiSystem]
  split
  · rfl
  · rw [List.flatMap_singleton, silent]

theorem items_geminiToOpenaiRequest {config : TransformConfig} {body out : Record}
    {model : String} (shows : String → Bool) (json : IsJson body)
    (h : geminiToOpenaiRequest config draw body model = .ok out) :
    openaiItems asWritten out =
      (contentsOf body).flatMap fun raw => rearranged (geminiContentItems shows raw) := by
  obtain ⟨input, sanitized, h⟩ := bind_ok h
  obtain ⟨draft, loop, h⟩ := bind_ok h
  cases h
  obtain ⟨-, rfl⟩ := sanitizeParsed_ok sanitized
  rw [← contentsOf, contentsOf_clone] at loop
  have collected := foldlM_collects
    (fun draft : List Json × Nat => draft.1.flatMap (openaiMessageItems asWritten))
    (fun _ _ _ stepped => items_addGeminiContent draw stepped) loop
  have known := foldlM_requires
    (p := fun raw => roleOf raw = "" ∨ roleOf raw = "user" ∨ roleOf raw = "model")
    (fun _ _ _ stepped => (addGeminiContent_ok stepped).1) loop
  rw [List.forall_mem_map] at known
  have messages : messagesOf (openaiRequestOfGemini model (Json.cloneFields body) draft.1) =
      draft.1 := by
    simp [messagesOf, openaiRequestOfGemini, Record.field_cons]
  rw [openaiItems, messages, collected, items_geminiSystem, List.nil_append, List.flatMap_map]
  refine List.flatMap_congr fun raw mem => ?_
  have turn := known raw mem
  rw [roleOf_clone] at turn
  exact items_geminiTurn draw (json.carried mem) turn shows 0

theorem openai_keeps_gemini_iff {config : TransformConfig} {body out : Record} {model : String}
    (json : IsJson body) (h : geminiToOpenaiRequest config draw body model = .ok out) :
    (geminiItems isImage body).Sublist (openaiItems asWritten out) ↔
      ∀ raw ∈ contentsOf body, TurnKept (geminiContentItems isImage raw) := by
  rw [items_geminiToOpenaiRequest draw isImage json h, geminiItems,
    flatMap_sublist_iff fun raw _ => length_rearranged_le (geminiContentItems isImage raw)]
  simp only [rearranged_eq_iff]

end GeminiToOpenai

/-- What a conversation says comes out of a conversion in order exactly if every
turn is kept: results and arguments on the one side, images and order on the other. -/
theorem content_kept_iff (config : TransformConfig) (draw : Nat → String) :
    (∀ body out, openaiToAnthropicRequest config draw body = .ok out →
      ((openaiItems .str body).Sublist (anthropicItems out) ↔
        ∀ raw ∈ messagesOf body, MessageKept config.limits raw)) ∧
    (∀ body out, openaiToGeminiRequest config body = .ok out →
      ((openaiItems asContent body).Sublist (geminiItems anyMedia out) ↔
        ∀ raw ∈ messagesOf body, MessageKept config.limits raw)) ∧
    (∀ body out, IsJson body → anthropicToOpenaiRequest config draw body = .ok out →
      ((anthropicItems body).Sublist (openaiItems .str out) ↔
        ∀ raw ∈ messagesOf body, TurnKept (anthropicTurnItems raw))) ∧
    (∀ body model out, IsJson body → geminiToOpenaiRequest config draw body model = .ok out →
      ((geminiItems isImage body).Sublist (openaiItems asWritten out) ↔
        ∀ raw ∈ contentsOf body, TurnKept (geminiContentItems isImage raw))) :=
  ⟨fun _ _ => anthropic_keeps_iff, fun _ _ => gemini_keeps_iff,
    fun _ _ json => openai_keeps_anthropic_iff draw json,
    fun _ _ _ json => openai_keeps_gemini_iff draw json⟩

section Sunny

/-- A call that was answered, with the content that is given for the answer. -/
def answeredRequest (content : Json) : Record :=
  [("messages", .arr [.obj [("role", .str "user"), ("content", .str "Rome?")],
    .obj [("role", .str "tool"), ("tool_call_id", .str "call_1"), ("content", content)]])]

def sunnyParts : Json := .arr [.obj [("type", .str "text"), ("text", .str "sunny")]]

def imageTurn : Record :=
  [("messages", .arr [.obj [("role", .str "user"), ("content", .arr [.obj [("type", .str "image"),
    ("source", .obj [("type", .str "url"), ("url", .str "https://example.com/a.png")])]])]])]

def resultString : Item → Option String
  | .result (.str text) => some text
  | _ => none

theorem content_kept_sunny : ∃ out,
    openaiToAnthropicRequest ordinaryLimits (fun _ => "0") (answeredRequest (.str "sunny")) =
      .ok out ∧
    (openaiItems .str (answeredRequest (.str "sunny"))).Sublist (anthropicItems out) := by
  refine ⟨_, rfl, ((content_kept_iff ordinaryLimits fun _ => "0").1 _ _ rfl).mpr ?_⟩
  intro raw mem
  have messages : messagesOf (answeredRequest (.str "sunny")) =
      [.obj [("role", .str "user"), ("content", .str "Rome?")],
        .obj [("role", .str "tool"), ("tool_call_id", .str "call_1"),
          ("content", .str "sunny")]] := rfl
  rw [messages] at mem
  cases List.mem_cons.mp mem with
  | inl user =>
      rw [user]
      exact ⟨fun tool => absurd tool (by decide), fun call mem => absurd mem List.not_mem_nil⟩
  | inr tool =>
      rw [List.mem_singleton.mp tool]
      exact ⟨fun _ parts content => (nomatch content), fun call mem => absurd mem List.not_mem_nil⟩

/-- The text of a result given as parts is lost on the way out, and an image on the way back. -/
theorem parts_and_image_lost :
    (∃ out, openaiToAnthropicRequest ordinaryLimits (fun _ => "0") (answeredRequest sunnyParts) =
        .ok out ∧
      ¬(openaiItems .str (answeredRequest sunnyParts)).Sublist (anthropicItems out)) ∧
    ∃ out, anthropicToOpenaiRequest ordinaryLimits (fun _ => "0") imageTurn = .ok out ∧
      ¬(anthropicItems imageTurn).Sublist (openaiItems .str out) := by
  refine ⟨⟨_, rfl, fun kept => ?_⟩, ⟨_, rfl, fun kept => ?_⟩⟩
  · exact absurd (kept.filterMap resultString) (by decide +kernel)
  · exact absurd kept.length_le (by decide +kernel)

end Sunny

end Gateway
