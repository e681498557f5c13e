import Gateway.Transform.AnthropicRequest
import Gateway.Transform.Gemini

/-!
Buffered responses in the OpenAI shape.

The body that comes in is bounded and cleaned before anything is read from it.
What a conversion draws and reads from the clock is in the options, as for a
stream.
-/

namespace Gateway

/-- The message of a choice; the content is `null` next to calls alone. -/
def responseMessage (text reasoning : String) (toolCalls : List Record) : Record :=
  [("role", .str "assistant"),
    ("content", if text = "" ∧ toolCalls ≠ [] then .null else .str text)] ++
  toolCallsField toolCalls ++
  optional "reasoning_content" (if reasoning = "" then none else some (.str reasoning))

def responseChoice (index : ℚ) (message : Record) (finishReason : String) : Json :=
  .obj [("index", .ofRat index), ("message", .obj message), ("finish_reason", .str finishReason)]

def chatCompletion (options : StreamOptions) (id requestedModel model : String)
    (choices : List Json) (usage : Record) : Record :=
  [("id", .str (if id = "" then options.id else id)), ("object", .str "chat.completion"),
    ("created", .ofNat options.created),
    ("model", .str (if requestedModel = "" then model else requestedModel)),
    ("choices", .arr choices), ("usage", .obj usage)]

def usageFromAnthropic (raw : Option Json) : Record :=
  let usage := asRecord raw
  AnthropicStream.usageOf
    ⟨asNumber (usage.field "input_tokens"), asNumber (usage.field "cache_read_input_tokens"),
      asNumber (usage.field "cache_creation_input_tokens")⟩
    (asNumber (usage.field "output_tokens"))

def anthropicToOpenaiResponse (limits : JsonLimits) (options : StreamOptions) (body : Record)
    (requestedModel : String) : Except Thrown Record := do
  let input ← sanitizeParsed limits body
  let parts := fromAnthropicBlocks options.randomId 0 (input.field "content")
  let finishReason := (finishReasonFromAnthropic (input.field "stop_reason")).getD "stop"
  return chatCompletion options (asString (input.field "id")) requestedModel
    (asString (input.field "model"))
    [responseChoice 0 (responseMessage parts.text parts.reasoning parts.toolCalls) finishReason]
    (usageFromAnthropic (input.field "usage"))

/-- The choices of the candidates from position `index` on; `drawn` ids are taken. -/
def geminiChoices (options : StreamOptions) : (index drawn : Nat) → List Json → List Json
  | _, _, [] => []
  | index, drawn, raw :: rest =>
      let candidate := asRecord (some raw)
      let parts := fromGeminiParts options drawn
        ((asRecord (candidate.field "content")).field "parts")
      let finishReason :=
        (finishReasonFromGemini (candidate.field "finishReason") (!parts.toolCalls.isEmpty)).getD
          "stop"
      responseChoice (orNumber (asNumber (candidate.field "index")) index)
        (responseMessage parts.text parts.reasoning parts.toolCalls) finishReason ::
        geminiChoices options (index + 1) (drawn + parts.toolCalls.length) rest

/-- The choice of a prompt that was blocked before any candidate. -/
def blockedChoice (promptFeedback : Option Json) : Json :=
  let blockReason := asString ((asRecord promptFeedback).field "blockReason")
  responseChoice 0 [("role", .str "assistant"), ("content", .str "")]
    (if blockReason = "" then "stop" else "content_filter")

def geminiToOpenaiResponse (limits : JsonLimits) (options : StreamOptions) (body : Record)
    (requestedModel : String) : Except Thrown Record := do
  let input ← sanitizeParsed limits body
  let candidates := asArray (input.field "candidates")
  let choices :=
    if candidates.isEmpty then [blockedChoice (input.field "promptFeedback")]
    else geminiChoices options 0 0 candidates
  return chatCompletion options "" requestedModel (asString (input.field "modelVersion")) choices
    (usageFromGemini (asRecord (input.field "usageMetadata")))

end Gateway
