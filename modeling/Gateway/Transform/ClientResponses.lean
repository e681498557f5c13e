import Gateway.Transform.Framing
import Gateway.Transform.GeminiRequest
import Gateway.Transform.Responses

/-!
Buffered responses in the client's dialect.

A response goes through the OpenAI shape whatever the two dialects are, and each
of the two conversions bounds and cleans the body it is given. The second one
draws its identifiers on its own.
-/

namespace Gateway

/-- The model name is rewritten when one was asked for. -/
def openaiResponsePassthrough (limits : JsonLimits) (body : Record) (requestedModel : String) :
    Except Thrown Record := do
  let input ← sanitizeParsed limits body
  return if requestedModel = "" then input else input.set "model" (.str requestedModel)

def stopReasonFromOpenai (finishReason : Option Json) : String :=
  match asString finishReason with
  | "length" => "max_tokens"
  | "tool_calls" | "function_call" => "tool_use"
  | "content_filter" => "refusal"
  | _ => "end_turn"

/-- Anthropic's `input_tokens` leaves the cached portion out. -/
def usageToAnthropic (usage : Record) : Record :=
  let cached :=
    asNumber ((asRecord (usage.field "prompt_tokens_details")).field "cached_tokens")
  let prompt := asNumber (usage.field "prompt_tokens")
  [("input_tokens", .ofRat (max 0 (prompt - cached))), ("cache_read_input_tokens", .ofRat cached),
    ("output_tokens", .ofRat (asNumber (usage.field "completion_tokens")))]

def openaiToAnthropicResponse (limits : JsonLimits) (draw : Nat → String) (body : Record)
    (requestedModel : String) : Except Thrown Record := do
  let input ← sanitizeParsed limits body
  let choice := asRecord (asArray (input.field "choices")).head?
  let message := asRecord (choice.field "message")
  let text := asString (message.field "content")
  let (calls, drawn) := toolUseBlocks limits draw 0 (asArray (message.field "tool_calls"))
  let content :=
    (if text = "" then [] else [.obj [("type", .str "text"), ("text", .str text)]]) ++ calls
  let given := asString (input.field "id")
  return [("id", .str (if given = "" then "msg_" ++ draw drawn else given)),
    ("type", .str "message"), ("role", .str "assistant"),
    ("model",
      .str (if requestedModel = "" then asString (input.field "model") else requestedModel)),
    ("content", .arr content),
    ("stop_reason", .str (stopReasonFromOpenai (choice.field "finish_reason"))),
    ("stop_sequence", .null), ("usage", .obj (usageToAnthropic (asRecord (input.field "usage"))))]

/-- The candidate of a choice at a position. -/
def geminiCandidate (limits : JsonLimits) (index : Nat) (rawChoice : Json) : Json :=
  let choice := asRecord (some rawChoice)
  let message := asRecord (choice.field "message")
  let text := asString (message.field "content")
  let parts :=
    (if text = "" then [] else [.obj [("text", .str text)]]) ++
      (asArray (message.field "tool_calls")).map (functionCallPart limits)
  .obj [("content", .obj [("role", .str "model"), ("parts", .arr parts)]),
    ("finishReason", .str (finishReasonToGemini (asString (choice.field "finish_reason")))),
    ("index", .ofRat (orNumber (asNumber (choice.field "index")) index)),
    ("safetyRatings", .arr [])]

def openaiToGeminiResponse (limits : JsonLimits) (body : Record) (requestedModel : String) :
    Except Thrown Record := do
  let input ← sanitizeParsed limits body
  return [("candidates", .arr ((asArray (input.field "choices")).mapIdx (geminiCandidate limits))),
    ("modelVersion",
      .str (if requestedModel = "" then asString (input.field "model") else requestedModel)),
    ("usageMetadata", .obj (GeminiFramer.usageMetadata (asRecord (input.field "usage"))))]

/-- The response in the OpenAI shape. -/
def canonicalResponse (limits : JsonLimits) (options : StreamOptions) (wire : Dialect)
    (body : Record) (requestedModel : String) : Except Thrown Record :=
  match wire with
  | .openai => openaiResponsePassthrough limits body requestedModel
  | .anthropic => anthropicToOpenaiResponse limits options body requestedModel
  | .gemini => geminiToOpenaiResponse limits options body requestedModel

def transformResponse (limits : JsonLimits) (options : StreamOptions) (draw : Nat → String)
    (wire client : Dialect) (body : Record) (requestedModel : String) : Except Thrown Record := do
  let canonical ← canonicalResponse limits options wire body requestedModel
  match client with
  | .openai => return canonical
  | .anthropic => openaiToAnthropicResponse limits draw canonical requestedModel
  | .gemini => openaiToGeminiResponse limits canonical requestedModel

end Gateway
