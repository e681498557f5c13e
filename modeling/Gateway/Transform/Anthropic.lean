import Gateway.Transform.Sse

/-!
The event stream of an Anthropic upstream as a chunk stream.

The prompt side of the usage comes with the event that opens the message and
the completion side with the events that close it. Of the tokens written to a
cache only the flat total is kept; the split by lifetime is not read.
-/

namespace Gateway

def finishReasonFromAnthropic (stopReason : Option Json) : Option String :=
  match asString stopReason with
  | "end_turn" | "stop_sequence" => some "stop"
  | "max_tokens" => some "length"
  | "tool_use" => some "tool_calls"
  | "refusal" => some "content_filter"
  | "" => none
  | _ => some "stop"

structure AnthropicStream where
  toolIndexByBlock : List (ℚ × Nat)
  toolCount : Nat
  finished : Bool
  promptTokens : ℚ
  cachedTokens : ℚ
  cacheWriteTokens : ℚ
  completionTokens : ℚ

namespace AnthropicStream

def initial : AnthropicStream := ⟨[], 0, false, 0, 0, 0, 0⟩

def payloadOf (event : SseEvent) : Record := asRecord (parseSseData event.data)

/-- `asString(payload.type) || asString(event.event)` -/
def typeOf (event : SseEvent) : String :=
  let named := asString ((payloadOf event).field "type")
  if named = "" then event.event.getD "" else named

def startUsage (payload : Record) : Record :=
  asRecord ((asRecord (payload.field "message")).field "usage")

/-- One delta of an open content block. -/
def handleDelta (options : StreamOptions) (s : AnthropicStream) (payload : Record) : List Record :=
  let delta := asRecord (payload.field "delta")
  match asString (delta.field "type") with
  | "text_delta" =>
      let text := asString (delta.field "text")
      if text = "" then [] else [chunk options [("content", .str text)] none]
  | "thinking_delta" =>
      let thinking := asString (delta.field "thinking")
      if thinking = "" then [] else [chunk options [("reasoning_content", .str thinking)] none]
  | "input_json_delta" =>
      match s.toolIndexByBlock.lookup (asNumber (payload.field "index")) with
      | none => []
      | some toolIndex =>
          [chunk options [("tool_calls", .arr [.obj [("index", .ofNat toolIndex),
            ("function", .obj [("arguments", .str (asString (delta.field "partial_json")))])]])]
            none]
  | _ => []

def handleBlockStart (options : StreamOptions) (s : AnthropicStream) (payload : Record) :
    List Record × AnthropicStream :=
  let block := asRecord (payload.field "content_block")
  if asString (block.field "type") ≠ "tool_use" then ([], s)
  else
    let given := asString (block.field "id")
    let toolId := if given = "" then "toolu_" ++ options.randomId s.toolCount else given
    ([chunk options [("tool_calls", .arr [.obj [("index", .ofNat s.toolCount),
        ("id", .str toolId), ("type", .str "function"),
        ("function", .obj [("name", .str (asString (block.field "name"))),
          ("arguments", .str "")])]])] none],
      { s with
        toolIndexByBlock := (asNumber (payload.field "index"), s.toolCount) :: s.toolIndexByBlock
        toolCount := s.toolCount + 1 })

def errorChunk (options : StreamOptions) (error : Record) : Record :=
  let message := asString (error.field "message")
  let kind := asString (error.field "type")
  chunk options [] (some "error") ++ [("error", .obj [
    ("message", .str (if message = "" then "upstream stream error" else message)),
    ("type", .str (if kind = "" then "api_error" else kind))])]

def handle (options : StreamOptions) (s : AnthropicStream) (event : SseEvent) :
    List Record × AnthropicStream :=
  let payload := payloadOf event
  match typeOf event with
  | "message_start" =>
      let usage := startUsage payload
      ([chunk options [("role", .str "assistant"), ("content", .str "")] none],
        { s with
          promptTokens := asNumber (usage.field "input_tokens")
          cachedTokens := asNumber (usage.field "cache_read_input_tokens")
          cacheWriteTokens := asNumber (usage.field "cache_creation_input_tokens") })
  | "content_block_start" => handleBlockStart options s payload
  | "content_block_delta" => (handleDelta options s payload, s)
  | "message_delta" =>
      let usage := asRecord (payload.field "usage")
      let counted :=
        if usage.has "output_tokens" then
          { s with completionTokens := asNumber (usage.field "output_tokens") }
        else s
      match finishReasonFromAnthropic ((asRecord (payload.field "delta")).field "stop_reason") with
      | none => ([], counted)
      | some reason => ([chunk options [] (some reason)], { counted with finished := true })
  | "message_stop" => ([], { s with finished := true })
  | "error" =>
      ([errorChunk options (asRecord (payload.field "error"))], { s with finished := true })
  | _ => ([], s)

/-- The prompt side of the usage. -/
structure PromptMeter where
  input : ℚ
  cacheRead : ℚ
  cacheWrite : ℚ

def promptMeter (s : AnthropicStream) : PromptMeter :=
  ⟨s.promptTokens, s.cachedTokens, s.cacheWriteTokens⟩

/-- The usage block in the OpenAI shape, with the cache made part of the prompt. -/
def usageOf (meter : PromptMeter) (completionTokens : ℚ) : Record :=
  let prompt := meter.input + meter.cacheRead + meter.cacheWrite
  [("prompt_tokens", .ofRat prompt), ("completion_tokens", .ofRat completionTokens),
    ("total_tokens", .ofRat (prompt + completionTokens)),
    ("prompt_tokens_details", .obj [("cached_tokens", .ofRat meter.cacheRead),
      ("cache_creation_tokens", .ofRat meter.cacheWrite)])]

/-- `usage()` -/
def usageSoFar (s : AnthropicStream) : Record := usageOf s.promptMeter s.completionTokens

/-- What an event reports to the prompt side. -/
def reportPrompt (event : SseEvent) : Option PromptMeter :=
  if typeOf event = "message_start" then
    let usage := startUsage (payloadOf event)
    some ⟨asNumber (usage.field "input_tokens"), asNumber (usage.field "cache_read_input_tokens"),
      asNumber (usage.field "cache_creation_input_tokens")⟩
  else none

/-- What an event reports to the completion side. -/
def reportCompletion (event : SseEvent) : Option ℚ :=
  let usage := asRecord ((payloadOf event).field "usage")
  if typeOf event = "message_delta" ∧ usage.has "output_tokens" = true then
    some (asNumber (usage.field "output_tokens"))
  else none

/-- The meters move with the events that report to them, and with no other. -/
theorem meters_handle (options : StreamOptions) (s : AnthropicStream) (event : SseEvent) :
    (handle options s event).2.promptMeter = (reportPrompt event).getD s.promptMeter ∧
      (handle options s event).2.completionTokens =
        (reportCompletion event).getD s.completionTokens := by
  unfold handle reportPrompt reportCompletion
  split
  · next type => simp [type, promptMeter]
  · next type =>
      simp only [type, handleBlockStart]
      split <;> simp [promptMeter]
  · next type => simp [type, promptMeter]
  · next type =>
      simp only [type]
      by_cases counts : (asRecord ((payloadOf event).field "usage")).has "output_tokens" = true <;>
        split <;> simp [promptMeter, counts]
  · next type => simp [type, promptMeter]
  · next type => simp [type, promptMeter]
  · next started _ _ delta _ _ =>
      rw [if_neg started, if_neg (fun h => delta h.1)]
      exact ⟨rfl, rfl⟩

end AnthropicStream

end Gateway
