import Gateway.Transform.Translator
import Gateway.Usage.Billing

/-!
What a request is charged for: the usage of a buffered body and of a stream.

A buffered body is normalised from the provider's own usage block. A stream is
normalised from the translator's, which has been through the OpenAI shape. Both
are compared for every usage block a provider can report, with the counts that
each provider leaves out when they are zero taken as optional.
-/

namespace Gateway

def rawUsageOf (dialect : Dialect) (parsed : Record) : Option Json :=
  match dialect with
  | .gemini => parsed.field "usageMetadata"
  | _ => parsed.field "usage"

/-- The usage the relay charges for a buffered body. -/
def bufferedUsage (wire : Dialect) (body : Record) (semantic : UsageSemantic) : NormalizedUsage :=
  normalizeUsage (rawUsageOf wire body) semantic

/-- The usage the relay charges for a stream that ends after these events. -/
def streamedUsage (options : StreamOptions) (wire : Dialect) (events : List SseEvent)
    (semantic : UsageSemantic) : NormalizedUsage :=
  normalizeUsage
    (some (.obj ((createStreamTranslator wire).after options events).usageSoFar)) semantic

/-- A count that may be left out. -/
def countField (name : String) (count : Option Nat) : Record :=
  (count.map fun n => (name, Json.ofNat n)).toList

def recordField (name : String) (fields : Option Record) : Record :=
  (fields.map fun r => (name, Json.obj r)).toList

/-- `prompt_tokens_details` -/
structure PromptDetails where
  cachedTokens : Option Nat
  audioTokens : Option Nat
  imageTokens : Option Nat

/-- `completion_tokens_details` -/
structure CompletionDetails where
  reasoningTokens : Option Nat
  audioTokens : Option Nat

structure OpenaiUsage where
  promptTokens : Nat
  completionTokens : Nat
  totalTokens : Nat
  promptDetails : Option PromptDetails
  completionDetails : Option CompletionDetails

/-- `cache_creation` -/
structure CacheCreation where
  ephemeral5m : Option Nat
  ephemeral1h : Option Nat

structure AnthropicUsage where
  inputTokens : Nat
  outputTokens : Nat
  cacheRead : Option Nat
  cacheCreationFlat : Option Nat
  cacheCreation : Option CacheCreation

structure GeminiUsage where
  totalTokenCount : Nat
  promptTokenCount : Option Nat
  candidatesTokenCount : Option Nat
  cachedContentTokenCount : Option Nat
  thoughtsTokenCount : Option Nat

def PromptDetails.toRecord (d : PromptDetails) : Record :=
  countField "cached_tokens" d.cachedTokens ++ countField "audio_tokens" d.audioTokens ++
    countField "image_tokens" d.imageTokens

def CompletionDetails.toRecord (d : CompletionDetails) : Record :=
  countField "reasoning_tokens" d.reasoningTokens ++ countField "audio_tokens" d.audioTokens

def OpenaiUsage.toRecord (u : OpenaiUsage) : Record :=
  [("prompt_tokens", .ofNat u.promptTokens), ("completion_tokens", .ofNat u.completionTokens),
    ("total_tokens", .ofNat u.totalTokens)] ++
    recordField "prompt_tokens_details" (u.promptDetails.map PromptDetails.toRecord) ++
    recordField "completion_tokens_details" (u.completionDetails.map CompletionDetails.toRecord)

def CacheCreation.toRecord (c : CacheCreation) : Record :=
  countField "ephemeral_5m_input_tokens" c.ephemeral5m ++
    countField "ephemeral_1h_input_tokens" c.ephemeral1h

def AnthropicUsage.toRecord (u : AnthropicUsage) : Record :=
  [("input_tokens", .ofNat u.inputTokens), ("output_tokens", .ofNat u.outputTokens)] ++
    countField "cache_read_input_tokens" u.cacheRead ++
    countField "cache_creation_input_tokens" u.cacheCreationFlat ++
    recordField "cache_creation" (u.cacheCreation.map CacheCreation.toRecord)

def GeminiUsage.toRecord (u : GeminiUsage) : Record :=
  ("totalTokenCount", .ofNat u.totalTokenCount) ::
    (countField "promptTokenCount" u.promptTokenCount ++
      countField "candidatesTokenCount" u.candidatesTokenCount ++
      countField "cachedContentTokenCount" u.cachedContentTokenCount ++
      countField "thoughtsTokenCount" u.thoughtsTokenCount)

/-- A usage block of a provider. -/
inductive ProviderUsage where
  | openai (usage : OpenaiUsage)
  | anthropic (usage : AnthropicUsage)
  | gemini (usage : GeminiUsage)

namespace ProviderUsage

def wire : ProviderUsage → Dialect
  | .openai _ => .openai
  | .anthropic _ => .anthropic
  | .gemini _ => .gemini

def toRecord : ProviderUsage → Record
  | .openai u => u.toRecord
  | .anthropic u => u.toRecord
  | .gemini u => u.toRecord

end ProviderUsage

/-- The stream reports the usage block, the last of its kind. An Anthropic
stream reports it in two parts: the event that opens the message carries the
block with an output count of its own, a later one the final output count. -/
inductive Carries : ProviderUsage → List SseEvent → Prop
  | openai {u : OpenaiUsage} {name : Option String} {payload : Record}
      (before after : List SseEvent) (usage : payload.field "usage" = some (.obj u.toRecord))
      (quiet : ∀ e ∈ after, OpenaiStream.report e = none) :
      Carries (.openai u) (before ++ ⟨name, .json (.obj payload)⟩ :: after)
  | anthropic {u : AnthropicUsage} {opening closing : SseEvent}
      (before between after : List SseEvent) (firstOutput : Nat)
      (opens : AnthropicStream.typeOf opening = "message_start")
      (start : AnthropicStream.startUsage (AnthropicStream.payloadOf opening) =
        { u with outputTokens := firstOutput }.toRecord)
      (closes : AnthropicStream.typeOf closing = "message_delta")
      (output : (asRecord ((AnthropicStream.payloadOf closing).field "usage")).field
        "output_tokens" = some (.ofNat u.outputTokens))
      (quietBetween : ∀ e ∈ between, AnthropicStream.reportPrompt e = none)
      (quiet : ∀ e ∈ after,
        AnthropicStream.reportPrompt e = none ∧ AnthropicStream.reportCompletion e = none) :
      Carries (.anthropic u) (before ++ opening :: (between ++ closing :: after))
  | gemini {u : GeminiUsage} {name : Option String} {payload : Record}
      (before after : List SseEvent)
      (usage : payload.field "usageMetadata" = some (.obj u.toRecord))
      (quiet : ∀ e ∈ after, GeminiStream.report e = none) :
      Carries (.gemini u) (before ++ ⟨name, .json (.obj payload)⟩ :: after)

namespace OpenaiUsage

def cached (u : OpenaiUsage) : Nat := ((u.promptDetails.bind (·.cachedTokens)).getD 0)

def audioPrompt (u : OpenaiUsage) : Nat := ((u.promptDetails.bind (·.audioTokens)).getD 0)

def image (u : OpenaiUsage) : Nat := ((u.promptDetails.bind (·.imageTokens)).getD 0)

def reasoning (u : OpenaiUsage) : Nat := ((u.completionDetails.bind (·.reasoningTokens)).getD 0)

def audioCompletion (u : OpenaiUsage) : Nat := ((u.completionDetails.bind (·.audioTokens)).getD 0)

end OpenaiUsage

namespace AnthropicUsage

def read (u : AnthropicUsage) : Nat := u.cacheRead.getD 0

def flat (u : AnthropicUsage) : Nat := u.cacheCreationFlat.getD 0

def write5m (u : AnthropicUsage) : Nat := ((u.cacheCreation.bind (·.ephemeral5m)).getD 0)

def write1h (u : AnthropicUsage) : Nat := ((u.cacheCreation.bind (·.ephemeral1h)).getD 0)

end AnthropicUsage

/-- No count is lost on the way through the OpenAI shape: an OpenAI block has no
audio and image tokens, an Anthropic block no tokens written to a cache. -/
def Survives : ProviderUsage → Prop
  | .openai u => u.audioPrompt = 0 ∧ u.image = 0 ∧ u.audioCompletion = 0
  | .anthropic u => u.flat = 0 ∧ u.write5m = 0 ∧ u.write1h = 0
  | .gemini _ => True

section Fields

@[simp]
theorem field_countField (name key : String) (count : Option Nat) (rest : Record) :
    Record.field (countField name count ++ rest) key =
      (if key = name then count.map Json.ofNat else none).or (Record.field rest key) := by
  cases count with
  | none => simp [countField]
  | some n =>
      simp only [countField, Option.map_some, Option.toList_some, List.singleton_append,
        Record.field_cons]
      split <;> simp

@[simp]
theorem field_countField_last (name key : String) (count : Option Nat) :
    Record.field (countField name count) key =
      if key = name then count.map Json.ofNat else none := by
  simpa using field_countField name key count []

@[simp]
theorem field_recordField (name key : String) (fields : Option Record) (rest : Record) :
    Record.field (recordField name fields ++ rest) key =
      (if key = name then fields.map Json.obj else none).or (Record.field rest key) := by
  cases fields with
  | none => simp [recordField]
  | some r =>
      simp only [recordField, Option.map_some, Option.toList_some, List.singleton_append,
        Record.field_cons]
      split <;> simp

@[simp]
theorem field_recordField_last (name key : String) (fields : Option Record) :
    Record.field (recordField name fields) key =
      if key = name then fields.map Json.obj else none := by
  simpa using field_recordField name key fields []

@[simp]
theorem num_count (count : Option Nat) : num (count.map Json.ofNat) = count.getD 0 := by
  cases count <;> simp

@[simp]
theorem asNumber_count (count : Option Nat) :
    asNumber (count.map Json.ofNat) = (count.getD 0 : Nat) := by
  cases count <;> simp

@[simp]
theorem asRecord_map_obj (fields : Option Record) :
    asRecord (fields.map Json.obj) = fields.getD [] := by
  cases fields <;> rfl

end Fields

theorem openai_buffered (u : OpenaiUsage) (semantic : UsageSemantic) :
    normalizeUsage (some (.obj u.toRecord)) semantic =
      { emptyUsage with
        promptTokens := u.promptTokens
        completionTokens := u.completionTokens
        cachedTokens := u.cached
        audioPromptTokens := u.audioPrompt
        imageTokens := u.image
        audioCompletionTokens := u.audioCompletion
        reasoningTokens := u.reasoning } := by
  obtain ⟨prompt, completion, total, promptDetails, completionDetails⟩ := u
  cases promptDetails <;> cases completionDetails <;>
    simp [normalizeUsage, asRecord, detectUsageShape, Record.has, OpenaiUsage.toRecord,
      Record.field_cons, fromOpenAi, OpenaiUsage.cached, OpenaiUsage.audioPrompt,
      OpenaiUsage.image, OpenaiUsage.reasoning, OpenaiUsage.audioCompletion,
      PromptDetails.toRecord, CompletionDetails.toRecord]

theorem openai_streamed (u : OpenaiUsage) (semantic : UsageSemantic) :
    normalizeUsage (some (.obj (usageFromOpenai (some (.obj u.toRecord))))) semantic =
      { emptyUsage with
        promptTokens := u.promptTokens
        completionTokens := u.completionTokens
        cachedTokens := u.cached
        reasoningTokens := u.reasoning } := by
  obtain ⟨prompt, completion, total, promptDetails, completionDetails⟩ := u
  cases promptDetails <;> cases completionDetails <;>
    simp [normalizeUsage, asRecord, detectUsageShape, Record.has, OpenaiUsage.toRecord,
      Record.field_cons, fromOpenAi, usageFromOpenai, OpenaiUsage.cached, OpenaiUsage.reasoning,
      PromptDetails.toRecord, CompletionDetails.toRecord, emptyUsage]

theorem anthropic_buffered (u : AnthropicUsage) (semantic : UsageSemantic) :
    normalizeUsage (some (.obj u.toRecord)) semantic =
      let resolved5m := if u.write5m + u.write1h > 0 then u.write5m else u.flat
      { emptyUsage with
        promptTokens := u.inputTokens + u.read + resolved5m + u.write1h
        completionTokens := u.outputTokens
        cachedTokens := u.read
        cacheWrite5mTokens := resolved5m
        cacheWrite1hTokens := u.write1h } := by
  obtain ⟨input, output, read, flat, creation⟩ := u
  cases creation <;>
    simp [normalizeUsage, asRecord, detectUsageShape, Record.has, AnthropicUsage.toRecord,
      Record.field_cons, fromAnthropic, AnthropicUsage.read, AnthropicUsage.flat,
      AnthropicUsage.write5m, AnthropicUsage.write1h, CacheCreation.toRecord]

theorem anthropic_streamed (meter : AnthropicStream.PromptMeter) (completion : ℚ)
    (semantic : UsageSemantic) :
    normalizeUsage (some (.obj (AnthropicStream.usageOf meter completion))) semantic =
      { emptyUsage with
        promptTokens := ⌊meter.input + meter.cacheRead + meter.cacheWrite⌋.toNat
        completionTokens := ⌊completion⌋.toNat
        cachedTokens := ⌊meter.cacheRead⌋.toNat } := by
  simp [normalizeUsage, asRecord, detectUsageShape, Record.has, AnthropicStream.usageOf,
    Record.field_cons, fromOpenAi, emptyUsage]

theorem gemini_buffered (u : GeminiUsage) (semantic : UsageSemantic) :
    normalizeUsage (some (.obj u.toRecord)) semantic =
      { emptyUsage with
        promptTokens := u.promptTokenCount.getD 0
        completionTokens := u.candidatesTokenCount.getD 0 + u.thoughtsTokenCount.getD 0
        cachedTokens := u.cachedContentTokenCount.getD 0
        reasoningTokens := u.thoughtsTokenCount.getD 0 } := by
  simp [normalizeUsage, asRecord, detectUsageShape, Record.has, GeminiUsage.toRecord,
    Record.field_cons, fromGemini]

theorem gemini_streamed (u : GeminiUsage) (semantic : UsageSemantic) :
    normalizeUsage (some (.obj (usageFromGemini u.toRecord))) semantic =
      normalizeUsage (some (.obj u.toRecord)) semantic := by
  rw [gemini_buffered]
  simp [normalizeUsage, asRecord, detectUsageShape, Record.has, GeminiUsage.toRecord,
    Record.field_cons, fromOpenAi, usageFromGemini, emptyUsage]
  omega

/-- The usage charged for a stream is the normalised reading of its reports. -/
theorem streamedUsage_eq (options : StreamOptions) (wire : Dialect) (events : List SseEvent)
    (semantic : UsageSemantic) :
    streamedUsage options wire events semantic =
      normalizeUsage (some (.obj (reportedUsage wire events))) semantic := by
  rw [streamedUsage, StreamTranslator.usageSoFar_after]

/-- The block in the OpenAI shape, as the translator of its wire reports it. -/
def translatedUsage : ProviderUsage → Record
  | .openai u => usageFromOpenai (some (.obj u.toRecord))
  | .anthropic u => AnthropicStream.usageOf ⟨u.inputTokens, u.read, u.flat⟩ u.outputTokens
  | .gemini u => usageFromGemini u.toRecord

theorem reportedUsage_of_carries {u : ProviderUsage} {events : List SseEvent}
    (carried : Carries u events) : reportedUsage u.wire events = translatedUsage u := by
  cases carried with
  | @openai u name payload before after usage quiet =>
      have report : OpenaiStream.report ⟨name, .json (.obj payload)⟩ =
          some (usageFromOpenai (some (.obj u.toRecord))) := by
        simp [OpenaiStream.report, plainObject, OpenaiStream.reportedUsage, usage]
      simp only [ProviderUsage.wire, reportedUsage, lastReport_append, lastReport_cons,
        lastReport_quiet quiet, report, Option.none_or, Option.some_or, Option.getD_some]
      rfl
  | @anthropic u opening closing before between after first opens start closes output quietBetween
      quiet =>
      have prompt : AnthropicStream.reportPrompt opening =
          some ⟨u.inputTokens, u.read, u.flat⟩ := by
        simp [AnthropicStream.reportPrompt, opens, start, AnthropicUsage.toRecord,
          Record.field_cons, AnthropicUsage.read, AnthropicUsage.flat]
      have other : AnthropicStream.reportPrompt closing = none := by
        simp [AnthropicStream.reportPrompt, closes]
      have completion : AnthropicStream.reportCompletion closing = some u.outputTokens := by
        simp [AnthropicStream.reportCompletion, closes, Record.has, output]
      simp only [ProviderUsage.wire, reportedUsage, lastReport_append, lastReport_cons,
        lastReport_quiet quietBetween, lastReport_quiet (fun e mem => (quiet e mem).1),
        lastReport_quiet (fun e mem => (quiet e mem).2), prompt, other, completion,
        Option.none_or, Option.some_or, Option.getD_some]
      rfl
  | @gemini u name payload before after usage quiet =>
      have report : GeminiStream.report ⟨name, .json (.obj payload)⟩ = some u.toRecord := by
        simp [GeminiStream.report, parseSseData, asRecord, Record.has, usage]
      simp only [ProviderUsage.wire, reportedUsage, lastReport_append, lastReport_cons,
        lastReport_quiet quiet, report, Option.none_or, Option.some_or, Option.getD_some]
      rfl

/-- The two readings of a block agree just when it loses nothing. -/
theorem translated_agrees_iff (u : ProviderUsage) (semantic : UsageSemantic) :
    normalizeUsage (some (.obj (translatedUsage u))) semantic =
        normalizeUsage (some (.obj u.toRecord)) semantic ↔ Survives u := by
  cases u with
  | openai u =>
      simp only [translatedUsage, ProviderUsage.toRecord, openai_streamed, openai_buffered,
        Survives, NormalizedUsage.mk.injEq, emptyUsage, true_and, and_true]
      omega
  | anthropic u =>
      have whole : ⌊(u.inputTokens : ℚ) + u.read + u.flat⌋.toNat =
          u.inputTokens + u.read + u.flat := by
        have exact : (u.inputTokens : ℚ) + u.read + u.flat =
            ((u.inputTokens + u.read + u.flat : Nat) : ℚ) := by push_cast; rfl
        rw [exact, Int.floor_natCast, Int.toNat_natCast]
      simp only [translatedUsage, ProviderUsage.toRecord, anthropic_streamed, anthropic_buffered,
        Survives, NormalizedUsage.mk.injEq, emptyUsage, whole, Int.floor_natCast,
        Int.toNat_natCast, true_and, and_true]
      split <;> omega
  | gemini u => simpa only [translatedUsage, ProviderUsage.toRecord, Survives, iff_true] using
      gemini_streamed u semantic

/-- A stream and a buffered body that report one usage block are charged for
the same usage, and so the same quota at every price, just when the block has
no count that the OpenAI shape of the translators lacks. -/
theorem streaming_agrees_iff (options : StreamOptions) (semantic : UsageSemantic)
    {u : ProviderUsage} {events : List SseEvent} {body : Record} (carried : Carries u events)
    (reported : rawUsageOf u.wire body = some (.obj u.toRecord)) :
    (streamedUsage options u.wire events semantic = bufferedUsage u.wire body semantic ∧
      ∀ quotaPerUnit pricing groupRatio model,
        (computeQuota quotaPerUnit (streamedUsage options u.wire events semantic) pricing
          groupRatio model).quota =
        (computeQuota quotaPerUnit (bufferedUsage u.wire body semantic) pricing
          groupRatio model).quota) ↔ Survives u := by
  rw [streamedUsage_eq, reportedUsage_of_carries carried, bufferedUsage, reported,
    ← translated_agrees_iff u semantic]
  refine ⟨And.left, fun same => ⟨same, ?_⟩⟩
  intro quotaPerUnit pricing groupRatio model
  rw [same]

/-- Options of a translator whose output nobody reads. -/
def plainOptions : StreamOptions := ⟨"claude-haiku-4", "r", 0, false, fun _ => "", fun _ => "{}"⟩

def plainUsage : GeminiUsage := ⟨120, some 100, some 20, some 40, none⟩

theorem streaming_agrees_plain :
    streamedUsage plainOptions .gemini
        [⟨none, .json (.obj [("usageMetadata", .obj plainUsage.toRecord)])⟩] .inclusive =
      bufferedUsage .gemini [("usageMetadata", .obj plainUsage.toRecord)] .inclusive :=
  ((streaming_agrees_iff plainOptions .inclusive (u := .gemini plainUsage)
    (Carries.gemini [] [] rfl (by simp)) rfl).mpr trivial).1

/-- A thousand tokens written to a five-minute cache, in the older flat form. -/
def cacheWriteUsage : AnthropicUsage := ⟨100, 10, none, some 1000, none⟩

def cacheWriteStream : List SseEvent :=
  [⟨some "message_start", .json (.obj [("type", .str "message_start"),
      ("message", .obj [("usage", .obj cacheWriteUsage.toRecord)])])⟩,
    ⟨some "message_delta", .json (.obj [("type", .str "message_delta"),
      ("delta", .obj [("stop_reason", .str "end_turn")]),
      ("usage", .obj [("output_tokens", .ofNat 10)])])⟩]

def haikuPricing : ResolvedPricing where
  model := "claude-haiku-4"
  modelRatio := 1
  completionRatio := 5
  cachedRatio := 1 / 10
  cacheWrite5mRatio := 5 / 4
  cacheWrite1hRatio := 2
  imageRatio := 1
  audioRatio := 0
  audioCompletionRatio := 0
  perCallQuota := 0
  usageSemantic := .exclusive

/-- The stream is charged 1150 and the buffered body 1400. -/
theorem cache_write_undercharged :
    (computeQuota 500000 (streamedUsage plainOptions .anthropic cacheWriteStream .exclusive)
        haikuPricing 1 "claude-haiku-4").quota = 1150 ∧
      (computeQuota 500000 (bufferedUsage .anthropic
        [("usage", .obj cacheWriteUsage.toRecord)] .exclusive)
        haikuPricing 1 "claude-haiku-4").quota = 1400 ∧
      streamedUsage plainOptions .anthropic cacheWriteStream .exclusive ≠
        bufferedUsage .anthropic [("usage", .obj cacheWriteUsage.toRecord)] .exclusive := by
  decide +kernel

end Gateway
