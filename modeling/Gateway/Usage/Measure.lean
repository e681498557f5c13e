import Gateway.Util.Json

/-!
What an upstream reports, as one canonical usage record.

Every provider counts differently. The canonical form is inclusive: the prompt
counts every prompt token once, with the cached, cache-write, image and audio
subsets broken out alongside it. Counts are exact; a sum of counts beyond the
safe integers would be rounded in the source.
-/

namespace Gateway

inductive UsageSemantic where
  | inclusive
  | exclusive
deriving DecidableEq, Repr

structure NormalizedUsage where
  promptTokens : Nat
  completionTokens : Nat
  cachedTokens : Nat
  cacheWrite5mTokens : Nat
  cacheWrite1hTokens : Nat
  imageTokens : Nat
  audioPromptTokens : Nat
  audioCompletionTokens : Nat
  reasoningTokens : Nat
  toolCalls : List (String × JsNumber)
deriving DecidableEq, Repr

/-- `EMPTY_USAGE` -/
def emptyUsage : NormalizedUsage := ⟨0, 0, 0, 0, 0, 0, 0, 0, 0, []⟩

/-- A finite positive number, rounded down; anything else counts as zero. -/
def num (value : Option Json) : Nat :=
  match toNumber value with
  | .finite q => ⌊q⌋.toNat
  | _ => 0

inductive UsageShape where
  | openai
  | anthropic
  | gemini
  | unknown
deriving DecidableEq, Repr

def detectUsageShape (r : Record) : UsageShape :=
  if r.has "promptTokenCount" || r.has "candidatesTokenCount" || r.has "totalTokenCount" then .gemini
  else if r.has "input_tokens" || r.has "output_tokens" then .anthropic
  else if r.has "prompt_tokens" || r.has "completion_tokens" then .openai
  else .unknown

def fromOpenAi (r : Record) : NormalizedUsage :=
  let promptDetails := asRecord (r.field "prompt_tokens_details")
  let completionDetails := asRecord (r.field "completion_tokens_details")
  { emptyUsage with
    promptTokens := num (r.field "prompt_tokens")
    completionTokens := num (r.field "completion_tokens")
    cachedTokens := num (promptDetails.field "cached_tokens")
    audioPromptTokens := num (promptDetails.field "audio_tokens")
    imageTokens := num (promptDetails.field "image_tokens")
    audioCompletionTokens := num (completionDetails.field "audio_tokens")
    reasoningTokens := num (completionDetails.field "reasoning_tokens") }

def fromAnthropic (r : Record) : NormalizedUsage :=
  let cacheRead := num (r.field "cache_read_input_tokens")
  let creation := asRecord (r.field "cache_creation")
  let write5m := num (creation.field "ephemeral_5m_input_tokens")
  let write1h := num (creation.field "ephemeral_1h_input_tokens")
  let flatCreation := num (r.field "cache_creation_input_tokens")
  let resolved5m := if write5m + write1h > 0 then write5m else flatCreation
  { emptyUsage with
    promptTokens := num (r.field "input_tokens") + cacheRead + resolved5m + write1h
    completionTokens := num (r.field "output_tokens")
    cachedTokens := cacheRead
    cacheWrite5mTokens := resolved5m
    cacheWrite1hTokens := write1h }

def fromGemini (r : Record) : NormalizedUsage :=
  let thoughts := num (r.field "thoughtsTokenCount")
  { emptyUsage with
    promptTokens := num (r.field "promptTokenCount")
    completionTokens := num (r.field "candidatesTokenCount") + thoughts
    cachedTokens := num (r.field "cachedContentTokenCount")
    reasoningTokens := thoughts }

/-- `a ?? b` on fields: `null` counts as missing. -/
def coalesce : Option Json → Option Json → Option Json
  | none, b | some .null, b => b
  | a, _ => a

def normalizeUsage (raw : Option Json) (semantic : UsageSemantic) : NormalizedUsage :=
  let r := asRecord raw
  match detectUsageShape r with
  | .openai => fromOpenAi r
  | .anthropic => fromAnthropic r
  | .gemini => fromGemini r
  | .unknown =>
      let prompt := num (coalesce (r.field "prompt_tokens")
        (coalesce (r.field "input_tokens") (r.field "promptTokens")))
      let cached := num (coalesce (r.field "cached_tokens") (r.field "cache_read_input_tokens"))
      { emptyUsage with
        promptTokens := if semantic = .exclusive then prompt + cached else prompt
        completionTokens := num (coalesce (r.field "completion_tokens")
          (coalesce (r.field "output_tokens") (r.field "completionTokens")))
        cachedTokens := cached }

@[simp]
theorem num_none : num none = 0 := rfl

@[simp]
theorem num_ofNat (n : Nat) : num (some (.ofNat n)) = n := by
  simp [num, toNumber, Json.ofNat]

@[simp]
theorem num_ofRat (q : ℚ) : num (some (.ofRat q)) = ⌊q⌋.toNat := rfl

end Gateway
