import Gateway.Relay.Metering
import Gateway.Transform.ClientResponses

/-!
What a client is told of its usage, against what it is billed.

The relay bills the provider's own block and the client reads the block of the
converted response. On the way the counts go through the OpenAI shape, which has
no cache writes, and out of it by subtractions that stop at zero.
-/

namespace Gateway

section Counts

/-- A count that a block may leave out. -/
def IsCount (value : Option Json) : Prop :=
  value = none ∨ value = some .null ∨ ∃ n : Nat, value = some (.ofNat n)

theorem IsCount.asNumber {value : Option Json} (count : IsCount value) :
    asNumber value = num value := by
  rcases count with rfl | rfl | ⟨n, rfl⟩
  · rfl
  · simp [num, toNumber, Gateway.asNumber]
  · rw [asNumber_ofNat, num_ofNat]

theorem IsCount.num_clone {value : Option Json} (count : IsCount value) :
    num (value.map Json.cloneSanitized) = num value := by
  rcases count with rfl | rfl | ⟨n, rfl⟩ <;> rfl

def shapeOf : Dialect → UsageShape
  | .openai => .openai
  | .anthropic => .anthropic
  | .gemini => .gemini

/-- The counts of a block that are billed or told. -/
def countsOf (wire : Dialect) (usage : Record) : List (Option Json) :=
  match wire with
  | .openai =>
      [usage.field "prompt_tokens", usage.field "completion_tokens",
        (asRecord (usage.field "prompt_tokens_details")).field "cached_tokens",
        (asRecord (usage.field "completion_tokens_details")).field "reasoning_tokens"]
  | .anthropic =>
      [usage.field "input_tokens", usage.field "output_tokens",
        usage.field "cache_read_input_tokens", usage.field "cache_creation_input_tokens",
        (asRecord (usage.field "cache_creation")).field "ephemeral_5m_input_tokens",
        (asRecord (usage.field "cache_creation")).field "ephemeral_1h_input_tokens"]
  | .gemini =>
      [usage.field "promptTokenCount", usage.field "candidatesTokenCount",
        usage.field "cachedContentTokenCount", usage.field "thoughtsTokenCount"]

/-- A usage block in the shape of a dialect, with whole counts. -/
structure IsUsage (wire : Dialect) (usage : Record) : Prop where
  shape : detectUsageShape usage = shapeOf wire
  counts : ∀ value ∈ countsOf wire usage, IsCount value

/-- Prompt, completion, cached tokens and the two kinds of cache writes. -/
def billedCounts (usage : NormalizedUsage) : Nat × Nat × Nat × Nat × Nat :=
  (usage.promptTokens, usage.completionTokens, usage.cachedTokens, usage.cacheWrite5mTokens,
    usage.cacheWrite1hTokens)

end Counts

section Canonical

/-- A value is read as a count in either way. -/
def Counts (value : Option Json) (n : Nat) : Prop := num value = n ∧ asNumber value = n

theorem counts_ofRat {q : ℚ} {n : Nat} (whole : q = n) : Counts (some (.ofRat q)) n := by
  rw [whole]
  exact ⟨by rw [num_ofRat, Int.floor_natCast, Int.toNat_natCast], rfl⟩

theorem IsCount.counts_clone {value : Option Json} (count : IsCount value) :
    Counts (value.map Json.cloneSanitized) (num value) :=
  ⟨count.num_clone, (asNumber_clone value).trans count.asNumber⟩

theorem IsCount.asNumber_field {usage : Record} {key : String}
    (count : IsCount (usage.field key)) (kept : key ∉ forbiddenKeys) :
    Gateway.asNumber (Record.field (Json.cloneFields usage) key) = num (usage.field key) := by
  rw [field_cloneFields usage kept, asNumber_clone, count.asNumber]

/-- The usage block of a response in the OpenAI shape, by what is read of it. -/
structure Canonical (usage : Record) (prompt completion cached reasoning : Nat) : Prop where
  shape : detectUsageShape usage = .openai
  prompt : Counts (usage.field "prompt_tokens") prompt
  completion : Counts (usage.field "completion_tokens") completion
  cached : Counts ((asRecord (usage.field "prompt_tokens_details")).field "cached_tokens") cached
  reasoning : Counts
    ((asRecord (usage.field "completion_tokens_details")).field "reasoning_tokens") reasoning

namespace Canonical

variable {usage : Record} {prompt completion cached reasoning : Nat}
  (canonical : Canonical usage prompt completion cached reasoning)
include canonical

theorem prompt_clone :
    asNumber (Record.field (Json.cloneFields usage) "prompt_tokens") = prompt := by
  rw [field_cloneFields usage (by decide), asNumber_clone, canonical.prompt.2]

theorem completion_clone :
    asNumber (Record.field (Json.cloneFields usage) "completion_tokens") = completion := by
  rw [field_cloneFields usage (by decide), asNumber_clone, canonical.completion.2]

theorem cached_clone :
    asNumber ((asRecord (Record.field (Json.cloneFields usage) "prompt_tokens_details")).field
      "cached_tokens") = cached := by
  rw [field_cloneFields usage (by decide), asRecord_clone, field_cloneFields _ (by decide),
    asNumber_clone, canonical.cached.2]

theorem reasoning_clone :
    asNumber ((asRecord (Record.field (Json.cloneFields usage) "completion_tokens_details")).field
      "reasoning_tokens") = reasoning := by
  rw [field_cloneFields usage (by decide), asRecord_clone, field_cloneFields _ (by decide),
    asNumber_clone, canonical.reasoning.2]

end Canonical

theorem has_cloneFields (usage : Record) {key : String} (kept : key ∉ forbiddenKeys) :
    Record.has (Json.cloneFields usage) key = usage.has key := by
  rw [Record.has, field_cloneFields usage kept, Option.isSome_map]
  rfl

theorem detectUsageShape_cloneFields (usage : Record) :
    detectUsageShape (Json.cloneFields usage) = detectUsageShape usage := by
  unfold detectUsageShape
  repeat rw [has_cloneFields usage (by decide)]

theorem canonical_clone {usage : Record} (reported : IsUsage .openai usage) :
    Canonical (Json.cloneFields usage) (num (usage.field "prompt_tokens"))
      (num (usage.field "completion_tokens"))
      (num ((asRecord (usage.field "prompt_tokens_details")).field "cached_tokens"))
      (num ((asRecord (usage.field "completion_tokens_details")).field "reasoning_tokens")) := by
  have count := reported.counts
  simp only [countsOf, List.forall_mem_cons] at count
  obtain ⟨prompt, completion, cached, reasoning, -⟩ := count
  refine ⟨(detectUsageShape_cloneFields usage).trans reported.shape, ?_, ?_, ?_, ?_⟩
  · rw [field_cloneFields usage (by decide)]
    exact prompt.counts_clone
  · rw [field_cloneFields usage (by decide)]
    exact completion.counts_clone
  · rw [field_cloneFields usage (by decide), asRecord_clone, field_cloneFields _ (by decide)]
    exact cached.counts_clone
  · rw [field_cloneFields usage (by decide), asRecord_clone, field_cloneFields _ (by decide)]
    exact reasoning.counts_clone

theorem canonical_anthropic {usage : Record} (reported : IsUsage .anthropic usage) :
    Canonical (usageFromAnthropic (some (.obj (Json.cloneFields usage))))
      (num (usage.field "input_tokens") + num (usage.field "cache_read_input_tokens") +
        num (usage.field "cache_creation_input_tokens"))
      (num (usage.field "output_tokens")) (num (usage.field "cache_read_input_tokens")) 0 := by
  have count := reported.counts
  simp only [countsOf, List.forall_mem_cons] at count
  obtain ⟨input, output, read, flat, -⟩ := count
  rw [usageFromAnthropic, asRecord_obj]
  rw [input.asNumber_field (by decide), output.asNumber_field (by decide),
    read.asNumber_field (by decide), flat.asNumber_field (by decide)]
  refine ⟨rfl, counts_ofRat ?_, counts_ofRat rfl, counts_ofRat rfl, rfl, rfl⟩
  push_cast
  rfl

theorem canonical_gemini {usage : Record} (reported : IsUsage .gemini usage) :
    Canonical (usageFromGemini (Json.cloneFields usage)) (num (usage.field "promptTokenCount"))
      (num (usage.field "candidatesTokenCount") + num (usage.field "thoughtsTokenCount"))
      (num (usage.field "cachedContentTokenCount")) (num (usage.field "thoughtsTokenCount")) := by
  have count := reported.counts
  simp only [countsOf, List.forall_mem_cons] at count
  obtain ⟨prompt, candidates, cached, thoughts, -⟩ := count
  rw [usageFromGemini]
  rw [prompt.asNumber_field (by decide), candidates.asNumber_field (by decide),
    cached.asNumber_field (by decide), thoughts.asNumber_field (by decide)]
  refine ⟨rfl, counts_ofRat rfl, counts_ofRat ?_, counts_ofRat rfl, counts_ofRat rfl⟩
  push_cast
  rfl

end Canonical

section Stages

/-- The counts of a block as the OpenAI shape has them: prompt, completion, cached, reasoning. -/
def canonicalCounts (wire : Dialect) (usage : Record) : Nat × Nat × Nat × Nat :=
  match wire with
  | .openai =>
      (num (usage.field "prompt_tokens"), num (usage.field "completion_tokens"),
        num ((asRecord (usage.field "prompt_tokens_details")).field "cached_tokens"),
        num ((asRecord (usage.field "completion_tokens_details")).field "reasoning_tokens"))
  | .anthropic =>
      (num (usage.field "input_tokens") + num (usage.field "cache_read_input_tokens") +
          num (usage.field "cache_creation_input_tokens"),
        num (usage.field "output_tokens"), num (usage.field "cache_read_input_tokens"), 0)
  | .gemini =>
      (num (usage.field "promptTokenCount"),
        num (usage.field "candidatesTokenCount") + num (usage.field "thoughtsTokenCount"),
        num (usage.field "cachedContentTokenCount"), num (usage.field "thoughtsTokenCount"))

/-- An assignment leaves the other fields. -/
theorem field_set_ne {r : Record} {key name : String} (value : Json) (distinct : key ≠ name) :
    (r.set name value).field key = r.field key := by
  have kept (r : Record) :
      Record.field (r.map fun entry => if entry.1 = name then (name, value) else entry) key =
        r.field key := by
    induction r with
    | nil => rfl
    | cons entry rest ih =>
        obtain ⟨other, old⟩ := entry
        rw [List.map_cons]
        dsimp only
        split
        · next same =>
            subst same
            rw [Record.field_cons, Record.field_cons, if_neg distinct, if_neg distinct, ih]
        · rw [Record.field_cons, Record.field_cons, ih]
  rw [Record.set]
  split
  · exact kept r
  · rw [Record.field_append, Record.field_cons, if_neg distinct, Record.field_nil, Option.or_none]

variable {limits : JsonLimits} {options : StreamOptions} {draw : Nat → String}
  {wire client : Dialect} {body canonical out usage : Record} {requestedModel : String}

theorem canonicalResponse_usage (reported : rawUsageOf wire body = some (.obj usage))
    (isUsage : IsUsage wire usage)
    (converted : canonicalResponse limits options wire body requestedModel = .ok canonical) :
    ∃ block, canonical.field "usage" = some (.obj block) ∧
      Canonical block (canonicalCounts wire usage).1 (canonicalCounts wire usage).2.1
        (canonicalCounts wire usage).2.2.1 (canonicalCounts wire usage).2.2.2 := by
  have cleaned (key : String) (kept : key ∉ forbiddenKeys)
      (there : body.field key = some (.obj usage)) :
      Record.field (Json.cloneFields body) key = some (.obj (Json.cloneFields usage)) := by
    rw [field_cloneFields body kept, there, Option.map_some, Json.cloneSanitized]
  cases wire with
  | openai =>
      obtain ⟨input, sanitized, rest⟩ := Fallible.bind_ok converted
      obtain ⟨-, rfl⟩ := sanitizeParsed_ok sanitized
      cases rest
      refine ⟨_, ?_, canonical_clone isUsage⟩
      have block := cleaned "usage" (by decide) reported
      split
      · exact block
      · rw [field_set_ne _ (by decide)]
        exact block
  | anthropic =>
      obtain ⟨input, sanitized, rest⟩ := Fallible.bind_ok converted
      obtain ⟨-, rfl⟩ := sanitizeParsed_ok sanitized
      cases rest
      refine ⟨_, rfl, ?_⟩
      rw [cleaned "usage" (by decide) reported]
      exact canonical_anthropic isUsage
  | gemini =>
      obtain ⟨input, sanitized, rest⟩ := Fallible.bind_ok converted
      obtain ⟨-, rfl⟩ := sanitizeParsed_ok sanitized
      cases rest
      refine ⟨_, rfl, ?_⟩
      rw [cleaned "usageMetadata" (by decide) reported, asRecord_obj]
      exact canonical_gemini isUsage

/-- What a client of a dialect reads of a block in the OpenAI shape. -/
def toldCounts (client : Dialect) (prompt completion cached reasoning : Nat) :
    Nat × Nat × Nat × Nat × Nat :=
  match client with
  | .openai => (prompt, completion, cached, 0, 0)
  | .anthropic => (max prompt cached, completion, cached, 0, 0)
  | .gemini => (prompt, max completion reasoning, cached, 0, 0)

theorem floor_surplus (a b : Nat) : ⌊max 0 ((a : ℚ) - b)⌋.toNat = a - b := by
  have exact : max 0 ((a : ℚ) - b) = ((max 0 ((a : Int) - b) : Int) : ℚ) := by push_cast; rfl
  rw [exact, Int.floor_intCast]
  omega

theorem told_openai {block : Record} {prompt completion cached reasoning : Nat}
    (canonical : Canonical block prompt completion cached reasoning) (semantic : UsageSemantic) :
    billedCounts (normalizeUsage (some (.obj block)) semantic) =
      toldCounts .openai prompt completion cached reasoning := by
  rw [normalizeUsage, asRecord_obj]
  simp only [canonical.shape, billedCounts, fromOpenAi, canonical.prompt.1,
    canonical.completion.1, canonical.cached.1, toldCounts, emptyUsage]

theorem told_anthropic {block : Record} {prompt completion cached reasoning : Nat}
    (canonical : Canonical block prompt completion cached reasoning) (semantic : UsageSemantic) :
    billedCounts
        (normalizeUsage (some (.obj (usageToAnthropic (Json.cloneFields block)))) semantic) =
      toldCounts .anthropic prompt completion cached reasoning := by
  have block_eq : usageToAnthropic (Json.cloneFields block) =
      [("input_tokens", .ofRat (max 0 ((prompt : ℚ) - cached))),
        ("cache_read_input_tokens", .ofRat cached), ("output_tokens", .ofRat completion)] := by
    rw [usageToAnthropic, canonical.prompt_clone, canonical.cached_clone, canonical.completion_clone]
  rw [block_eq]
  simp only [normalizeUsage, asRecord_obj, detectUsageShape, Record.has, Record.field_cons]
  simp [billedCounts, fromAnthropic, toldCounts, Record.field_cons, floor_surplus, asRecord,
    emptyUsage]
  omega

theorem told_gemini {block : Record} {prompt completion cached reasoning : Nat}
    (canonical : Canonical block prompt completion cached reasoning) (semantic : UsageSemantic) :
    billedCounts (normalizeUsage
        (some (.obj (GeminiFramer.usageMetadata (Json.cloneFields block)))) semantic) =
      toldCounts .gemini prompt completion cached reasoning := by
  have block_eq : GeminiFramer.usageMetadata (Json.cloneFields block) =
      [("promptTokenCount", .ofRat prompt),
        ("candidatesTokenCount", .ofRat (max 0 ((completion : ℚ) - reasoning))),
        ("thoughtsTokenCount", .ofRat reasoning),
        ("totalTokenCount", .ofRat (asNumber (block.field "total_tokens"))),
        ("cachedContentTokenCount", .ofRat cached)] := by
    rw [GeminiFramer.usageMetadata, canonical.prompt_clone, canonical.cached_clone,
      canonical.completion_clone, canonical.reasoning_clone, field_cloneFields block (by decide),
      asNumber_clone]
  rw [block_eq]
  simp only [normalizeUsage, asRecord_obj, detectUsageShape, Record.has, Record.field_cons]
  simp [billedCounts, fromGemini, toldCounts, Record.field_cons, floor_surplus, emptyUsage]
  omega

theorem transformResponse_usage (reported : rawUsageOf wire body = some (.obj usage))
    (isUsage : IsUsage wire usage) (semantic : UsageSemantic)
    (sent : transformResponse limits options draw wire client body requestedModel = .ok out) :
    billedCounts (normalizeUsage (rawUsageOf client out) semantic) =
      toldCounts client (canonicalCounts wire usage).1 (canonicalCounts wire usage).2.1
        (canonicalCounts wire usage).2.2.1 (canonicalCounts wire usage).2.2.2 := by
  obtain ⟨canonical, converted, sent⟩ := Fallible.bind_ok sent
  obtain ⟨block, there, reads⟩ := canonicalResponse_usage reported isUsage converted
  have cleaned : Record.field (Json.cloneFields canonical) "usage" =
      some (.obj (Json.cloneFields block)) := by
    rw [field_cloneFields canonical (by decide), there, Option.map_some, Json.cloneSanitized]
  cases client with
  | openai =>
      cases sent
      change billedCounts (normalizeUsage (out.field "usage") semantic) = _
      rw [there]
      exact told_openai reads semantic
  | anthropic =>
      obtain ⟨input, sanitized, rest⟩ := Fallible.bind_ok sent
      obtain ⟨-, rfl⟩ := sanitizeParsed_ok sanitized
      cases rest
      change billedCounts (normalizeUsage (some (.obj (usageToAnthropic
        (asRecord (Record.field (Json.cloneFields canonical) "usage"))))) semantic) = _
      rw [cleaned]
      exact told_anthropic reads semantic
  | gemini =>
      obtain ⟨input, sanitized, rest⟩ := Fallible.bind_ok sent
      obtain ⟨-, rfl⟩ := sanitizeParsed_ok sanitized
      cases rest
      change billedCounts (normalizeUsage (some (.obj (GeminiFramer.usageMetadata
        (asRecord (Record.field (Json.cloneFields canonical) "usage"))))) semantic) = _
      rw [cleaned]
      exact told_gemini reads semantic

/-- Nothing that is billed gets lost or clamped on the way to the client. -/
def ToldExactly (wire client : Dialect) (usage : Record) : Prop :=
  match wire, client with
  | .anthropic, _ =>
      num (usage.field "cache_creation_input_tokens") = 0 ∧
        num ((asRecord (usage.field "cache_creation")).field "ephemeral_5m_input_tokens") = 0 ∧
        num ((asRecord (usage.field "cache_creation")).field "ephemeral_1h_input_tokens") = 0
  | .openai, .anthropic =>
      num ((asRecord (usage.field "prompt_tokens_details")).field "cached_tokens") ≤
        num (usage.field "prompt_tokens")
  | .openai, .gemini =>
      num ((asRecord (usage.field "completion_tokens_details")).field "reasoning_tokens") ≤
        num (usage.field "completion_tokens")
  | .gemini, .anthropic =>
      num (usage.field "cachedContentTokenCount") ≤ num (usage.field "promptTokenCount")
  | .openai, .openai | .gemini, .openai | .gemini, .gemini => True

theorem toldCounts_iff (isUsage : IsUsage wire usage) (client : Dialect)
    (semantic : UsageSemantic) :
    toldCounts client (canonicalCounts wire usage).1 (canonicalCounts wire usage).2.1
        (canonicalCounts wire usage).2.2.1 (canonicalCounts wire usage).2.2.2 =
      billedCounts (normalizeUsage (some (.obj usage)) semantic) ↔
        ToldExactly wire client usage := by
  have shape := isUsage.shape
  rw [normalizeUsage, asRecord_obj]
  cases wire with
  | openai =>
      simp only [shape, shapeOf, billedCounts, fromOpenAi, canonicalCounts, emptyUsage]
      cases client with
      | openai => simp [toldCounts, ToldExactly]
      | anthropic => simp [toldCounts, ToldExactly]
      | gemini => simp [toldCounts, ToldExactly]
  | anthropic =>
      simp only [shape, shapeOf, billedCounts, fromAnthropic, canonicalCounts, emptyUsage]
      cases client with
      | openai | anthropic | gemini =>
          simp only [toldCounts, ToldExactly, Prod.mk.injEq, true_and]
          split <;> omega
  | gemini =>
      simp only [shape, shapeOf, billedCounts, fromGemini, canonicalCounts, emptyUsage]
      cases client with
      | openai => simp [toldCounts, ToldExactly]
      | anthropic => simp [toldCounts, ToldExactly]
      | gemini => simp [toldCounts, ToldExactly]

/-- The client's own reading of what it is told is what it is billed just where no count gets
lost or clamped. -/
theorem told_what_is_billed_iff (reported : rawUsageOf wire body = some (.obj usage))
    (isUsage : IsUsage wire usage) (semantic : UsageSemantic)
    (sent : transformResponse limits options draw wire client body requestedModel = .ok out) :
    billedCounts (normalizeUsage (rawUsageOf client out) semantic) =
        billedCounts (normalizeUsage (rawUsageOf wire body) semantic) ↔
      ToldExactly wire client usage := by
  rw [transformResponse_usage reported isUsage semantic sent, reported]
  exact toldCounts_iff isUsage client semantic

end Stages

section Samples

/-- A Gemini body that reports a prompt, of which a part was cached. -/
def geminiBody : Record := [("usageMetadata", .obj [("promptTokenCount", .ofNat 100),
  ("candidatesTokenCount", .ofNat 20), ("cachedContentTokenCount", .ofNat 40)])]

theorem told_what_is_billed_gemini :
    ∃ out, transformResponse ⟨24, 100⟩ plainOptions (fun _ => "") .gemini .anthropic geminiBody
        "claude-haiku-4" = .ok out ∧
      billedCounts (normalizeUsage (rawUsageOf .anthropic out) .inclusive) =
        billedCounts (normalizeUsage (rawUsageOf .gemini geminiBody) .inclusive) := by
  have converts : ∃ out, transformResponse ⟨24, 100⟩ plainOptions (fun _ => "") .gemini .anthropic
      geminiBody "claude-haiku-4" = .ok out := ⟨_, rfl⟩
  obtain ⟨out, sent⟩ := converts
  refine ⟨out, sent, (told_what_is_billed_iff rfl ⟨rfl, ?_⟩ .inclusive sent).mpr ?_⟩
  · intro value mem
    simp only [countsOf, List.mem_cons, List.not_mem_nil, or_false] at mem
    rcases mem with rfl | rfl | rfl | rfl
    · exact .inr (.inr ⟨100, rfl⟩)
    · exact .inr (.inr ⟨20, rfl⟩)
    · exact .inr (.inr ⟨40, rfl⟩)
    · exact .inl rfl
  · change num (some (.ofNat 40)) ≤ num (some (.ofNat 100))
    rw [num_ofNat, num_ofNat]
    decide

/-- The client of a response with a thousand tokens written to a cache is told of none. -/
theorem cache_write_untold :
    ∃ out, transformResponse ⟨24, 100⟩ plainOptions (fun _ => "") .anthropic .anthropic
        [("usage", .obj cacheWriteUsage.toRecord)] "claude-haiku-4" = .ok out ∧
      billedCounts (normalizeUsage (rawUsageOf .anthropic out) .inclusive) ≠
        billedCounts (normalizeUsage
          (rawUsageOf .anthropic [("usage", .obj cacheWriteUsage.toRecord)]) .inclusive) := by
  refine ⟨_, rfl, ?_⟩
  decide +kernel

end Samples

end Gateway
