import Gateway.Relay.Lifecycle

/-!
What an abandoned stream is charged.

A cancellation settles for the usage the translator has seen, and a translator
has seen what the frames reported. So the charge of an abandoned stream is told
from the frames that were read: it is positive just when the usage reported so
far is worth something, which text that was delivered does not imply.
-/

namespace Gateway

/-- Usage without the counts that the OpenAI shape of the translators lacks. -/
structure NormalizedUsage.Plain (u : NormalizedUsage) : Prop where
  cacheWrite5m : u.cacheWrite5mTokens = 0
  cacheWrite1h : u.cacheWrite1hTokens = 0
  image : u.imageTokens = 0
  audioPrompt : u.audioPromptTokens = 0
  audioCompletion : u.audioCompletionTokens = 0
  tools : u.toolCalls = []

theorem openaiShape_plain (raw : Option Json) (semantic : UsageSemantic) :
    (normalizeUsage (some (.obj (usageFromOpenai raw))) semantic).Plain := by
  constructor <;>
    simp [normalizeUsage, asRecord, detectUsageShape, Record.has, usageFromOpenai,
      Record.field_cons, fromOpenAi, emptyUsage]

theorem reportedUsage_plain (wire : Dialect) (events : List SseEvent) (semantic : UsageSemantic) :
    (normalizeUsage (some (.obj (reportedUsage wire events))) semantic).Plain := by
  cases wire with
  | openai =>
      simp only [reportedUsage]
      cases reported : lastReport OpenaiStream.report events with
      | none => exact openaiShape_plain none semantic
      | some usage =>
          obtain ⟨event, _, fromFrame⟩ := exists_of_lastReport reported
          simp only [OpenaiStream.report, Option.map_eq_some_iff] at fromFrame
          obtain ⟨raw, _, rfl⟩ := fromFrame
          exact openaiShape_plain (some raw) semantic
  | anthropic =>
      simp only [reportedUsage]
      rw [anthropic_streamed]
      exact ⟨rfl, rfl, rfl, rfl, rfl, rfl⟩
  | gemini =>
      constructor <;>
        simp [normalizeUsage, asRecord, detectUsageShape, Record.has, reportedUsage,
          usageFromGemini, Record.field_cons, fromOpenAi, emptyUsage]

/-- The usage is worth something at the prices: a call, a completion token, a
prompt token that was not cached, or a cached one that is not free. -/
def Billable (pricing : ResolvedPricing) (u : NormalizedUsage) : Prop :=
  0 < pricing.perCallQuota ∨ 0 < u.completionTokens ∨ u.cachedTokens < u.promptTokens ∨
    (0 < u.cachedTokens ∧ 0 < pricing.cachedRatio)

instance (pricing : ResolvedPricing) (u : NormalizedUsage) : Decidable (Billable pricing u) :=
  inferInstanceAs (Decidable (_ ∨ _ ∨ _ ∨ _ ∧ _))

theorem add_pos_iff_of_nonneg {a b : ℚ} (ha : 0 ≤ a) (hb : 0 ≤ b) :
    0 < a + b ↔ 0 < a ∨ 0 < b := by
  constructor
  · intro positive
    by_contra none
    simp only [not_or, not_lt] at none
    linarith
  · intro either
    cases either with
    | inl pos => exact add_pos_of_pos_of_nonneg pos hb
    | inr pos => exact add_pos_of_nonneg_of_pos ha pos

theorem mul_pos_iff_of_nonneg_left {a b : ℚ} (ha : 0 ≤ a) :
    0 < a * b ↔ 0 < a ∧ 0 < b := by
  rw [mul_pos_iff]
  refine or_iff_left ?_
  rintro ⟨negative, _⟩
  linarith

/-- Plain usage is charged just when it is worth something. -/
theorem computeQuota_pos_iff (quotaPerUnit : ℚ) {u : NormalizedUsage} (plain : u.Plain)
    {pricing : ResolvedPricing} (modelPriced : 0 < pricing.modelRatio)
    (completionPriced : 0 < pricing.completionRatio) (groupRatio : ℚ) (model : String) :
    0 < (computeQuota quotaPerUnit u pricing groupRatio model).quota ↔ Billable pricing u := by
  have ratio : (0 : ℚ) < pricing.modelRatio := by exact_mod_cast modelPriced
  have completionRatio : (0 : ℚ) < pricing.completionRatio := by exact_mod_cast completionPriced
  have cachedRatio : (0 : ℚ) ≤ pricing.cachedRatio := pricing.cachedRatio.coe_nonneg
  have perCall : (0 : ℚ) ≤ pricing.perCallQuota := pricing.perCallQuota.coe_nonneg
  have group := groupFactor_pos groupRatio
  have cached : (0 : ℚ) ≤ u.cachedTokens := Nat.cast_nonneg _
  have completion : (0 : ℚ) ≤ u.completionTokens := Nat.cast_nonneg _
  have base := clampNonNegative_nonneg ((u.promptTokens : ℚ) - u.cachedTokens)
  have units : 0 ≤ clampNonNegative ((u.promptTokens : ℚ) - u.cachedTokens) +
      u.cachedTokens * pricing.cachedRatio := add_nonneg base (mul_nonneg cached cachedRatio)
  have text : 0 ≤ (clampNonNegative ((u.promptTokens : ℚ) - u.cachedTokens) +
      u.cachedTokens * pricing.cachedRatio + u.completionTokens * pricing.completionRatio) :=
    add_nonneg units (mul_nonneg completion completionRatio.le)
  have charge : (computeQuota quotaPerUnit u pricing groupRatio model).quota =
      roundCharge ((clampNonNegative ((u.promptTokens : ℚ) - u.cachedTokens) +
        u.cachedTokens * pricing.cachedRatio + u.completionTokens * pricing.completionRatio) *
          pricing.modelRatio * groupFactor groupRatio + pricing.perCallQuota) := by
    simp [computeQuota, plain.cacheWrite5m, plain.cacheWrite1h, plain.image, plain.audioPrompt,
      plain.audioCompletion, plain.tools, clampNonNegative, ratio.le, perCall]
  have priced := mul_nonneg (mul_nonneg text ratio.le) group.le
  rw [charge, roundCharge_pos_iff (add_nonneg priced perCall), add_pos_iff_of_nonneg priced perCall,
    mul_pos_iff_of_pos_right group, mul_pos_iff_of_pos_right ratio,
    add_pos_iff_of_nonneg units (mul_nonneg completion completionRatio.le),
    add_pos_iff_of_nonneg base (mul_nonneg cached cachedRatio),
    mul_pos_iff_of_nonneg_left cached, mul_pos_iff_of_pos_right completionRatio]
  have baseTokens : 0 < clampNonNegative ((u.promptTokens : ℚ) - u.cachedTokens) ↔
      u.cachedTokens < u.promptTokens := by
    simp [clampNonNegative]
  rw [baseTokens]
  simp only [Billable, Nat.cast_pos, NNRat.cast_pos]
  exact or_comm.trans (or_congr_right or_comm)

namespace StreamState

/-- The frame that an action hands to the translator, if it does. -/
def consumed (s : StreamState) : StreamAction → List SseEvent
  | .read (.frame event _) => if s.pull = .reading ∧ s.finished = false then [event] else []
  | _ => []

/-- The frames that a run hands to the translator. -/
def framesRead (ctx : StreamContext) : StreamState → List StreamAction → List SseEvent
  | _, [] => []
  | s, a :: as => s.consumed a ++ framesRead ctx (s.step ctx a) as

variable {ctx : StreamContext}

theorem translator_beginSettle (s : StreamState) (bill : Bill) :
    (s.beginSettle bill).2.translator = s.translator := by
  rw [beginSettle]
  split <;> rfl

theorem translator_finishStream (s : StreamState) (status : UsageStatus) :
    (s.finishStream ctx status).translator = s.translator := by
  rw [finishStream]
  split
  · rfl
  · exact translator_beginSettle { s with finished := true } _

theorem translator_handleFrame (s : StreamState) (event : SseEvent) (written : Bool) :
    (s.handleFrame ctx event written).translator =
      (s.translator.handle ctx.options event).2 := by
  simp only [handleFrame]
  split
  · rw [translator_finishStream]
  · rfl

/-- Only a frame that is read moves the translator, unless it throws. -/
theorem translator_step (s : StreamState) {a : StreamAction}
    (translated : ∀ left, a ≠ .read (.translatorError left)) :
    (s.step ctx a).translator = s.translator.after ctx.options (s.consumed a) := by
  cases a with
  | pull =>
      simp only [StreamState.step]
      split <;> rfl
  | pullStep failed =>
      simp only [StreamState.step]
      split <;> rfl
  | cancelStep failed =>
      simp only [StreamState.step]
      split <;> rfl
  | cancel =>
      simp only [StreamState.step]
      split
      · rfl
      · rfl
      · exact translator_beginSettle { s with cancelled := true, finished := true } _
  | read result =>
      simp only [StreamState.step]
      split
      · next reading =>
        simp only [handleRead]
        cases result with
        | frame event written =>
            cases running : s.finished with
            | true => simp [consumed, running, StreamTranslator.after]
            | false =>
                simp [consumed, running, reading, translator_handleFrame, StreamTranslator.after]
        | translatorError left => exact absurd rfl (translated left)
        | error | eof =>
            split
            · rfl
            · exact translator_finishStream s _
      · next idle =>
        cases result with
        | frame event written =>
            simp only [consumed]
            rw [if_neg (fun both => idle both.1)]
            rfl
        | translatorError left | error | eof => rfl

/-- The translator has seen the frames that were read, and nothing else. -/
theorem translator_run (s : StreamState) {as : List StreamAction}
    (translated : ∀ left, .read (.translatorError left) ∉ as) :
    (s.run ctx as).translator = s.translator.after ctx.options (framesRead ctx s as) := by
  induction as generalizing s with
  | nil => rfl
  | cons a as ih =>
      have first : (s.step ctx a).translator = s.translator.after ctx.options (s.consumed a) :=
        translator_step s (fun left same => translated left (same ▸ List.mem_cons_self))
      have rest := ih (s.step ctx a) (fun left mem => translated left (List.mem_cons_of_mem a mem))
      rw [framesRead, StreamTranslator.after_append, ← first, ← rest]
      rfl

end StreamState

/-- A client that goes away is charged more than nothing for a stream that has
delivered text to it just when the frames read so far report billable usage. The
cancellation may come after any events and in the middle of any await; a stream
that the translator threw on has ended in an error and is not abandoned. -/
theorem abandoned_charged_iff {input : RelayInput} {o : RelayOutcomes} {ctx : StreamContext}
    {r : RequestState} (handed : relay input o = (.stream ctx, r)) {as : List StreamAction}
    (translated : ∀ left, .read (.translatorError left) ∉ as)
    (modelPriced : 0 < ctx.pricing.modelRatio)
    (completionPriced : 0 < ctx.pricing.completionRatio) :
    let s := (StreamState.start ctx r).run ctx as
    let frames := (StreamState.start ctx r).framesRead ctx as
    ((∃ c ∈ s.delivered, completionText c ≠ "") →
        ∃ amount, settlements (s.step ctx .cancel).request.effects = [amount] ∧ 0 < amount) ↔
      (∀ c ∈ s.delivered, completionText c = "") ∨
        Billable ctx.pricing
          (normalizeUsage (some (.obj (reportedUsage ctx.wire frames))) ctx.semantic) := by
  intro s frames
  obtain ⟨amount, rfl⟩ := relay_handed handed
  have staged : s.Staged ctx [.reserveQuota amount] :=
    StreamState.staged_run (.inl (StreamState.open_start _ rfl)) as
  obtain ⟨status, step, calls⟩ := StreamState.cancel_settles staged
  have seen : s.translator.usageSoFar = reportedUsage ctx.wire frames := by
    have translator : s.translator =
        (createStreamTranslator ctx.wire).after ctx.options frames :=
      StreamState.translator_run _ translated
    rw [translator, StreamTranslator.usageSoFar_after]
  have settled : settlements (s.step ctx .cancel).request.effects =
      [(ctx.bill s.translator status).quota] := by
    rw [calls, settlements_append, settlements_calls]
    rfl
  have charged : 0 < (ctx.bill s.translator status).quota ↔
      Billable ctx.pricing
        (normalizeUsage (some (.obj (reportedUsage ctx.wire frames))) ctx.semantic) := by
    rw [StreamContext.bill, seen]
    exact computeQuota_pos_iff ctx.quotaPerUnit (reportedUsage_plain ctx.wire frames ctx.semantic)
      modelPriced completionPriced ctx.groupRatio ctx.billedModel
  simp only [settled, List.cons.injEq, and_true, exists_eq_left', charged]
  rw [imp_iff_not_or]
  simp only [not_exists, not_and, not_not]

/-- A streamed request to a model priced by its tokens. -/
def streamingInput : RelayInput where
  model := "claude-haiku-4"
  stream := true
  clientDialect := .openai
  requestId := "r"
  usageInjected := false
  promptEstimate := 100
  completionEstimate := 10
  preConsumedQuota := 500
  quotaPerUnit := 500000
  created := 0
  randomId := fun _ => ""
  stringify := fun _ => "{}"

/-- Every step succeeds, with a channel of the given wire format. -/
def streamingOutcomes (wire : Dialect) : RelayOutcomes where
  admission := .ok ()
  pricing := .ok (haikuPricing, 1)
  tokenBudget := .ok ()
  reserve := .ok ()
  upstream := .ok ⟨wire, true⟩
  text := .ok ()
  parsed := none
  transform := .ok ()
  finalize := .ok ()
  respond := .ok ()
  streamSetup := .ok ()

def streamingContext (wire : Dialect) : StreamContext where
  wire := wire
  options := ⟨"claude-haiku-4", "r", 0, false, fun _ => "", fun _ => "{}"⟩
  semantic := usageSemanticFor "claude-haiku-4"
  pricing := haikuPricing
  groupRatio := 1
  billedModel := "claude-haiku-4"
  quotaPerUnit := 500000

def textFrame (text : String) : SseEvent :=
  ⟨none, .json (.obj [("choices", .arr [.obj [("index", .ofNat 0),
    ("delta", .obj [("content", .str text)]), ("finish_reason", .null)]])])⟩

def openRequest : RequestState := ⟨false, false, false, [.reserveQuota 500]⟩

theorem relay_streaming (wire : Dialect) :
    relay streamingInput (streamingOutcomes wire) =
      (.stream (streamingContext wire), openRequest) := by
  have amount : max streamingInput.preConsumedQuota
      (Relay.estimatedQuota streamingInput haikuPricing 1) = 500 := by
    decide +kernel
  simp only [relay, streamingOutcomes, Relay.attempt, amount]
  rfl

/-- An OpenAI stream reports its usage at the end, so a client that leaves after
the first text pays nothing for it. -/
theorem abandoned_refunded :
    relay streamingInput (streamingOutcomes .openai) =
        (.stream (streamingContext .openai), openRequest) ∧
      0 < haikuPricing.modelRatio ∧ 0 < haikuPricing.completionRatio ∧
      let s := (StreamState.start (streamingContext .openai) openRequest).run
        (streamingContext .openai) [.pull, .read (.frame (textFrame "hello") true)]
      s.delivered.map completionText = ["hello"] ∧
        settlements (s.step (streamingContext .openai) .cancel).request.effects = [0] :=
  ⟨relay_streaming .openai, by decide +kernel⟩

/-- An Anthropic stream opens with the usage of the prompt. -/
def openingFrame : SseEvent :=
  ⟨some "message_start", .json (.obj [("type", .str "message_start"),
    ("message", .obj [("usage", .obj [("input_tokens", .ofNat 100),
      ("output_tokens", .ofNat 1)])])])⟩

def deltaFrame (text : String) : SseEvent :=
  ⟨some "content_block_delta", .json (.obj [("type", .str "content_block_delta"),
    ("index", .ofNat 0), ("delta", .obj [("type", .str "text_delta"), ("text", .str text)])])⟩

/-- The text of a stream that has opened is read and delivered. -/
def openedActions : List StreamAction :=
  [.pull, .read (.frame openingFrame true), .pull, .read (.frame (deltaFrame "hello") true)]

theorem abandoned_charged_opening :
    ∃ amount, settlements (((StreamState.start (streamingContext .anthropic) openRequest).run
      (streamingContext .anthropic) openedActions).step (streamingContext .anthropic)
        .cancel).request.effects = [amount] ∧ 0 < amount := by
  have translated : ∀ left, .read (.translatorError left) ∉ openedActions := by
    simp [openedActions]
  exact (abandoned_charged_iff (relay_streaming .anthropic) translated (by decide +kernel)
    (by decide +kernel)).mpr (.inr (by decide +kernel)) (by decide +kernel)

end Gateway
