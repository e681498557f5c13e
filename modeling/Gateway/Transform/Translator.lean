import Gateway.Transform.Openai
import Gateway.Transform.Anthropic
import Gateway.Transform.Gemini

/-!
One translator for each wire format.

The usage a translator answers depends on the events that report usage only, so
it is told from the stream without running the translator: `reportedUsage` is
that reading, and a translator agrees with it after any events.
-/

namespace Gateway

inductive StreamTranslator where
  | openai (s : OpenaiStream)
  | anthropic (s : AnthropicStream)
  | gemini (s : GeminiStream)

def createStreamTranslator : Dialect → StreamTranslator
  | .openai => .openai OpenaiStream.initial
  | .anthropic => .anthropic AnthropicStream.initial
  | .gemini => .gemini GeminiStream.initial

namespace StreamTranslator

def handle (options : StreamOptions) (event : SseEvent) :
    StreamTranslator → List Record × StreamTranslator
  | .openai s =>
      let (chunks, next) := s.handle options event
      (chunks, .openai next)
  | .anthropic s =>
      let (chunks, next) := s.handle options event
      (chunks, .anthropic next)
  | .gemini s =>
      let (chunks, next) := s.handle options event
      (chunks, .gemini next)

/-- `usage()` -/
def usageSoFar : StreamTranslator → Record
  | .openai s => s.usageSoFar
  | .anthropic s => s.usageSoFar
  | .gemini s => s.usageSoFar

/-- `done()` -/
def isDone : StreamTranslator → Bool
  | .openai s => s.finished
  | .anthropic s => s.finished
  | .gemini s => s.finished

/-- The translator after a stream of events. -/
def after (options : StreamOptions) (events : List SseEvent) (t : StreamTranslator) :
    StreamTranslator :=
  events.foldl (fun t event => (t.handle options event).2) t

theorem after_append (options : StreamOptions) (events later : List SseEvent)
    (t : StreamTranslator) :
    t.after options (events ++ later) = (t.after options events).after options later :=
  List.foldl_append

end StreamTranslator

/-- The usage of a stream, from the events that report it. -/
def reportedUsage (wire : Dialect) (events : List SseEvent) : Record :=
  match wire with
  | .openai => (lastReport OpenaiStream.report events).getD (usageFromOpenai none)
  | .anthropic =>
      AnthropicStream.usageOf ((lastReport AnthropicStream.reportPrompt events).getD ⟨0, 0, 0⟩)
        ((lastReport AnthropicStream.reportCompletion events).getD 0)
  | .gemini => usageFromGemini ((lastReport GeminiStream.report events).getD [])

namespace StreamTranslator

variable (options : StreamOptions) (events : List SseEvent)

theorem after_openai (s : OpenaiStream) :
    (openai s).after options events =
      openai (events.foldl (fun s event => (s.handle options event).2) s) := by
  induction events generalizing s with
  | nil => rfl
  | cons event events ih => exact ih (s.handle options event).2

theorem after_anthropic (s : AnthropicStream) :
    (anthropic s).after options events =
      anthropic (events.foldl (fun s event => (s.handle options event).2) s) := by
  induction events generalizing s with
  | nil => rfl
  | cons event events ih => exact ih (s.handle options event).2

theorem after_gemini (s : GeminiStream) :
    (gemini s).after options events =
      gemini (events.foldl (fun s event => (s.handle options event).2) s) := by
  induction events generalizing s with
  | nil => rfl
  | cons event events ih => exact ih (s.handle options event).2

/-- A translator answers the usage that was reported, whatever else happened. -/
theorem usageSoFar_after (wire : Dialect) :
    ((createStreamTranslator wire).after options events).usageSoFar =
      reportedUsage wire events := by
  cases wire with
  | openai =>
      rw [createStreamTranslator, after_openai]
      exact foldl_report _ OpenaiStream.usageSoFar (OpenaiStream.usageSoFar_handle options)
        OpenaiStream.initial events
  | anthropic =>
      rw [createStreamTranslator, after_anthropic]
      have prompt := foldl_report (fun s event => (AnthropicStream.handle options s event).2)
        AnthropicStream.promptMeter (fun s e => (AnthropicStream.meters_handle options s e).1)
        AnthropicStream.initial events
      have completion := foldl_report (fun s event => (AnthropicStream.handle options s event).2)
        AnthropicStream.completionTokens
        (fun s e => (AnthropicStream.meters_handle options s e).2) AnthropicStream.initial events
      simp only [usageSoFar, AnthropicStream.usageSoFar, prompt, completion]
      rfl
  | gemini =>
      rw [createStreamTranslator, after_gemini]
      have metadata := foldl_report (fun s event => (GeminiStream.handle options s event).2)
        GeminiStream.usageMetadata (GeminiStream.usageMetadata_handle options)
        GeminiStream.initial events
      simp only [usageSoFar, GeminiStream.usageSoFar, metadata]
      rfl

end StreamTranslator

end Gateway
