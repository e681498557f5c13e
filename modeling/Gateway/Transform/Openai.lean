import Gateway.Transform.Sse

/-!
The stream of an upstream that speaks the client's own shape.

Chunks are forwarded with the model renamed. The usage block of the last frame
that has one is kept, in a shape of its own: it holds the cached and the
reasoning tokens and no other detail.
-/

namespace Gateway

def usageFromOpenai (raw : Option Json) : Record :=
  let usage := asRecord raw
  let prompt := asNumber (usage.field "prompt_tokens")
  let completion := asNumber (usage.field "completion_tokens")
  let total := asNumber (usage.field "total_tokens")
  [("prompt_tokens", .ofRat prompt), ("completion_tokens", .ofRat completion),
    ("total_tokens", .ofRat (if total = 0 then prompt + completion else total)),
    ("prompt_tokens_details", .obj [("cached_tokens",
      .ofRat (asNumber ((asRecord (usage.field "prompt_tokens_details")).field "cached_tokens")))]),
    ("completion_tokens_details", .obj [("reasoning_tokens",
      .ofRat (asNumber
        ((asRecord (usage.field "completion_tokens_details")).field "reasoning_tokens")))])]

structure OpenaiStream where
  finished : Bool
  usage : Record

namespace OpenaiStream

def initial : OpenaiStream := ⟨false, []⟩

/-- The usage block of a frame; `null` stands for none. -/
def reportedUsage (payload : Record) : Option Json :=
  (payload.field "usage").filter (fun raw => !raw matches .null)

def handle (options : StreamOptions) (s : OpenaiStream) (event : SseEvent) :
    List Record × OpenaiStream :=
  match event.data with
  | .done => ([], { s with finished := true })
  | data =>
      match plainObject data with
      | none => ([], s)
      | some payload =>
          let usage := (reportedUsage payload).elim s.usage (fun raw => usageFromOpenai (some raw))
          let renamed := payload.set "model" (.str options.model)
          let choices := asArray (renamed.field "choices")
          let ended := choices.any
            (fun choice => asString ((asRecord (some choice)).field "finish_reason") != "")
          let next : OpenaiStream := ⟨s.finished || ended, usage⟩
          if choices.isEmpty && payload.has "usage" && options.suppressUsageFrame then ([], next)
          else ([renamed], next)

/-- `usage()` -/
def usageSoFar (s : OpenaiStream) : Record :=
  if s.usage.isEmpty then usageFromOpenai none else s.usage

/-- What an event reports to the meter. -/
def report (event : SseEvent) : Option Record :=
  ((plainObject event.data).bind reportedUsage).map (fun raw => usageFromOpenai (some raw))

/-- The usage stays until a frame reports another one. -/
theorem usageSoFar_handle (options : StreamOptions) (s : OpenaiStream) (event : SseEvent) :
    (handle options s event).2.usageSoFar = (report event).getD s.usageSoFar := by
  obtain ⟨name, data⟩ := event
  cases data with
  | done | unparsed => rfl
  | json value =>
      cases value with
      | obj payload =>
          simp only [handle, plainObject, report, Option.bind_some]
          cases reportedUsage payload with
          | none => split <;> rfl
          | some raw => split <;> rfl
      | _ => rfl

end OpenaiStream

end Gateway
