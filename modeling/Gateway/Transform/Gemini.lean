import Gateway.Transform.Sse

/-!
The frames of a Gemini upstream as a chunk stream.

A frame is a whole response object. Its usage block replaces the one before it,
so the last frame that has one decides.
-/

namespace Gateway

def finishReasonFromGemini (reason : Option Json) (hasToolCall : Bool) : Option String :=
  match asString reason with
  | "" => none
  | "STOP" => some (if hasToolCall then "tool_calls" else "stop")
  | "MAX_TOKENS" => some "length"
  | "SAFETY" | "RECITATION" | "BLOCKLIST" | "PROHIBITED_CONTENT" | "SPII" => some "content_filter"
  | _ => some "stop"

/-- What the parts of a candidate hold, with the tool calls in order. -/
structure GeminiParts where
  text : String
  reasoning : String
  toolCalls : List Record

/-- One part; `count` numbers the random ids. -/
def addGeminiPart (options : StreamOptions) (count : Nat) (parts : GeminiParts) (raw : Json) :
    GeminiParts :=
  let part := asRecord (some raw)
  match part.field "functionCall", part.field "text" with
  | some functionCall, _ =>
      let call := asRecord (some functionCall)
      let args :=
        match call.field "args" with
        | none | some .null => .obj []
        | some args => args
      { parts with toolCalls := parts.toolCalls ++
          [[("id", .str ("call_" ++ options.randomId (count + parts.toolCalls.length))),
            ("type", .str "function"),
            ("function", .obj [("name", .str (asString (call.field "name"))),
              ("arguments", .str (options.stringify args))])]] }
  | none, some text =>
      match part.field "thought" with
      | some (.bool true) => { parts with reasoning := parts.reasoning ++ asString (some text) }
      | _ => { parts with text := parts.text ++ asString (some text) }
  | none, none => parts

def fromGeminiParts (options : StreamOptions) (count : Nat) (parts : Option Json) : GeminiParts :=
  (asArray parts).foldl (addGeminiPart options count) ⟨"", "", []⟩

section Parts

/-- A part that calls a function holds nothing else. -/
def partCall (raw : Json) : Option Json := (asRecord (some raw)).field "functionCall"

def isThought (raw : Json) : Bool := (asRecord (some raw)).field "thought" matches some (.bool true)

def partText (raw : Json) : String :=
  if (partCall raw).isSome ∨ isThought raw then "" else asString ((asRecord (some raw)).field "text")

def partReasoning (raw : Json) : String :=
  if (partCall raw).isSome ∨ !isThought raw then ""
  else asString ((asRecord (some raw)).field "text")

def textOf : List Json → String
  | [] => ""
  | raw :: rest => partText raw ++ textOf rest

def reasoningOf : List Json → String
  | [] => ""
  | raw :: rest => partReasoning raw ++ reasoningOf rest

/-- `call.args ?? {}` -/
def callArgs (functionCall : Json) : Json :=
  match (asRecord (some functionCall)).field "args" with
  | none | some .null => .obj []
  | some args => args

/-- A function call as a tool call. -/
def geminiToolCall (options : StreamOptions) (id : Nat) (functionCall : Json) : Record :=
  [("id", .str ("call_" ++ options.randomId id)), ("type", .str "function"),
    ("function", .obj [("name", .str (asString ((asRecord (some functionCall)).field "name"))),
      ("arguments", .str (options.stringify (callArgs functionCall)))])]

variable (options : StreamOptions) (count : Nat)

theorem addGeminiPart_eq (parts : GeminiParts) (raw : Json) :
    addGeminiPart options count parts raw =
      ⟨parts.text ++ partText raw, parts.reasoning ++ partReasoning raw,
        parts.toolCalls ++ ((partCall raw).map
          (geminiToolCall options (count + parts.toolCalls.length))).toList⟩ := by
  simp only [addGeminiPart]
  split
  · next functionCall calls =>
      simp [partText, partReasoning, partCall, calls, geminiToolCall, callArgs]
  · next text no_call is_text =>
      split
      · next thought => simp [partText, partReasoning, partCall, isThought, no_call, is_text, thought]
      · simp [partText, partReasoning, partCall, isThought, no_call, is_text]
  · next no_call no_text =>
      simp [partText, partReasoning, partCall, no_call, no_text, asString]

theorem foldl_addGeminiPart (raws : List Json) (parts : GeminiParts) :
    raws.foldl (addGeminiPart options count) parts =
      ⟨parts.text ++ textOf raws, parts.reasoning ++ reasoningOf raws,
        parts.toolCalls ++ (raws.filterMap partCall).mapIdx fun i =>
          geminiToolCall options (count + parts.toolCalls.length + i)⟩ := by
  induction raws generalizing parts with
  | nil => simp [textOf, reasoningOf]
  | cons raw rest ih =>
      rw [List.foldl_cons, ih, addGeminiPart_eq]
      cases calls : partCall raw with
      | none => simp [textOf, reasoningOf, calls, String.append_assoc]
      | some call =>
          simp [textOf, reasoningOf, calls, String.append_assoc, List.mapIdx_cons,
            Nat.add_assoc, Nat.add_comm 1]

theorem fromGeminiParts_eq (parts : Option Json) :
    fromGeminiParts options count parts =
      ⟨textOf (asArray parts), reasoningOf (asArray parts),
        ((asArray parts).filterMap partCall).mapIdx fun i =>
          geminiToolCall options (count + i)⟩ := by
  rw [fromGeminiParts, foldl_addGeminiPart]
  simp

end Parts

def usageFromGemini (usage : Record) : Record :=
  let prompt := asNumber (usage.field "promptTokenCount")
  let reasoning := asNumber (usage.field "thoughtsTokenCount")
  let completion := asNumber (usage.field "candidatesTokenCount") + reasoning
  [("prompt_tokens", .ofRat prompt), ("completion_tokens", .ofRat completion),
    ("total_tokens", .ofRat (prompt + completion)),
    ("prompt_tokens_details", .obj [("cached_tokens",
      .ofRat (asNumber (usage.field "cachedContentTokenCount")))]),
    ("completion_tokens_details", .obj [("reasoning_tokens", .ofRat reasoning)])]

structure GeminiStream where
  sentRole : Bool
  toolCount : Nat
  finished : Bool
  usageMetadata : Record

namespace GeminiStream

def initial : GeminiStream := ⟨false, 0, false, []⟩

def toolChunk (options : StreamOptions) (toolCount : Nat) (index : Nat) (call : Record) : Record :=
  chunk options [("tool_calls", .arr [.obj (call ++ [("index", .ofNat (toolCount + index))])])] none

/-- The chunks of one frame after the opening one. -/
def contentChunks (options : StreamOptions) (toolCount : Nat) (parts : GeminiParts)
    (reason : Option String) : List Record :=
  (if parts.reasoning = "" then []
    else [chunk options [("reasoning_content", .str parts.reasoning)] none]) ++
  (if parts.text = "" then [] else [chunk options [("content", .str parts.text)] none]) ++
  parts.toolCalls.mapIdx (toolChunk options toolCount) ++
  (reason.elim [] fun reason => [chunk options [] (some reason)])

def handle (options : StreamOptions) (s : GeminiStream) (event : SseEvent) :
    List Record × GeminiStream :=
  let payload := asRecord (parseSseData event.data)
  if payload.isEmpty then ([], s)
  else
    let usageMetadata :=
      if payload.has "usageMetadata" then asRecord (payload.field "usageMetadata")
      else s.usageMetadata
    let opening :=
      if s.sentRole then []
      else [chunk options [("role", .str "assistant"), ("content", .str "")] none]
    let candidate := asRecord (asArray (payload.field "candidates")).head?
    let parts := fromGeminiParts options s.toolCount
      ((asRecord (candidate.field "content")).field "parts")
    let reason := finishReasonFromGemini (candidate.field "finishReason") (!parts.toolCalls.isEmpty)
    (opening ++ contentChunks options s.toolCount parts reason,
      ⟨true, s.toolCount + parts.toolCalls.length, s.finished || reason.isSome, usageMetadata⟩)

/-- `usage()` -/
def usageSoFar (s : GeminiStream) : Record := usageFromGemini s.usageMetadata

/-- What an event reports to the meter. -/
def report (event : SseEvent) : Option Record :=
  let payload := asRecord (parseSseData event.data)
  if payload.has "usageMetadata" then some (asRecord (payload.field "usageMetadata")) else none

/-- The usage block stays until a frame has another one. -/
theorem usageMetadata_handle (options : StreamOptions) (s : GeminiStream) (event : SseEvent) :
    (handle options s event).2.usageMetadata = (report event).getD s.usageMetadata := by
  simp only [handle, report]
  split
  · next empty => simp [List.isEmpty_iff.mp empty, Record.has]
  · by_cases counts : (asRecord (parseSseData event.data)).has "usageMetadata" = true <;>
      simp [counts]

end GeminiStream

end Gateway
