import Gateway.Transform.AnthropicRequest
import Gateway.Transform.Gemini

/-!
Requests between the OpenAI and the Gemini shape.

Gemini has no system role and calls the assistant `model`. A tool result is a part
of a user turn and is kept under the name of the function, not under the id of
the call; the ids of calls are drawn on the way back.
-/

namespace Gateway

section ToGemini

def harmCategories : List String :=
  ["HARM_CATEGORY_HARASSMENT", "HARM_CATEGORY_HATE_SPEECH", "HARM_CATEGORY_SEXUALLY_EXPLICIT",
    "HARM_CATEGORY_DANGEROUS_CONTENT", "HARM_CATEGORY_CIVIC_INTEGRITY"]

def geminiPart (raw : Json) : Option Json :=
  let part := asRecord (some raw)
  match asString (part.field "type") with
  | "text" =>
      let text := asString (part.field "text")
      if text = "" then none else some (.obj [("text", .str text)])
  | "image_url" =>
      let url := asString ((asRecord (part.field "image_url")).field "url")
      if url = "" then none
      else
        match splitDataUrl url with
        | some (media, data) =>
            some (.obj [("inlineData", .obj [("mimeType", .str media), ("data", .str data)])])
        | none =>
            some (.obj [("fileData", .obj [("mimeType", .str "image/*"), ("fileUri", .str url)])])
  | _ => none

def toGeminiParts (content : Option Json) : List Json :=
  match content with
  | some (.str text) => if text = "" then [] else [.obj [("text", .str text)]]
  | content => (asArray content).filterMap geminiPart

def schemaKeywords : List String :=
  ["type", "format", "description", "nullable", "enum", "items", "properties", "required"]

/-- A type is added where the keywords that are kept have none. -/
def withType (schema : Record) : Record :=
  if schema.has "type" then schema else schema ++ [("type", .str "object")]

mutual

/-- The part of a schema that Gemini accepts, to the depth the limits allow. -/
def toGeminiSchema (maxDepth : Nat) : (depth : Nat) → Json → Json
  | depth, .obj fields =>
      if maxDepth < depth then .obj [("type", .str "object")]
      else .obj (withType (schemaFields maxDepth depth fields))
  | _, _ => .obj [("type", .str "object")]

def schemaFields (maxDepth : Nat) : (depth : Nat) → List (String × Json) → List (String × Json)
  | _, [] => []
  | depth, ("properties", .obj children) :: rest =>
      ("properties", .obj (schemaProperties maxDepth depth children)) ::
        schemaFields maxDepth depth rest
  | depth, (key, value) :: rest =>
      if key = "items" then
        ("items", toGeminiSchema maxDepth (depth + 1) value) :: schemaFields maxDepth depth rest
      else if schemaKeywords.contains key then (key, value) :: schemaFields maxDepth depth rest
      else schemaFields maxDepth depth rest

def schemaProperties (maxDepth : Nat) : (depth : Nat) → List (String × Json) → List (String × Json)
  | _, [] => []
  | depth, (name, child) :: rest =>
      (name, toGeminiSchema maxDepth (depth + 1) child) :: schemaProperties maxDepth depth rest

end

structure GeminiDraft where
  systemParts : List Json
  contents : List Turn

def Turn.toContent (turn : Turn) : Json :=
  .obj [("role", .str turn.role), ("parts", .arr turn.blocks)]

/-- `appendContent`: the turns of the two shapes differ in the name of a field. -/
def appendContent (contents : List Turn) (role : String) (parts : List Json) : List Turn :=
  appendMessage contents role parts

/-- `asString(message.name) || asString(message.tool_call_id)` -/
def responseName (raw : Json) : String :=
  let given := asString ((asRecord (some raw)).field "name")
  if given = "" then asString ((asRecord (some raw)).field "tool_call_id") else given

def functionResponsePart (raw : Json) : Json :=
  .obj [("functionResponse", .obj [("name", .str (responseName raw)),
    ("response", .obj [("content", .str (asString (contentOf raw)))])])]

def functionCallPart (limits : JsonLimits) (raw : Json) : Json :=
  let fn := asRecord ((asRecord (some raw)).field "function")
  .obj [("functionCall", .obj [("name", .str (asString (fn.field "name"))),
    ("args", .obj (parseArguments limits (fn.field "arguments")))])]

def geminiRole (role : String) : String := if role = "assistant" then "model" else "user"

/-- One message of the body of the loop. -/
def addGeminiMessage (limits : JsonLimits) (draft : GeminiDraft) (raw : Json) :
    Except Thrown GeminiDraft :=
  let role := roleOf raw
  if !openaiRoles.contains role then .error (unsupportedRole role)
  else if role = "system" ∨ role = "developer" then
    .ok { draft with systemParts := draft.systemParts ++ toGeminiParts (contentOf raw) }
  else if role = "tool" ∨ role = "function" then
    .ok { draft with contents := appendContent draft.contents "user" [functionResponsePart raw] }
  else
    let parts := toGeminiParts (contentOf raw) ++ (callsOf raw).map (functionCallPart limits)
    .ok { draft with
      contents :=
        if parts.isEmpty then draft.contents
        else appendContent draft.contents (geminiRole role) parts }

/-- The three ways a message is taken, as for the blocks of the other shape. -/
theorem addGeminiMessage_cases {limits : JsonLimits} {draft next : GeminiDraft} {raw : Json}
    (h : addGeminiMessage limits draft raw = .ok next) :
    ((roleOf raw = "system" ∨ roleOf raw = "developer") ∧
      next = { draft with systemParts := draft.systemParts ++ toGeminiParts (contentOf raw) }) ∨
    ((roleOf raw = "tool" ∨ roleOf raw = "function") ∧
      next = { draft with
        contents := appendContent draft.contents "user" [functionResponsePart raw] }) ∨
    ((roleOf raw = "user" ∨ roleOf raw = "assistant") ∧
      ∃ parts, parts =
          toGeminiParts (contentOf raw) ++ (callsOf raw).map (functionCallPart limits) ∧
        next = { draft with
          contents :=
            if parts.isEmpty then draft.contents
            else appendContent draft.contents (geminiRole (roleOf raw)) parts }) := by
  simp only [addGeminiMessage, Bool.not_eq_true'] at h
  split at h
  · exact nomatch h
  · next known =>
      split at h
      · next system =>
          cases h
          exact .inl ⟨system, rfl⟩
      · next other =>
          split at h
          · next result =>
              cases h
              exact .inr (.inl ⟨result, rfl⟩)
          · next turn =>
              cases h
              simp [openaiRoles] at known
              exact .inr (.inr ⟨by tauto, _, rfl, rfl⟩)

def generationConfig (input : Record) : Record :=
  let maxTokens := orNumber (asNumber (input.field "max_tokens"))
    (asNumber (input.field "max_completion_tokens"))
  optional "temperature"
    ((input.field "temperature").map fun value => .ofRat (asNumber (some value))) ++
  optional "topP" ((input.field "top_p").map fun value => .ofRat (asNumber (some value))) ++
  optional "maxOutputTokens" (if 0 < maxTokens then some (.ofRat maxTokens) else none) ++
  optional "stopSequences" ((input.field "stop").map stopList) ++
  optional "responseMimeType"
    (if asString ((asRecord (input.field "response_format")).field "type") = "json_object" then
      some (.str "application/json") else none)

def functionDeclaration (maxDepth : Nat) (rawTool : Json) : Json :=
  let fn := asRecord ((asRecord (some rawTool)).field "function")
  .obj [("name", .str (asString (fn.field "name"))),
    ("description", .str (asString (fn.field "description"))),
    ("parameters", toGeminiSchema maxDepth 0 ((fn.field "parameters").getD .null))]

def callingConfig (fields : Record) : Json := .obj [("functionCallingConfig", .obj fields)]

def toolConfig (choice : Option Json) : Option Json :=
  match choice with
  | some (.str "required") => some (callingConfig [("mode", .str "ANY")])
  | some (.str "none") => some (callingConfig [("mode", .str "NONE")])
  | some (.str "auto") => some (callingConfig [("mode", .str "AUTO")])
  | choice =>
      let name := asString ((asRecord ((asRecord choice).field "function")).field "name")
      if name = "" then none
      else
        some (callingConfig [("mode", .str "ANY"), ("allowedFunctionNames", .arr [.str name])])

def safetySettings (geminiSafetyOff : Bool) : Option Json :=
  if geminiSafetyOff then
    some (.arr (harmCategories.map fun category =>
      .obj [("category", .str category), ("threshold", .str "BLOCK_NONE")]))
  else none

/-- The request from the turns and the other fields of the input. -/
def geminiRequest (config : TransformConfig) (input : Record) (draft : GeminiDraft) : Record :=
  let generation := generationConfig input
  let tools := asArray (input.field "tools")
  [("contents", .arr (draft.contents.map Turn.toContent))] ++
  optional "systemInstruction" (if draft.systemParts.isEmpty then none
    else some (.obj [("parts", .arr draft.systemParts)])) ++
  optional "generationConfig" (if generation.isEmpty then none else some (.obj generation)) ++
  optional "tools" (if tools.isEmpty then none
    else some (.arr [.obj [("functionDeclarations",
      .arr (tools.map (functionDeclaration config.limits.maxDepth)))]])) ++
  optional "toolConfig" (toolConfig (input.field "tool_choice")) ++
  optional "safetySettings" (safetySettings config.geminiSafetyOff)

def openaiToGeminiRequest (config : TransformConfig) (body : Record) : Except Thrown Record := do
  let input ← sanitizeParsed config.limits body
  let draft ← (asArray (input.field "messages")).foldlM (addGeminiMessage config.limits) ⟨[], []⟩
  return geminiRequest config input draft

end ToGemini

section FromGemini

/-- What the reading of parts draws and writes while a request is converted. -/
def requestOptions (draw : Nat → String) : StreamOptions := ⟨"", "", 0, false, draw, jsonStringify⟩

def unsupportedContentRole (role : String) : Thrown :=
  .gateway (invalidParam ("unsupported content role \"" ++ role ++ "\"") "contents")

/-- The system instruction as the leading message. -/
def geminiSystem (systemInstruction : Option Json) : List Json :=
  let texts := (asArray ((asRecord systemInstruction).field "parts")).map fun part =>
    asString ((asRecord (some part)).field "text")
  let text := "\n".intercalate (texts.filter (· ≠ ""))
  if text = "" then [] else [systemMessage text]

/-- The tool message of a part that holds a function response. -/
def geminiToolMessage (raw : Json) : Option Json :=
  ((asRecord (some raw)).field "functionResponse").map fun response =>
    let name := Json.str (asString ((asRecord (some response)).field "name"))
    .obj [("role", .str "tool"), ("tool_call_id", name), ("name", name),
      ("content",
        .str (jsonStringify (orEmptyObject ((asRecord (some response)).field "response"))))]

def partsOf (raw : Json) : Option Json := (asRecord (some raw)).field "parts"

/-- The message of a turn, if it holds anything besides function responses. -/
def contentMessage (role : String) (parts : GeminiParts) : List Json :=
  if parts.text = "" ∧ parts.toolCalls = [] then []
  else
    [.obj ([("role", .str (if role = "model" then "assistant" else "user")),
      ("content", if parts.text = "" then .null else .str parts.text)] ++
      toolCallsField parts.toolCalls)]

/-- The messages of one turn, and how many ids have been drawn. -/
def geminiMessages (draw : Nat → String) (drawn : Nat) (raw : Json) :
    Except Thrown (List Json × Nat) :=
  let role := roleOf raw
  if role ≠ "" ∧ role ≠ "user" ∧ role ≠ "model" then .error (unsupportedContentRole role)
  else
    let results := (asArray (partsOf raw)).filterMap geminiToolMessage
    let parts := fromGeminiParts (requestOptions draw) drawn (partsOf raw)
    .ok (results ++ contentMessage role parts, drawn + parts.toolCalls.length)

def addGeminiContent (draw : Nat → String) (draft : List Json × Nat) (raw : Json) :
    Except Thrown (List Json × Nat) := do
  let (messages, drawn) ← geminiMessages draw draft.2 raw
  return (draft.1 ++ messages, drawn)

theorem addGeminiContent_ok {draw : Nat → String} {draft next : List Json × Nat} {raw : Json}
    (h : addGeminiContent draw draft raw = .ok next) :
    (roleOf raw = "" ∨ roleOf raw = "user" ∨ roleOf raw = "model") ∧
      next.1 = draft.1 ++ ((asArray (partsOf raw)).filterMap geminiToolMessage ++
        contentMessage (roleOf raw)
          (fromGeminiParts (requestOptions draw) draft.2 (partsOf raw))) ∧
      next.2 = draft.2 +
        (fromGeminiParts (requestOptions draw) draft.2 (partsOf raw)).toolCalls.length := by
  by_cases known : roleOf raw ≠ "" ∧ roleOf raw ≠ "user" ∧ roleOf raw ≠ "model"
  · simp only [addGeminiContent, geminiMessages, if_pos known] at h
    exact nomatch h
  · simp only [addGeminiContent, geminiMessages, if_neg known] at h
    cases h
    exact ⟨by tauto, rfl, rfl⟩

def openaiFunction (rawFn : Json) : Json :=
  let fn := asRecord (some rawFn)
  .obj [("type", .str "function"), ("function", .obj [
    ("name", .str (asString (fn.field "name"))),
    ("description", .str (asString (fn.field "description"))),
    ("parameters",
      match fn.field "parameters" with
      | some (.obj schema) => .obj schema
      | _ => .obj [("type", .str "object")])])]

/-- The request from the messages and the other fields of the input. -/
def openaiRequestOfGemini (model : String) (input : Record) (messages : List Json) : Record :=
  let generation := asRecord (input.field "generationConfig")
  let declarations := (asArray (input.field "tools")).flatMap fun tool =>
    asArray ((asRecord (some tool)).field "functionDeclarations")
  [("model", .str model), ("messages", .arr messages)] ++
  optional "temperature"
    ((generation.field "temperature").map fun value => .ofRat (asNumber (some value))) ++
  optional "top_p" ((generation.field "topP").map fun value => .ofRat (asNumber (some value))) ++
  optional "max_tokens"
    ((generation.field "maxOutputTokens").map fun value => .ofRat (asNumber (some value))) ++
  optional "stop"
    ((generation.field "stopSequences").map fun value => .arr (asArray (some value))) ++
  optional "tools" (if declarations.isEmpty then none
    else some (.arr (declarations.map openaiFunction)))

def geminiToOpenaiRequest (config : TransformConfig) (draw : Nat → String) (body : Record)
    (model : String) : Except Thrown Record := do
  let input ← sanitizeParsed config.limits body
  let draft ← (asArray (input.field "contents")).foldlM (addGeminiContent draw)
    (geminiSystem (input.field "systemInstruction"), 0)
  return openaiRequestOfGemini model input draft.1

end FromGemini

end Gateway
