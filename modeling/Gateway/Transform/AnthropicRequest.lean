import Gateway.Transform.Anthropic
import Gateway.Util.JsonText
import Gateway.Util.Sanitize

/-!
Requests between the OpenAI and the Anthropic shape.

System turns are a field on one side and messages on the other, and only ever
moved between the two. Tool results are turns of their own in the OpenAI shape
and blocks of a user turn in the Anthropic shape. Ids that are missing are drawn;
`draw k` is the k-th one a conversion draws.
-/

namespace Gateway

/-- The settings the conversions read. -/
structure TransformConfig where
  limits : JsonLimits
  geminiSafetyOff : Bool

def DEFAULT_MAX_TOKENS : ℚ := 4096

def openaiRoles : List String := ["system", "developer", "user", "assistant", "tool", "function"]

def unsupportedRole (role : String) : Thrown :=
  .gateway (invalidParam ("unsupported message role \"" ++ role ++ "\"") "messages")

/-- A field that is only written when its value is there. -/
def optional (key : String) (value : Option Json) : Record :=
  match value with
  | some value => [(key, value)]
  | none => []

@[simp]
theorem field_optional (name key : String) (value : Option Json) :
    Record.field (optional name value) key = if key = name then value else none := by
  cases value with
  | none => simp [optional]
  | some value => simp [optional, Record.field_cons]

/-- `/^data:([^;,]+);base64,(.*)$/s`: the media type and the data. -/
def splitDataUrl (url : String) : Option (String × String) :=
  if startsWith url "data:" then
    let rest := url.toList.drop 5
    let media := rest.takeWhile (fun c => c ≠ ';' ∧ c ≠ ',')
    let tail := rest.drop media.length
    if media ≠ [] ∧ ";base64,".toList.isPrefixOf tail = true then
      some (String.ofList media, String.ofList (tail.drop 8))
    else none
  else none

def textBlock (text : String) : Json := .obj [("type", .str "text"), ("text", .str text)]

/-- One part of an OpenAI content as a block; a part that has no equivalent is dropped. -/
def anthropicBlock (raw : Json) : Option Json :=
  let part := asRecord (some raw)
  match asString (part.field "type") with
  | "text" =>
      let text := asString (part.field "text")
      if text = "" then none else some (textBlock text)
  | "image_url" =>
      let url := asString ((asRecord (part.field "image_url")).field "url")
      if url = "" then none
      else
        match splitDataUrl url with
        | some (media, data) =>
            some (.obj [("type", .str "image"), ("source", .obj [("type", .str "base64"),
              ("media_type", .str media), ("data", .str data)])])
        | none =>
            some (.obj [("type", .str "image"),
              ("source", .obj [("type", .str "url"), ("url", .str url)])])
  | _ => none

def toAnthropicBlocks (content : Option Json) : List Json :=
  match content with
  | some (.str text) => if text = "" then [] else [textBlock text]
  | content => (asArray content).filterMap anthropicBlock

/-- What the blocks of a content hold, and how many ids have been drawn. -/
structure AnthropicParts where
  text : String
  reasoning : String
  toolCalls : List Record
  drawn : Nat

/-- `value ?? {}` -/
def orEmptyObject : Option Json → Json
  | none | some .null => .obj []
  | some value => value

def functionCall (id name arguments : String) : Record :=
  [("id", .str id), ("type", .str "function"),
    ("function", .obj [("name", .str name), ("arguments", .str arguments)])]

def addAnthropicBlock (draw : Nat → String) (parts : AnthropicParts) (raw : Json) :
    AnthropicParts :=
  let block := asRecord (some raw)
  match asString (block.field "type") with
  | "text" => { parts with text := parts.text ++ asString (block.field "text") }
  | "thinking" => { parts with reasoning := parts.reasoning ++ asString (block.field "thinking") }
  | "tool_use" =>
      let given := asString (block.field "id")
      { parts with
        toolCalls := parts.toolCalls ++
          [functionCall (if given = "" then "call_" ++ draw parts.drawn else given)
            (asString (block.field "name")) (jsonStringify (orEmptyObject (block.field "input")))]
        drawn := if given = "" then parts.drawn + 1 else parts.drawn }
  | _ => parts

def fromAnthropicBlocks (draw : Nat → String) (drawn : Nat) (content : Option Json) :
    AnthropicParts :=
  match content with
  | some (.str text) => ⟨text, "", [], drawn⟩
  | content => (asArray content).foldl (addAnthropicBlock draw) ⟨"", "", [], drawn⟩

def toolChoiceToAnthropic (choice : Option Json) : Option Json :=
  match choice with
  | some (.str "auto") => some (.obj [("type", .str "auto")])
  | some (.str "none") => some (.obj [("type", .str "none")])
  | some (.str "required") => some (.obj [("type", .str "any")])
  | some (.str _) => none
  | choice =>
      let name := asString ((asRecord ((asRecord choice).field "function")).field "name")
      if name = "" then none else some (.obj [("type", .str "tool"), ("name", .str name)])

def toolChoiceToOpenai (choice : Option Json) : Option Json :=
  let record := asRecord choice
  match asString (record.field "type") with
  | "auto" => some (.str "auto")
  | "any" => some (.str "required")
  | "none" => some (.str "none")
  | "tool" =>
      some (.obj [("type", .str "function"),
        ("function", .obj [("name", .str (asString (record.field "name")))])])
  | _ => none

/-- The arguments of a tool call as an object; what does not read as one is empty. -/
def parseArguments (limits : JsonLimits) (value : Option Json) : Record :=
  match value with
  | some (.obj fields) => fields
  | value =>
      let text := asString value
      if text = "" then []
      else
        match jsonParse text with
        | some (.obj fields) =>
            match sanitizeParsed limits fields with
            | .ok fields => fields
            | .error _ => []
        | _ => []

section ToAnthropic

/-- A turn under construction. -/
structure Turn where
  role : String
  blocks : List Json

def Turn.toMessage (turn : Turn) : Json :=
  .obj [("role", .str turn.role), ("content", .arr turn.blocks)]

def appendMessage (messages : List Turn) (role : String) (blocks : List Json) : List Turn :=
  match messages.getLast? with
  | some last =>
      if last.role = role then messages.dropLast ++ [⟨role, last.blocks ++ blocks⟩]
      else messages ++ [⟨role, blocks⟩]
  | none => messages ++ [⟨role, blocks⟩]

/-- Whatever is read off the blocks of a turn one by one, merging turns keeps. -/
theorem flatMap_appendMessage {β : Type*} {read : String → List Json → List β}
    (additive : ∀ role xs ys, read role (xs ++ ys) = read role xs ++ read role ys)
    (messages : List Turn) (role : String) (blocks : List Json) :
    (appendMessage messages role blocks).flatMap (fun turn => read turn.role turn.blocks) =
      messages.flatMap (fun turn => read turn.role turn.blocks) ++ read role blocks := by
  rw [appendMessage]
  cases last : messages.getLast? with
  | none => simp [List.getLast?_eq_none_iff.mp last]
  | some turn =>
      simp only
      split
      · next same =>
          obtain ⟨init, rfl⟩ := List.getLast?_eq_some_iff.mp last
          simp [additive, same, List.flatMap_append]
      · simp [List.flatMap_append]

structure AnthropicDraft where
  system : List Json
  messages : List Turn
  drawn : Nat

def toolUseBlocks (limits : JsonLimits) (draw : Nat → String) :
    (drawn : Nat) → List Json → List Json × Nat
  | drawn, [] => ([], drawn)
  | drawn, raw :: rest =>
      let call := asRecord (some raw)
      let fn := asRecord (call.field "function")
      let given := asString (call.field "id")
      let (blocks, drawnAfter) :=
        toolUseBlocks limits draw (if given = "" then drawn + 1 else drawn) rest
      (.obj [("type", .str "tool_use"),
        ("id", .str (if given = "" then "toolu_" ++ draw drawn else given)),
        ("name", .str (asString (fn.field "name"))),
        ("input", .obj (parseArguments limits (fn.field "arguments")))] :: blocks, drawnAfter)

def roleOf (raw : Json) : String := asString ((asRecord (some raw)).field "role")

def contentOf (raw : Json) : Option Json := (asRecord (some raw)).field "content"

/-- The calls of a message; only those of an assistant are read. -/
def callsOf (raw : Json) : List Json :=
  if roleOf raw = "assistant" then asArray ((asRecord (some raw)).field "tool_calls") else []

def toolResultBlock (raw : Json) : Json :=
  .obj [("type", .str "tool_result"),
    ("tool_use_id", .str (asString ((asRecord (some raw)).field "tool_call_id"))),
    ("content", .str (asString (contentOf raw)))]

/-- One message of the body of the loop. -/
def addOpenaiMessage (limits : JsonLimits) (draw : Nat → String) (draft : AnthropicDraft)
    (raw : Json) : Except Thrown AnthropicDraft :=
  let role := roleOf raw
  if !openaiRoles.contains role then .error (unsupportedRole role)
  else if role = "system" ∨ role = "developer" then
    .ok { draft with system := draft.system ++ toAnthropicBlocks (contentOf raw) }
  else if role = "tool" ∨ role = "function" then
    .ok { draft with messages := appendMessage draft.messages "user" [toolResultBlock raw] }
  else
    let uses := toolUseBlocks limits draw draft.drawn (callsOf raw)
    let blocks := toAnthropicBlocks (contentOf raw) ++ uses.1
    .ok { draft with
      messages :=
        if blocks.isEmpty then draft.messages else appendMessage draft.messages role blocks
      drawn := uses.2 }

/-- The three ways a message is taken: lifted out, put to the user, or a turn of its own. -/
theorem addOpenaiMessage_cases {limits : JsonLimits} {draw : Nat → String}
    {draft next : AnthropicDraft} {raw : Json}
    (h : addOpenaiMessage limits draw draft raw = .ok next) :
    ((roleOf raw = "system" ∨ roleOf raw = "developer") ∧
      next = { draft with system := draft.system ++ toAnthropicBlocks (contentOf raw) }) ∨
    ((roleOf raw = "tool" ∨ roleOf raw = "function") ∧
      next = { draft with
        messages := appendMessage draft.messages "user" [toolResultBlock raw] }) ∨
    ((roleOf raw = "user" ∨ roleOf raw = "assistant") ∧
      ∃ blocks, blocks = toAnthropicBlocks (contentOf raw) ++
          (toolUseBlocks limits draw draft.drawn (callsOf raw)).1 ∧
        next = ⟨draft.system,
          if blocks.isEmpty then draft.messages
          else appendMessage draft.messages (roleOf raw) blocks,
          (toolUseBlocks limits draw draft.drawn (callsOf raw)).2⟩) := by
  simp only [addOpenaiMessage, Bool.not_eq_true'] at h
  split at h
  · exact nomatch h
  · next known =>
      split at h
      · next system =>
          cases h
          exact .inl ⟨system, rfl⟩
      · next other =>
          split at h
          · next result =>
              cases h
              exact .inr (.inl ⟨result, rfl⟩)
          · next turn =>
              cases h
              simp [openaiRoles] at known
              exact .inr (.inr ⟨by tauto, _, rfl, rfl⟩)

def anthropicTool (rawTool : Json) : Json :=
  let fn := asRecord ((asRecord (some rawTool)).field "function")
  .obj [("name", .str (asString (fn.field "name"))),
    ("description", .str (asString (fn.field "description"))),
    ("input_schema",
      match fn.field "parameters" with
      | some (.obj schema) => .obj schema
      | _ => .obj [("type", .str "object"), ("properties", .obj [])])]

/-- `a || b` for numbers. -/
def orNumber (a b : ℚ) : ℚ := if a = 0 then b else a

def isTrue : Option Json → Bool
  | some (.bool true) => true
  | _ => false

/-- `typeof stop === "string" ? [stop] : asArray(stop)` -/
def stopList : Json → Json
  | .str text => .arr [.str text]
  | stop => .arr (asArray (some stop))

/-- The request from the turns and the other fields of the input. -/
def anthropicRequest (input : Record) (draft : AnthropicDraft) : Record :=
  let tools := asArray (input.field "tools")
  [("model", .str (asString (input.field "model"))),
    ("max_tokens", .ofRat (orNumber (asNumber (input.field "max_tokens"))
      (orNumber (asNumber (input.field "max_completion_tokens")) DEFAULT_MAX_TOKENS))),
    ("messages", .arr (draft.messages.map Turn.toMessage))] ++
  optional "system" (if draft.system.isEmpty then none else some (.arr draft.system)) ++
  optional "temperature"
    ((input.field "temperature").map fun value => .ofRat (asNumber (some value))) ++
  optional "top_p" ((input.field "top_p").map fun value => .ofRat (asNumber (some value))) ++
  optional "stream" ((input.field "stream").map fun value => .bool (isTrue (some value))) ++
  optional "stop_sequences" ((input.field "stop").map stopList) ++
  optional "tools" (if tools.isEmpty then none else some (.arr (tools.map anthropicTool))) ++
  optional "tool_choice" (toolChoiceToAnthropic (input.field "tool_choice"))

def openaiToAnthropicRequest (config : TransformConfig) (draw : Nat → String) (body : Record) :
    Except Thrown Record := do
  let input ← sanitizeParsed config.limits body
  let draft ← (asArray (input.field "messages")).foldlM (addOpenaiMessage config.limits draw)
    ⟨[], [], 0⟩
  return anthropicRequest input draft

end ToAnthropic

section ToOpenai

def systemMessage (text : String) : Json :=
  .obj [("role", .str "system"), ("content", .str text)]

/-- The system field as the leading message. -/
def anthropicSystem (system : Option Json) : List Json :=
  match system with
  | some (.str text) => if text = "" then [] else [systemMessage text]
  | system =>
      let text := "\n".intercalate
        ((asArray system).map fun block => asString ((asRecord (some block)).field "text"))
      if text = "" then [] else [systemMessage text]

def isToolResult (raw : Json) : Bool :=
  asString ((asRecord (some raw)).field "type") == "tool_result"

/-- The text of a tool result, given as a string or as blocks. -/
def toolResultText (draw : Nat → String) (content : Option Json) : String :=
  (fromAnthropicBlocks draw 0 content).text

def toolMessage (draw : Nat → String) (raw : Json) : Json :=
  let block := asRecord (some raw)
  .obj [("role", .str "tool"), ("tool_call_id", .str (asString (block.field "tool_use_id"))),
    ("content", .str (toolResultText draw (block.field "content")))]

def toolCallsField (toolCalls : List Record) : Record :=
  optional "tool_calls" (if toolCalls.isEmpty then none else some (.arr (toolCalls.map Json.obj)))

/-- The message of a turn, if it holds anything besides tool results. -/
def turnMessage (role : String) (parts : AnthropicParts) : List Json :=
  if parts.text = "" ∧ parts.toolCalls = [] ∧ parts.reasoning = "" then []
  else
    let text := if parts.text = "" ∧ parts.toolCalls ≠ [] then .null else .str parts.text
    [.obj ([("role", .str role), ("content", text)] ++ toolCallsField parts.toolCalls)]

/-- The messages of one turn, and how many ids have been drawn. -/
def openaiMessages (draw : Nat → String) (drawn : Nat) (raw : Json) :
    Except Thrown (List Json × Nat) :=
  let role := roleOf raw
  if role ≠ "user" ∧ role ≠ "assistant" then .error (unsupportedRole role)
  else
    let results := (asArray (contentOf raw)).filter isToolResult
    let parts := fromAnthropicBlocks draw drawn (contentOf raw)
    .ok (results.map (toolMessage draw) ++ turnMessage role parts, parts.drawn)

def addAnthropicTurn (draw : Nat → String) (draft : List Json × Nat) (raw : Json) :
    Except Thrown (List Json × Nat) := do
  let (messages, drawn) ← openaiMessages draw draft.2 raw
  return (draft.1 ++ messages, drawn)

theorem addAnthropicTurn_ok {draw : Nat → String} {draft next : List Json × Nat} {raw : Json}
    (h : addAnthropicTurn draw draft raw = .ok next) :
    (roleOf raw = "user" ∨ roleOf raw = "assistant") ∧
      next.1 = draft.1 ++ (((asArray (contentOf raw)).filter isToolResult).map (toolMessage draw) ++
        turnMessage (roleOf raw) (fromAnthropicBlocks draw draft.2 (contentOf raw))) ∧
      next.2 = (fromAnthropicBlocks draw draft.2 (contentOf raw)).drawn := by
  by_cases known : roleOf raw ≠ "user" ∧ roleOf raw ≠ "assistant"
  · simp only [addAnthropicTurn, openaiMessages, if_pos known] at h
    exact nomatch h
  · simp only [addAnthropicTurn, openaiMessages, if_neg known] at h
    cases h
    exact ⟨by tauto, rfl, rfl⟩

def openaiTool (rawTool : Json) : Json :=
  let tool := asRecord (some rawTool)
  .obj [("type", .str "function"), ("function", .obj [
    ("name", .str (asString (tool.field "name"))),
    ("description", .str (asString (tool.field "description"))),
    ("parameters",
      match tool.field "input_schema" with
      | some (.obj schema) => .obj schema
      | _ => .obj [("type", .str "object"), ("properties", .obj [])])])]

/-- The request from the messages and the other fields of the input. -/
def openaiRequest (input : Record) (messages : List Json) : Record :=
  let tools := asArray (input.field "tools")
  [("model", .str (asString (input.field "model"))), ("messages", .arr messages),
    ("max_tokens", .ofRat (orNumber (asNumber (input.field "max_tokens")) DEFAULT_MAX_TOKENS))] ++
  optional "temperature"
    ((input.field "temperature").map fun value => .ofRat (asNumber (some value))) ++
  optional "top_p" ((input.field "top_p").map fun value => .ofRat (asNumber (some value))) ++
  optional "stream" ((input.field "stream").map fun value => .bool (isTrue (some value))) ++
  optional "stop" ((input.field "stop_sequences").map fun value => .arr (asArray (some value))) ++
  optional "tools" (if tools.isEmpty then none else some (.arr (tools.map openaiTool))) ++
  optional "tool_choice" (toolChoiceToOpenai (input.field "tool_choice"))

def anthropicToOpenaiRequest (config : TransformConfig) (draw : Nat → String) (body : Record) :
    Except Thrown Record := do
  let input ← sanitizeParsed config.limits body
  let draft ← (asArray (input.field "messages")).foldlM (addAnthropicTurn draw)
    (anthropicSystem (input.field "system"), 0)
  return openaiRequest input draft.1

end ToOpenai

end Gateway
