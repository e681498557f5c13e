import Gateway.Transform.Responses

/-!
The assistant message that a client puts together from chunks.

Text and reasoning are concatenated. The fragments of a tool call carry its index:
the first one has the id and the name, and the arguments of all are concatenated.
-/

namespace Gateway

structure ToolCall where
  id : String
  name : String
  arguments : String
deriving DecidableEq, Repr

def ToolCall.ofRecord (call : Record) : ToolCall :=
  let fn := asRecord (call.field "function")
  ⟨asString (call.field "id"), asString (fn.field "name"), asString (fn.field "arguments")⟩

/-- A message of the assistant with the reason it ended for. -/
structure AssistantMessage where
  text : String
  reasoning : String
  toolCalls : List ToolCall
  finishReason : Option String
deriving DecidableEq, Repr

/-- The message of the first choice of a buffered response. -/
def messageOfResponse (response : Record) : AssistantMessage :=
  let choice := asRecord (asArray (response.field "choices")).head?
  let message := asRecord (choice.field "message")
  ⟨asString (message.field "content"), asString (message.field "reasoning_content"),
    (asArray (message.field "tool_calls")).map fun call => ToolCall.ofRecord (asRecord (some call)),
    some (asString (choice.field "finish_reason"))⟩

structure Assembled where
  text : String
  reasoning : String
  toolCalls : List (ℚ × ToolCall)
  finishReason : Option String

namespace Assembled

def empty : Assembled := ⟨"", "", [], none⟩

/-- The arguments of a fragment added to the call it belongs to. -/
def extend (index : ℚ) (fragment : ToolCall) (entry : ℚ × ToolCall) : ℚ × ToolCall :=
  if entry.1 = index then
    (index, { entry.2 with arguments := entry.2.arguments ++ fragment.arguments })
  else entry

def addFragment (toolCalls : List (ℚ × ToolCall)) (raw : Json) : List (ℚ × ToolCall) :=
  let fragment := asRecord (some raw)
  let index := asNumber (fragment.field "index")
  if index ∈ toolCalls.map Prod.fst then toolCalls.map (extend index (ToolCall.ofRecord fragment))
  else toolCalls ++ [(index, ToolCall.ofRecord fragment)]

def add (m : Assembled) (c : Record) : Assembled :=
  let choice := asRecord (asArray (c.field "choices")).head?
  let delta := asRecord (choice.field "delta")
  { text := m.text ++ asString (delta.field "content")
    reasoning := m.reasoning ++ asString (delta.field "reasoning_content")
    toolCalls := (asArray (delta.field "tool_calls")).foldl addFragment m.toolCalls
    finishReason :=
      match choice.field "finish_reason" with
      | some (.str reason) => some reason
      | _ => m.finishReason }

def ofChunks (chunks : List Record) : Assembled := chunks.foldl add empty

def message (m : Assembled) : AssistantMessage :=
  ⟨m.text, m.reasoning, m.toolCalls.map Prod.snd, m.finishReason⟩

@[simp]
theorem add_chunk (m : Assembled) (options : StreamOptions) (delta : Record)
    (reason : Option String) :
    m.add (chunk options delta reason) =
      ⟨m.text ++ asString (delta.field "content"),
        m.reasoning ++ asString (delta.field "reasoning_content"),
        (asArray (delta.field "tool_calls")).foldl addFragment m.toolCalls,
        reason.or m.finishReason⟩ := by
  cases reason <;>
    simp [add, chunk, Record.field_cons, asArray, asRecord]

theorem addFragment_new {toolCalls : List (ℚ × ToolCall)} {fragment : Record}
    (fresh : asNumber (fragment.field "index") ∉ toolCalls.map Prod.fst) :
    addFragment toolCalls (.obj fragment) =
      toolCalls ++ [(asNumber (fragment.field "index"), ToolCall.ofRecord fragment)] := by
  rw [addFragment]
  exact if_neg fresh

theorem addFragment_known {toolCalls : List (ℚ × ToolCall)} {fragment : Record}
    (known : asNumber (fragment.field "index") ∈ toolCalls.map Prod.fst) :
    addFragment toolCalls (.obj fragment) =
      toolCalls.map (extend (asNumber (fragment.field "index")) (ToolCall.ofRecord fragment)) := by
  rw [addFragment]
  exact if_pos known

end Assembled

/-- The indexes of the calls kept so far are below the count. -/
def Below (count : Nat) (toolCalls : List (ℚ × ToolCall)) : Prop :=
  ∀ index ∈ toolCalls.map Prod.fst, index < count

theorem Below.fresh {count : Nat} {toolCalls : List (ℚ × ToolCall)} (below : Below count toolCalls) :
    (count : ℚ) ∉ toolCalls.map Prod.fst := fun mem => absurd (below _ mem) (lt_irrefl _)

/-- Messages that say the same, with the calls compared in their order. -/
structure AgreeUpTo (same : ToolCall → ToolCall → Prop) (a b : AssistantMessage) : Prop where
  text : a.text = b.text
  reasoning : a.reasoning = b.reasoning
  toolCalls : List.Forall₂ same a.toolCalls b.toolCalls
  finishReason : a.finishReason = b.finishReason

section Buffered

theorem asArray_toolCallsField (toolCalls : List Record) :
    asArray (Record.field (toolCallsField toolCalls) "tool_calls") = toolCalls.map Json.obj := by
  cases toolCalls <;> rfl

theorem field_toolCallsField (toolCalls : List Record) {key : String} (other : key ≠ "tool_calls") :
    Record.field (toolCallsField toolCalls) key = none := by
  rw [toolCallsField, field_optional, if_neg other]

/-- The message that is read back is the one that was written. -/
theorem messageOfResponse_chatCompletion (options : StreamOptions) (id requestedModel model : String)
    (index : ℚ) (text reasoning : String) (toolCalls : List Record) (finishReason : String)
    (rest : List Json) (usage : Record) :
    messageOfResponse (chatCompletion options id requestedModel model
      (responseChoice index (responseMessage text reasoning toolCalls) finishReason :: rest) usage) =
      ⟨text, reasoning, toolCalls.map ToolCall.ofRecord, some finishReason⟩ := by
  have calls : asArray (Record.field (responseMessage text reasoning toolCalls) "tool_calls") =
      toolCalls.map Json.obj := by
    rw [← asArray_toolCallsField]
    simp [responseMessage, Record.field_append, Record.field_cons]
  have content : asString (Record.field (responseMessage text reasoning toolCalls) "content") =
      text := by
    by_cases alone : text = "" ∧ toolCalls ≠ [] <;>
      simp [responseMessage, Record.field_cons, alone]
  have thoughts : asString
      (Record.field (responseMessage text reasoning toolCalls) "reasoning_content") = reasoning := by
    rw [responseMessage, Record.field_append, Record.field_append, field_toolCallsField _ (by decide)]
    by_cases silent : reasoning = "" <;> simp [Record.field_cons, silent, asString]
  simp [messageOfResponse, chatCompletion, responseChoice, Record.field_cons, content, thoughts,
    calls]

end Buffered

/-- The chunks of a stream of events. -/
def translated {σ : Type*} (handle : σ → SseEvent → List Record × σ) :
    σ → List SseEvent → List Record
  | _, [] => []
  | s, event :: rest => (handle s event).1 ++ translated handle (handle s event).2 rest

end Gateway
