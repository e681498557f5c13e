import Gateway.Lib.Fallible
import Gateway.Transform.Assembly
import Gateway.Util.JsonRoundTrip

/-!
An Anthropic message that is streamed against the same message in one piece.

Blocks are streamed one after another, each in any number of deltas. Text,
reasoning and the reason for the end come out the same. The input of a tool comes
as the text that was sent on one side and is written again on the other, and a
tool without any input has no text to send.
-/

namespace Gateway

open Fallible

/-- A content block with the deltas it is sent in. -/
inductive StreamedBlock where
  | text (deltas : List String)
  | thinking (deltas : List String) (signature : String)
  | toolUse (id name : String) (input : Record) (fragments : List String)

/-- An event as the bounded parse hands it to the translator. -/
def anthropicEvent (kind : String) (rest : Record) : SseEvent :=
  ⟨some kind, .json (.obj (("type", .str kind) :: rest))⟩

def deltaEvent (index : Nat) (delta : Record) : SseEvent :=
  anthropicEvent "content_block_delta" [("index", .ofNat index), ("delta", .obj delta)]

namespace StreamedBlock

/-- The block as it is opened. -/
def opening : StreamedBlock → Record
  | text _ => [("type", .str "text"), ("text", .str "")]
  | thinking _ _ => [("type", .str "thinking"), ("thinking", .str ""), ("signature", .str "")]
  | toolUse id name _ _ =>
      [("type", .str "tool_use"), ("id", .str id), ("name", .str name), ("input", .obj [])]

def deltas : StreamedBlock → List Record
  | text deltas => deltas.map fun text => [("type", .str "text_delta"), ("text", .str text)]
  | thinking deltas signature =>
      deltas.map (fun text => [("type", .str "thinking_delta"), ("thinking", .str text)]) ++
        [[("type", .str "signature_delta"), ("signature", .str signature)]]
  | toolUse _ _ _ fragments =>
      fragments.map fun text => [("type", .str "input_json_delta"), ("partial_json", .str text)]

def events (index : Nat) (block : StreamedBlock) : List SseEvent :=
  anthropicEvent "content_block_start"
      [("index", .ofNat index), ("content_block", .obj block.opening)] ::
    (block.deltas.map (deltaEvent index) ++
      [anthropicEvent "content_block_stop" [("index", .ofNat index)]])

/-- The block as the message has it. -/
def content : StreamedBlock → Json
  | text deltas => .obj [("type", .str "text"), ("text", .str (String.join deltas))]
  | thinking deltas signature =>
      .obj [("type", .str "thinking"), ("thinking", .str (String.join deltas)),
        ("signature", .str signature)]
  | toolUse id name input _ =>
      .obj [("type", .str "tool_use"), ("id", .str id), ("name", .str name), ("input", .obj input)]

/-- The fragments of a tool are the text of its input, or there is nothing to send. -/
def Complete : StreamedBlock → Prop
  | toolUse _ _ input fragments =>
      (String.join fragments = "" ∧ input = []) ∨
        jsonParse (String.join fragments) = some (.obj input)
  | _ => True

/-- A tool has an id and an input that is sent and comes back as it was. -/
def Carries : StreamedBlock → Prop
  | toolUse id _ input fragments =>
      id ≠ "" ∧ String.join fragments ≠ "" ∧ (Json.obj input).Lasting
  | _ => True

def textPart : StreamedBlock → String
  | text deltas => String.join deltas
  | _ => ""

def thinkingPart : StreamedBlock → String
  | thinking deltas _ => String.join deltas
  | _ => ""

end StreamedBlock

/-- A message with what opens its stream and what is counted at its end. -/
structure StreamedMessage where
  opened : Record
  blocks : List StreamedBlock
  stopReason : String
  usage : Record

def blockEvents : (index : Nat) → List StreamedBlock → List SseEvent
  | _, [] => []
  | index, block :: rest => block.events index ++ blockEvents (index + 1) rest

namespace StreamedMessage

def closing (m : StreamedMessage) : List SseEvent :=
  [anthropicEvent "message_delta"
      [("delta", .obj [("stop_reason", .str m.stopReason)]), ("usage", .obj m.usage)],
    anthropicEvent "message_stop" []]

def events (m : StreamedMessage) : List SseEvent :=
  anthropicEvent "message_start" [("message", .obj m.opened)] ::
    (blockEvents 0 m.blocks ++ m.closing)

/-- The body is the message of the stream. -/
structure Describes (m : StreamedMessage) (body : Record) : Prop where
  content : body.field "content" = some (.arr (m.blocks.map StreamedBlock.content))
  stopReason : body.field "stop_reason" = some (.str m.stopReason)

end StreamedMessage

section Run

/-- The state after a stream of events. -/
def after {σ : Type*} (handle : σ → SseEvent → List Record × σ) (s : σ)
    (events : List SseEvent) : σ :=
  events.foldl (fun s event => (handle s event).2) s

theorem translated_append {σ : Type*} (handle : σ → SseEvent → List Record × σ) (s : σ)
    (xs ys : List SseEvent) :
    translated handle s (xs ++ ys) =
      translated handle s xs ++ translated handle (after handle s xs) ys := by
  induction xs generalizing s with
  | nil => rfl
  | cons event xs ih =>
      rw [List.cons_append, translated, ih, translated, List.append_assoc]
      rfl

/-- Events that change nothing may come anywhere. -/
theorem translated_filter {σ : Type*} (handle : σ → SseEvent → List Record × σ)
    (heard : SseEvent → Bool) (ignored : ∀ s event, heard event = false → handle s event = ([], s))
    (s : σ) (events : List SseEvent) :
    translated handle s (events.filter heard) = translated handle s events := by
  induction events generalizing s with
  | nil => rfl
  | cons event rest ih =>
      cases hears : heard event with
      | true => rw [List.filter_cons_of_pos hears, translated, translated, ih]
      | false =>
          rw [List.filter_cons_of_neg (by simp [hears]), translated, ignored s event hears, ih]
          rfl

end Run

section Deltas

variable (options : StreamOptions) (s : AnthropicStream) (m : Assembled) (index : Nat)

/-- What a client has after the chunks of some events. -/
def assembled (events : List SseEvent) : Assembled :=
  (translated (AnthropicStream.handle options) s events).foldl Assembled.add m

theorem assembled_append (xs ys : List SseEvent) :
    assembled options s m (xs ++ ys) =
      assembled options (after (AnthropicStream.handle options) s xs) (assembled options s m xs)
        ys := by
  rw [assembled, translated_append, List.foldl_append]
  rfl

theorem handle_deltaEvent (delta : Record) :
    s.handle options (deltaEvent index delta) =
      (s.handleDelta options [("type", .str "content_block_delta"), ("index", .ofNat index),
        ("delta", .obj delta)], s) := rfl

theorem assembled_cons (delta : Record) (rest : List SseEvent) :
    assembled options s m (deltaEvent index delta :: rest) =
      assembled options s ((s.handleDelta options [("type", .str "content_block_delta"),
        ("index", .ofNat index), ("delta", .obj delta)]).foldl Assembled.add m) rest := by
  rw [assembled, translated, List.foldl_append]
  rfl

theorem after_deltas (deltas : List Record) :
    after (AnthropicStream.handle options) s (deltas.map (deltaEvent index)) = s := by
  induction deltas with
  | nil => rfl
  | cons delta rest ih => exact ih

/-- Deltas that add to what a client has of a block, text by text. -/
theorem assembled_deltas (delta : String → Record) (grow : String → Assembled)
    (grows : ∀ sent text, (s.handleDelta options [("type", .str "content_block_delta"),
      ("index", .ofNat index), ("delta", .obj (delta text))]).foldl Assembled.add (grow sent) =
        grow (sent ++ text)) (sent : String) (texts : List String) :
    assembled options s (grow sent) ((texts.map delta).map (deltaEvent index)) =
      grow (sent ++ String.join texts) := by
  induction texts generalizing sent with
  | nil => simp [assembled, translated]
  | cons text rest ih =>
      rw [List.map_cons, List.map_cons, assembled_cons, grows, ih, String.join_cons,
        String.append_assoc]

theorem assembled_text (deltas : List String) :
    assembled options s m ((StreamedBlock.text deltas).deltas.map (deltaEvent index)) =
      { m with text := m.text ++ String.join deltas } := by
  have run := assembled_deltas options s index
    (fun text => [("type", .str "text_delta"), ("text", .str text)])
    (fun sent => { m with text := m.text ++ sent }) (fun sent text => ?_) "" deltas
  · simpa [StreamedBlock.deltas] using run
  · by_cases empty : text = "" <;>
      simp [AnthropicStream.handleDelta, Record.field_cons, empty, asString, asArray,
        String.append_assoc]

theorem assembled_thinking (deltas : List String) (signature : String) :
    assembled options s m ((StreamedBlock.thinking deltas signature).deltas.map (deltaEvent index)) =
      { m with reasoning := m.reasoning ++ String.join deltas } := by
  have run := assembled_deltas options s index
    (fun text => [("type", .str "thinking_delta"), ("thinking", .str text)])
    (fun sent => { m with reasoning := m.reasoning ++ sent }) (fun sent text => ?_) "" deltas
  · rw [StreamedBlock.deltas, List.map_append, assembled_append, after_deltas]
    simpa [assembled, translated, handle_deltaEvent, AnthropicStream.handleDelta, Record.field_cons]
      using run
  · by_cases empty : text = "" <;>
      simp [AnthropicStream.handleDelta, Record.field_cons, empty, asString, asArray,
        String.append_assoc]

/-- The fragments of a call go to the call that was begun at their block. -/
theorem assembled_fragments {k : Nat} (begun : s.toolIndexByBlock.lookup (index : ℚ) = some k)
    (fresh : (k : ℚ) ∉ m.toolCalls.map Prod.fst) (id given name : String) (input : Record)
    (fragments : List String) :
    assembled options s { m with toolCalls := m.toolCalls ++ [((k : ℚ), ⟨id, name, ""⟩)] }
        ((StreamedBlock.toolUse given name input fragments).deltas.map (deltaEvent index)) =
      { m with toolCalls := m.toolCalls ++ [((k : ℚ), ⟨id, name, String.join fragments⟩)] } := by
  have run := assembled_deltas options s index
    (fun text => [("type", .str "input_json_delta"), ("partial_json", .str text)])
    (fun sent => { m with toolCalls := m.toolCalls ++ [((k : ℚ), ⟨id, name, sent⟩)] })
    (fun sent text => ?_) "" fragments
  · simpa [StreamedBlock.deltas] using run
  · have others : ∀ entry ∈ m.toolCalls,
        Assembled.extend k (ToolCall.ofRecord [("index", .ofNat k),
          ("function", .obj [("arguments", .str text)])]) entry = entry := by
      intro entry mem
      rw [Assembled.extend, if_neg]
      intro same
      exact fresh (same ▸ List.mem_map_of_mem mem)
    have added := @Assembled.addFragment_known (m.toolCalls ++ [((k : ℚ), ⟨id, name, sent⟩)])
      [("index", .ofNat k), ("function", .obj [("arguments", .str text)])]
      (by simp [Record.field_cons])
    rw [List.map_append] at added
    simp only [Record.field_cons, if_true, asNumber_ofNat, List.map_congr_left others] at added
    simp [AnthropicStream.handleDelta, Record.field_cons, begun, asString, added, Assembled.extend,
      ToolCall.ofRecord]

end Deltas

section Blocks

variable (options : StreamOptions)

/-- The id of the `k`-th call of a stream. -/
def streamedId (k : Nat) (id : String) : String :=
  if id = "" then "toolu_" ++ options.randomId k else id

/-- The call of a block as a client keeps it, if it is the `k`-th. -/
def StreamedBlock.streamedCalls (k : Nat) : StreamedBlock → List (ℚ × ToolCall)
  | toolUse id name _ fragments => [(k, ⟨streamedId options k id, name, String.join fragments⟩)]
  | _ => []

def streamedCalls : (k : Nat) → List StreamedBlock → List (ℚ × ToolCall)
  | _, [] => []
  | k, block :: rest =>
      block.streamedCalls options k ++
        streamedCalls (k + (block.streamedCalls options k).length) rest

theorem after_append {σ : Type*} (handle : σ → SseEvent → List Record × σ) (s : σ)
    (xs ys : List SseEvent) : after handle s (xs ++ ys) = after handle (after handle s xs) ys :=
  List.foldl_append

/-- A block is opened, and only a tool changes the state then. -/
theorem after_block (s : AnthropicStream) (index : Nat) (block : StreamedBlock) :
    after (AnthropicStream.handle options) s (block.events index) =
      (s.handleBlockStart options [("type", .str "content_block_start"), ("index", .ofNat index),
        ("content_block", .obj block.opening)]).2 := by
  have opened : after (AnthropicStream.handle options) s (block.events index) =
      after (AnthropicStream.handle options)
        (s.handleBlockStart options [("type", .str "content_block_start"), ("index", .ofNat index),
          ("content_block", .obj block.opening)]).2
        (block.deltas.map (deltaEvent index) ++
          [anthropicEvent "content_block_stop" [("index", .ofNat index)]]) := rfl
  rw [opened, after_append, after_deltas]
  rfl

theorem toolCount_block (s : AnthropicStream) (index : Nat) (block : StreamedBlock) :
    (after (AnthropicStream.handle options) s (block.events index)).toolCount =
      s.toolCount + (block.streamedCalls options s.toolCount).length := by
  rw [after_block]
  cases block <;> rfl

/-- The fragment that begins the `k`-th call. -/
def openingCall (k : Nat) (id name : String) : Record :=
  [("index", .ofNat k), ("id", .str (streamedId options k id)), ("type", .str "function"),
    ("function", .obj [("name", .str name), ("arguments", .str "")])]

def beginCall (s : AnthropicStream) (index : Nat) : AnthropicStream :=
  { s with
    toolIndexByBlock := (index, s.toolCount) :: s.toolIndexByBlock
    toolCount := s.toolCount + 1 }

theorem add_openingCall (m : Assembled) {k : Nat} (id name : String)
    (fresh : (k : ℚ) ∉ m.toolCalls.map Prod.fst) :
    m.add (chunk options [("tool_calls", .arr [.obj (openingCall options k id name)])] none) =
      { m with toolCalls := m.toolCalls ++ [((k : ℚ), ⟨streamedId options k id, name, ""⟩)] } := by
  have added := @Assembled.addFragment_new m.toolCalls (openingCall options k id name) fresh
  simp only [openingCall, ToolCall.ofRecord] at added
  simp [Record.field_cons, asString, openingCall, added]

/-- A block is opened, sent and closed. -/
theorem assembled_opened (s : AnthropicStream) (m : Assembled) (index : Nat)
    (block : StreamedBlock) {chunks : List Record} {opened : AnthropicStream}
    (start : s.handleBlockStart options [("type", .str "content_block_start"),
      ("index", .ofNat index), ("content_block", .obj block.opening)] = (chunks, opened)) :
    assembled options s m (block.events index) =
      assembled options opened (chunks.foldl Assembled.add m)
        (block.deltas.map (deltaEvent index)) := by
  have split : assembled options s m (block.events index) =
      assembled options opened (chunks.foldl Assembled.add m)
        (block.deltas.map (deltaEvent index) ++
          [anthropicEvent "content_block_stop" [("index", .ofNat index)]]) := by
    rw [StreamedBlock.events, assembled, translated, List.foldl_append]
    rw [show s.handle options (anthropicEvent "content_block_start" [("index", .ofNat index),
      ("content_block", .obj block.opening)]) = (chunks, opened) from start]
    rfl
  rw [split, assembled_append]
  rfl

/-- What a client has after a block. -/
theorem assembled_block (s : AnthropicStream) (m : Assembled) (index : Nat) (block : StreamedBlock)
    (fresh : (s.toolCount : ℚ) ∉ m.toolCalls.map Prod.fst) :
    assembled options s m (block.events index) =
      { m with
        text := m.text ++ block.textPart
        reasoning := m.reasoning ++ block.thinkingPart
        toolCalls := m.toolCalls ++ block.streamedCalls options s.toolCount } := by
  cases block with
  | text deltas =>
      rw [@assembled_opened options s m index (.text deltas) [] s rfl]
      simpa [StreamedBlock.textPart, StreamedBlock.thinkingPart, StreamedBlock.streamedCalls] using
        assembled_text options s m index deltas
  | thinking deltas signature =>
      rw [@assembled_opened options s m index (.thinking deltas signature) [] s rfl]
      simpa [StreamedBlock.textPart, StreamedBlock.thinkingPart, StreamedBlock.streamedCalls] using
        assembled_thinking options s m index deltas signature
  | toolUse id name input fragments =>
      have begun : (beginCall s index).toolIndexByBlock.lookup (index : ℚ) = some s.toolCount :=
        List.lookup_cons_self
      rw [@assembled_opened options s m index (.toolUse id name input fragments)
          [chunk options [("tool_calls", .arr [.obj (openingCall options s.toolCount id name)])] none]
          (beginCall s index) rfl,
        List.foldl_cons, List.foldl_nil, add_openingCall options m id name fresh,
        assembled_fragments options (beginCall s index) m index begun fresh]
      simp [StreamedBlock.textPart, StreamedBlock.thinkingPart, StreamedBlock.streamedCalls]

theorem below_block {count : Nat} {toolCalls : List (ℚ × ToolCall)} (below : Below count toolCalls)
    (block : StreamedBlock) :
    Below (count + (block.streamedCalls options count).length)
      (toolCalls ++ block.streamedCalls options count) := by
  cases block with
  | text | thinking => simpa [StreamedBlock.streamedCalls] using below
  | toolUse id name input fragments =>
      intro index mem
      rw [List.map_append, List.mem_append] at mem
      have step : (count : ℚ) < (count + 1 : Nat) := by exact_mod_cast Nat.lt_succ_self count
      cases mem with
      | inl kept => exact lt_trans (below index kept) step
      | inr added =>
          rw [List.mem_singleton.mp added]
          exact step

theorem assembled_blocks (s : AnthropicStream) (m : Assembled) (index : Nat)
    (blocks : List StreamedBlock) (below : Below s.toolCount m.toolCalls) :
    assembled options s m (blockEvents index blocks) =
      { m with
        text := m.text ++ String.join (blocks.map StreamedBlock.textPart)
        reasoning := m.reasoning ++ String.join (blocks.map StreamedBlock.thinkingPart)
        toolCalls := m.toolCalls ++ streamedCalls options s.toolCount blocks } := by
  induction blocks generalizing s m index with
  | nil => simp [blockEvents, assembled, translated, streamedCalls]
  | cons block rest ih =>
      have below_next := below_block options below block
      rw [← toolCount_block options s index block] at below_next
      rw [blockEvents, assembled_append, assembled_block options s m index block below.fresh,
        ih _ _ _ below_next, toolCount_block]
      simp only [List.map_cons, String.join_cons, streamedCalls, String.append_assoc,
        List.append_assoc]

end Blocks

section Streamed

variable (options : StreamOptions)

def isHeard (event : SseEvent) : Bool := AnthropicStream.typeOf event != "ping"

/-- The message that a client puts together from the events it is sent. -/
def streamedAnthropic (received : List SseEvent) : AssistantMessage :=
  (Assembled.ofChunks
    (translated (AnthropicStream.handle options) AnthropicStream.initial received)).message

theorem assembled_closing (s : AnthropicStream) (m : Assembled) (message : StreamedMessage) :
    assembled options s m message.closing =
      { m with
        finishReason :=
          (finishReasonFromAnthropic (some (.str message.stopReason))).or m.finishReason } := by
  rw [StreamedMessage.closing, assembled]
  cases ended : finishReasonFromAnthropic (some (.str message.stopReason)) with
  | none =>
      simp [translated, AnthropicStream.handle, anthropicEvent, AnthropicStream.typeOf,
        AnthropicStream.payloadOf, parseSseData, Record.field_cons, asString, asRecord, ended]
  | some reason =>
      simp [translated, AnthropicStream.handle, anthropicEvent, AnthropicStream.typeOf,
        AnthropicStream.payloadOf, parseSseData, Record.field_cons, asString, asArray, asRecord,
        ended, Assembled.add_chunk]

theorem streamedAnthropic_eq {message : StreamedMessage} {received : List SseEvent}
    (wire : received.filter isHeard = message.events) :
    streamedAnthropic options received =
      ⟨String.join (message.blocks.map StreamedBlock.textPart),
        String.join (message.blocks.map StreamedBlock.thinkingPart),
        (streamedCalls options 0 message.blocks).map Prod.snd,
        finishReasonFromAnthropic (some (.str message.stopReason))⟩ := by
  have ignored (s : AnthropicStream) (event : SseEvent) (unheard : isHeard event = false) :
      s.handle options event = ([], s) := by
    have ping : AnthropicStream.typeOf event = "ping" := by simpa [isHeard] using unheard
    simp [AnthropicStream.handle, ping]
  rw [streamedAnthropic, ← translated_filter _ isHeard ignored, wire, StreamedMessage.events]
  have started (events : List SseEvent) :
      (translated (AnthropicStream.handle options) AnthropicStream.initial
        (anthropicEvent "message_start" [("message", .obj message.opened)] :: events)).foldl
          Assembled.add Assembled.empty =
        assembled options (AnthropicStream.initial.handle options
          (anthropicEvent "message_start" [("message", .obj message.opened)])).2
          Assembled.empty events := by
    have role : Assembled.empty.add
        (chunk options [("role", .str "assistant"), ("content", .str "")] none) =
          Assembled.empty := by
      simp [Record.field_cons, asString, asArray, Assembled.empty]
    rw [translated, List.foldl_append]
    exact congrArg (fun m => assembled options _ m events) role
  rw [Assembled.ofChunks, started, assembled_append, assembled_closing,
    assembled_blocks options _ _ 0 message.blocks (by simp [Below, Assembled.empty])]
  simp [Assembled.message, Assembled.empty]
  rfl

end Streamed

section Buffered

variable (draw : Nat → String)

/-- The calls of the buffered message when `drawn` ids are taken. -/
def bufferedCalls : (drawn : Nat) → List StreamedBlock → List Record
  | _, [] => []
  | drawn, .toolUse id name input _ :: rest =>
      functionCall (if id = "" then "call_" ++ draw drawn else id) name
          (jsonStringify (Json.obj input).cloneSanitized) ::
        bufferedCalls (if id = "" then drawn + 1 else drawn) rest
  | drawn, _ :: rest => bufferedCalls drawn rest

theorem foldl_content (blocks : List StreamedBlock) (parts : AnthropicParts) :
    ∃ drawn, ((blocks.map StreamedBlock.content).map Json.cloneSanitized).foldl
        (addAnthropicBlock draw) parts =
      ⟨parts.text ++ String.join (blocks.map StreamedBlock.textPart),
        parts.reasoning ++ String.join (blocks.map StreamedBlock.thinkingPart),
        parts.toolCalls ++ bufferedCalls draw parts.drawn blocks, drawn⟩ := by
  induction blocks generalizing parts with
  | nil => exact ⟨parts.drawn, by simp [bufferedCalls]⟩
  | cons block rest ih =>
      obtain ⟨drawn, run⟩ := ih (addAnthropicBlock draw parts block.content.cloneSanitized)
      refine ⟨drawn, ?_⟩
      rw [List.map_cons, List.map_cons, List.foldl_cons, run]
      cases block with
      | text | thinking | toolUse =>
          simp [StreamedBlock.content, Json.cloneSanitized, Json.cloneFields, forbiddenKeys,
            addAnthropicBlock, Record.field_cons, bufferedCalls, StreamedBlock.textPart,
            StreamedBlock.thinkingPart, orEmptyObject, String.append_assoc]

theorem bufferedAnthropic_eq {limits : JsonLimits} {options : StreamOptions} {body out : Record}
    {requestedModel : String} {message : StreamedMessage} (describes : message.Describes body)
    (h : anthropicToOpenaiResponse limits { options with randomId := draw } body requestedModel =
      .ok out) :
    messageOfResponse out =
      ⟨String.join (message.blocks.map StreamedBlock.textPart),
        String.join (message.blocks.map StreamedBlock.thinkingPart),
        (bufferedCalls draw 0 message.blocks).map ToolCall.ofRecord,
        some ((finishReasonFromAnthropic (some (.str message.stopReason))).getD "stop")⟩ := by
  obtain ⟨input, sanitized, h⟩ := bind_ok h
  cases h
  obtain ⟨-, rfl⟩ := sanitizeParsed_ok sanitized
  have content : Record.field (Json.cloneFields body) "content" =
      some (.arr ((message.blocks.map StreamedBlock.content).map Json.cloneSanitized)) := by
    rw [field_cloneFields body (by decide), describes.content, Option.map_some, Json.cloneSanitized,
      cloneItems_eq]
  have reason : Record.field (Json.cloneFields body) "stop_reason" =
      some (.str message.stopReason) := by
    rw [field_cloneFields body (by decide), describes.stopReason]
    rfl
  obtain ⟨drawn, run⟩ := foldl_content draw message.blocks ⟨"", "", [], 0⟩
  rw [messageOfResponse_chatCompletion, content, reason]
  simp only [fromAnthropicBlocks, asArray_arr, run]
  simp

end Buffered

section Agreement

variable (limits : JsonLimits) (options : StreamOptions) (draw : Nat → String)

/-- Calls with the same id and name, and arguments that read as the same object. -/
def SameTool (a b : ToolCall) : Prop :=
  a.id = b.id ∧ a.name = b.name ∧ ∃ fields,
    jsonParse a.arguments = some (.obj fields) ∧ jsonParse b.arguments = some (.obj fields)

/-- Drawn ids are not alike on the two sides. -/
theorem streamedId_eq_iff (k drawn : Nat) (id : String) :
    streamedId options k id = (if id = "" then "call_" ++ draw drawn else id) ↔ id ≠ "" := by
  by_cases empty : id = ""
  · rw [streamedId, if_pos empty, if_pos empty]
    refine ⟨fun same => ?_, fun given => absurd empty given⟩
    have heads := congrArg (fun s => s.toList.head?) same
    simp at heads
  · simp [streamedId, empty]

theorem sameArguments_iff {id name : String} {input : Record} {fragments : List String}
    (complete : (StreamedBlock.toolUse id name input fragments).Complete) :
    (∃ fields, jsonParse (String.join fragments) = some (.obj fields) ∧
        jsonParse (jsonStringify (Json.obj input).cloneSanitized) = some (.obj fields)) ↔
      String.join fragments ≠ "" ∧ (Json.obj input).Lasting := by
  cases complete with
  | inl nothing =>
      rw [nothing.1, jsonParse_empty]
      simp
  | inr sent =>
      have given : String.join fragments ≠ "" := by
        intro empty
        rw [empty, jsonParse_empty] at sent
        exact nomatch sent
      rw [sent, ← jsonParse_clone_iff (carried_of_parse sent)]
      constructor
      · rintro ⟨fields, same, read⟩
        cases same
        exact ⟨given, read⟩
      · exact fun lasting => ⟨input, rfl, lasting.2⟩

theorem finishReasonFromAnthropic_some {reason : String} (given : reason ≠ "") :
    ∃ finish, finishReasonFromAnthropic (some (.str reason)) = some finish := by
  simp only [finishReasonFromAnthropic, asString_str]
  split
  case h_6 => exact absurd rfl given
  all_goals exact ⟨_, rfl⟩

theorem ToolCall.ofRecord_functionCall (id name arguments : String) :
    ToolCall.ofRecord (functionCall id name arguments) = ⟨id, name, arguments⟩ := rfl

theorem sameTools_iff {blocks : List StreamedBlock} (complete : ∀ block ∈ blocks, block.Complete)
    (k drawn : Nat) :
    List.Forall₂ SameTool ((streamedCalls options k blocks).map Prod.snd)
        ((bufferedCalls draw drawn blocks).map ToolCall.ofRecord) ↔
      ∀ block ∈ blocks, block.Carries := by
  induction blocks generalizing k drawn with
  | nil => simp [streamedCalls, bufferedCalls]
  | cons block rest ih =>
      have later := ih fun other mem => complete other (List.mem_cons_of_mem _ mem)
      rw [List.forall_mem_cons]
      cases block with
      | text | thinking =>
          simpa [streamedCalls, bufferedCalls, StreamedBlock.streamedCalls, StreamedBlock.Carries]
            using later k drawn
      | toolUse id name input fragments =>
          have here := complete _ List.mem_cons_self
          have ids := streamedId_eq_iff options draw k drawn id
          have arguments := sameArguments_iff here
          rw [streamedCalls, bufferedCalls, List.map_append, List.map_cons]
          rw [StreamedBlock.streamedCalls, List.map_singleton, List.singleton_append,
            List.forall₂_cons, later, ToolCall.ofRecord_functionCall, SameTool, ids, arguments,
            StreamedBlock.Carries]
          simp only [true_and]

/-- A streamed message is the buffered one exactly if it says why it ended and each
tool has an id and an input that is sent and lasts. -/
theorem anthropic_stream_agrees_iff {message : StreamedMessage} {received : List SseEvent}
    {body out : Record} {requestedModel : String}
    (complete : ∀ block ∈ message.blocks, block.Complete)
    (wire : received.filter isHeard = message.events) (describes : message.Describes body)
    (h : anthropicToOpenaiResponse limits { options with randomId := draw } body requestedModel =
      .ok out) :
    AgreeUpTo SameTool (streamedAnthropic options received) (messageOfResponse out) ↔
      message.stopReason ≠ "" ∧ ∀ block ∈ message.blocks, block.Carries := by
  rw [streamedAnthropic_eq options wire, bufferedAnthropic_eq draw describes h,
    ← sameTools_iff options draw complete 0 0]
  constructor
  · intro agree
    refine ⟨fun silent => ?_, agree.toolCalls⟩
    have reason : finishReasonFromAnthropic (some (.str message.stopReason)) = some _ :=
      agree.finishReason
    rw [silent] at reason
    exact nomatch reason
  · rintro ⟨given, calls⟩
    obtain ⟨finish, ended⟩ := finishReasonFromAnthropic_some given
    exact ⟨rfl, rfl, calls, by rw [ended]; rfl⟩

/-- A weather call, with the input sent in these fragments. -/
def weatherMessage (input : Record) (fragments : List String) : StreamedMessage :=
  ⟨[], [.text ["It ", "rains"], .toolUse "toolu_1" "weather" input fragments], "tool_use", []⟩

def weatherBody (input : Record) : Record :=
  [("content", .arr ((weatherMessage input []).blocks.map StreamedBlock.content)),
    ("stop_reason", .str "tool_use")]

def wireOptions : StreamOptions := ⟨"m", "chatcmpl-0", 0, false, fun _ => "0", jsonStringify⟩

def romeInput : Record := [("city", .str "Rome")]

def romeFragments : List String := ["", jsonStringify (.obj romeInput)]

theorem parse_romeFragments : jsonParse (String.join romeFragments) = some (.obj romeInput) := by
  have whole : String.join romeFragments = jsonStringify (.obj romeInput) := by
    simp [romeFragments]
  have carried : (Json.obj romeInput).Carried := ⟨by decide, trivial, trivial⟩
  rw [whole, jsonParse_jsonStringify carried]
  rfl

theorem anthropic_stream_agrees_rome : ∃ out,
    anthropicToOpenaiResponse ⟨64, 1000⟩ wireOptions (weatherBody romeInput) "" = .ok out ∧
      AgreeUpTo SameTool
        (streamedAnthropic wireOptions (weatherMessage romeInput romeFragments).events)
        (messageOfResponse out) := by
  have complete : ∀ block ∈ (weatherMessage romeInput romeFragments).blocks, block.Complete := by
    intro block mem
    rcases List.mem_cons.mp mem with rfl | mem
    · trivial
    · rw [List.mem_singleton.mp mem]
      exact .inr parse_romeFragments
  have carries : ∀ block ∈ (weatherMessage romeInput romeFragments).blocks, block.Carries := by
    intro block mem
    rcases List.mem_cons.mp mem with rfl | mem
    · trivial
    · rw [List.mem_singleton.mp mem]
      exact ⟨by decide, by decide +kernel, by decide, trivial, trivial⟩
  have describes : (weatherMessage romeInput romeFragments).Describes (weatherBody romeInput) :=
    ⟨rfl, rfl⟩
  obtain ⟨out, buffered⟩ : ∃ out,
      anthropicToOpenaiResponse ⟨64, 1000⟩ wireOptions (weatherBody romeInput) "" = .ok out :=
    ⟨_, rfl⟩
  exact ⟨out, buffered, (anthropic_stream_agrees_iff ⟨64, 1000⟩ wireOptions (fun _ => "0")
    complete rfl describes buffered).mpr ⟨by decide, carries⟩⟩

/-- A tool without input is sent without a delta: its arguments are no object then. -/
theorem empty_input_disagrees :
    (∀ block ∈ (weatherMessage [] []).blocks, block.Complete) ∧
      (weatherMessage [] []).Describes (weatherBody []) ∧
      ∃ out, anthropicToOpenaiResponse ⟨64, 1000⟩ wireOptions (weatherBody []) "" = .ok out ∧
        ¬AgreeUpTo SameTool (streamedAnthropic wireOptions (weatherMessage [] []).events)
          (messageOfResponse out) := by
  refine ⟨?_, ⟨rfl, rfl⟩, _, rfl, fun agree => ?_⟩
  · intro block mem
    rcases List.mem_cons.mp mem with rfl | mem
    · trivial
    · rw [List.mem_singleton.mp mem]
      exact .inl ⟨rfl, rfl⟩
  · have calls : (streamedAnthropic wireOptions (weatherMessage [] []).events).toolCalls =
        [⟨"toolu_1", "weather", ""⟩] := by decide +kernel
    have same := agree.toolCalls
    rw [calls] at same
    cases same with
    | cons same _ =>
        obtain ⟨-, -, fields, empty, -⟩ := same
        exact nomatch empty

end Agreement

end Gateway
